import MqttFieldBridge.CLib.CharArray
import Mathlib.Tactic.Ring

/-! # Layouts of records in memory

A `Layout α` says how a value of type `α` lies in memory: how many bytes it takes, which bytes they
are, and which value a run of bytes spells. That a value survives being written and read back,
`dec_enc`, is a field, so every layout built from the combinators below has it.

* `chars n`, `u8`, `u16`, `pad n`: the members of a record; words are little endian.
* `prod`: one member after the other. `iso`: the same bytes read as another type. -/

namespace MqttFieldBridge.CLib

/-- How a value of type `α` lies in memory. -/
structure Layout (α : Type) where
  size : ℕ
  enc : α → List Byte
  dec : List Byte → α
  length_enc : ∀ a, (enc a).length = size
  dec_enc : ∀ a, dec (enc a) = a

namespace Layout

variable {α β : Type}

/-- A `char[n]`. -/
def chars (n : ℕ) : Layout (CharArray n) where
  size := n
  enc := CharArray.bytes
  dec := CharArray.ofBytes n
  length_enc := CharArray.length_eq
  dec_enc a := by
    ext1
    simp [CharArray.ofBytes, a.length_eq, List.take_of_length_le a.length_eq.le]

/-- A `uint8_t`. -/
def u8 : Layout UInt8 where
  size := 1
  enc v := [v]
  dec l := l.headD 0
  length_enc _ := rfl
  dec_enc _ := rfl

/-- A `uint16_t`, its low byte first. -/
def u16 : Layout UInt16 where
  size := 2
  enc v := [UInt8.ofNat (v.toNat % 256), UInt8.ofNat (v.toNat / 256)]
  dec l := UInt16.ofNat ((l.headD 0).toNat + 256 * (l.tail.headD 0).toNat)
  length_enc _ := rfl
  dec_enc v := by
    have hv := v.toNat_lt
    refine UInt16.toNat_inj.mp ?_
    simp only [List.headD_cons, List.tail_cons, UInt8.toNat_ofNat', UInt16.toNat_ofNat']
    omega

/-- `n` bytes that belong to no member. -/
def pad (n : ℕ) : Layout Unit where
  size := n
  enc _ := List.replicate n 0
  dec _ := ()
  length_enc _ := List.length_replicate
  dec_enc _ := rfl

/-- One member after another. -/
def prod (A : Layout α) (B : Layout β) : Layout (α × β) where
  size := A.size + B.size
  enc p := A.enc p.1 ++ B.enc p.2
  dec l := (A.dec (l.take A.size), B.dec (l.drop A.size))
  length_enc p := by simp [A.length_enc, B.length_enc]
  dec_enc p := by
    rw [List.take_left' (A.length_enc _), List.drop_left' (A.length_enc _), A.dec_enc, B.dec_enc]

/-- The same bytes, read as another type. -/
def iso (A : Layout α) (f : α → β) (g : β → α) (h : ∀ b, f (g b) = b) : Layout β where
  size := A.size
  enc b := A.enc (g b)
  dec l := f (A.dec l)
  length_enc b := A.length_enc _
  dec_enc b := by rw [A.dec_enc, h]

end Layout

end MqttFieldBridge.CLib
