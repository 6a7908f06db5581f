import MqttFieldBridge.CLib.CString

/-! # Character arrays of fixed size

`CharArray n` is a `char[n]`: all of its `n` bytes, those after the NUL included. `text` is the C
string it holds, and the array is `Terminated` if it holds a NUL at all. Every library call that
stores into an array overwrites its first bytes and leaves the others, `write`.

* `strncpy a t`: `strncpy(a, t, sizeof(a) - 1)`, which pads with NULs and never touches the last
  byte.
* `snprintf a t`: `snprintf(a, sizeof(a), "%s", t)`. -/

namespace MqttFieldBridge.CLib

/-- A `char[n]`. -/
structure CharArray (n : ℕ) where
  bytes : List Byte
  length_eq : bytes.length = n
deriving DecidableEq

/-- A C string that fits into a `char[n]`. -/
structure CStr (n : ℕ) where
  val : Text
  notMem : (0 : Byte) ∉ val
  length_lt : val.length < n
deriving DecidableEq

/-- The empty string. -/
def CStr.empty {n : ℕ} : CStr (n + 1) := ⟨[], List.not_mem_nil, Nat.succ_pos n⟩

namespace CharArray

variable {n : ℕ}

@[ext] theorem ext {a b : CharArray n} (h : a.bytes = b.bytes) : a = b := by
  cases a; cases b; cases h; rfl

/-- The array of NULs, as `memset` leaves it. -/
def zero (n : ℕ) : CharArray n := ⟨List.replicate n 0, List.length_replicate⟩

/-- The array with the bytes `l`, cut or padded to its size. -/
def ofBytes (n : ℕ) (l : List Byte) : CharArray n :=
  ⟨(l ++ List.replicate (n - l.length) 0).take n, by simp; omega⟩

/-- The C string the array holds. -/
def text (a : CharArray n) : Text := cstr a.bytes

/-- The array holds a NUL. -/
def Terminated (a : CharArray n) : Prop := (0 : Byte) ∈ a.bytes

instance (a : CharArray n) : Decidable a.Terminated := by unfold Terminated; infer_instance

/-- The first byte, `a[0]`. -/
def first (a : CharArray n) : Byte := a.bytes.headD 0

/-- Overwrites the first bytes with `w`. -/
def write (a : CharArray n) (w : List Byte) : CharArray n :=
  ⟨(w ++ a.bytes.drop w.length).take n, by simp [a.length_eq]; omega⟩

/-- `strncpy(a, t, sizeof(a) - 1)`. -/
def strncpy (a : CharArray n) (t : Text) : CharArray n :=
  a.write (t.take (n - 1) ++ List.replicate (n - 1 - t.length) 0)

/-- `snprintf(a, sizeof(a), "%s", t)`. -/
def snprintf (a : CharArray n) (t : Text) : CharArray n := a.write (t.take (n - 1) ++ [0])

/-! ### Reading -/

theorem text_eq_nil_iff {a : CharArray n} : a.text = [] ↔ a.first = 0 := cstr_eq_nil_iff

theorem zero_notMem_text (a : CharArray n) : (0 : Byte) ∉ a.text := zero_notMem_cstr _

theorem length_text_lt {a : CharArray n} (h : a.Terminated) : a.text.length < n :=
  (length_cstr_lt h).trans_eq a.length_eq

/-! ### Writing -/

theorem bytes_write {a : CharArray n} {w : List Byte} (h : w.length ≤ n) :
    (a.write w).bytes = w ++ a.bytes.drop w.length := by
  unfold write
  refine List.take_of_length_le ?_
  simp [a.length_eq]
  omega

/-- What is written before a NUL is read up to its first NUL. -/
theorem text_write_cstr {a : CharArray n} {t : Text} (hl : t.length < n) :
    (a.write (t ++ [0])).text = cstr t := by
  rw [text, bytes_write (by simp; omega), List.append_assoc, List.singleton_append,
    cstr_append_nul]

/-- A string written with its NUL is the string the array holds. -/
theorem text_write {a : CharArray n} {t : Text} (h0 : (0 : Byte) ∉ t) (hl : t.length < n) :
    (a.write (t ++ [0])).text = t :=
  (text_write_cstr hl).trans (cstr_of_notMem h0)

theorem terminated_write {a : CharArray n} {t : Text} (hl : t.length < n) :
    (a.write (t ++ [0])).Terminated := by
  rw [Terminated, bytes_write (by simp; omega)]
  simp

/-- Writing what the array holds changes nothing, and nothing else does. -/
theorem write_eq_self_iff {a : CharArray n} {t : Text} (h0 : (0 : Byte) ∉ t) (hl : t.length < n) :
    a.write (t ++ [0]) = a ↔ a.Terminated ∧ a.text = t := by
  constructor
  · intro h
    rw [← h]
    exact ⟨terminated_write hl, text_write h0 hl⟩
  · rintro ⟨ht, rfl⟩
    ext1
    rw [bytes_write (by simp; omega)]
    exact cstr_append_drop ht

theorem text_snprintf {a : CharArray n} {t : Text} (h0 : (0 : Byte) ∉ t) (hl : t.length < n) :
    (a.snprintf t).text = t := by
  rw [snprintf, List.take_of_length_le (by omega)]
  exact text_write h0 hl

/-- `snprintf` leaves a terminated array, whatever it prints. -/
theorem terminated_snprintf {a : CharArray n} {t : Text} (hn : 0 < n) :
    (a.snprintf t).Terminated :=
  terminated_write (by simp; omega)

theorem snprintf_eq_self_iff {a : CharArray n} {t : Text} (h0 : (0 : Byte) ∉ t)
    (hl : t.length < n) : a.snprintf t = a ↔ a.Terminated ∧ a.text = t := by
  rw [snprintf, List.take_of_length_le (by omega)]
  exact write_eq_self_iff h0 hl

/-- `strncpy` over an array whose last byte is NUL leaves it terminated. -/
theorem terminated_strncpy {a : CharArray n} {t : Text} (h : a.bytes.getLast? = some 0) :
    (a.strncpy t).Terminated := by
  have hl : (t.take (n - 1) ++ List.replicate (n - 1 - t.length) 0).length = n - 1 := by
    simp; omega
  have hn : 0 < n := by
    rw [← a.length_eq]
    refine List.length_pos_iff.mpr ?_
    rintro h0
    simp [h0] at h
  rw [Terminated, strncpy, bytes_write (by omega), hl]
  refine List.mem_append_right _ ?_
  obtain ⟨l, hb⟩ := List.getLast?_eq_some_iff.mp h
  have : l.length = n - 1 := by
    have := a.length_eq
    rw [hb] at this
    simp at this
    omega
  rw [hb, ← this]
  simp

/-- `strncpy` of a string that fits stores exactly this string. -/
theorem text_strncpy {a : CharArray n} {t : Text} (h : a.bytes.getLast? = some 0)
    (h0 : (0 : Byte) ∉ t) (hl : t.length < n) : (a.strncpy t).text = t := by
  have hle : t.length ≤ n - 1 := by omega
  rw [strncpy, text, bytes_write (by simp; omega), List.take_of_length_le hle]
  rcases Nat.eq_zero_or_pos (n - 1 - t.length) with hz | hz
  · obtain ⟨l, hb⟩ := List.getLast?_eq_some_iff.mp h
    have hll : l.length = t.length := by
      have := a.length_eq
      rw [hb] at this
      simp at this
      omega
    rw [hz, List.replicate_zero, List.append_nil, hb, ← hll, List.drop_left]
    exact cstr_append_zero h0 []
  · obtain ⟨k, hk⟩ := Nat.exists_eq_succ_of_ne_zero hz.ne'
    rw [hk, List.replicate_succ, List.append_assoc, List.cons_append]
    exact cstr_append_zero h0 _

theorem getLast?_zero (hn : 0 < n) : (zero n).bytes.getLast? = some 0 := by
  simp [zero, List.getLast?_replicate]
  omega

end CharArray

end MqttFieldBridge.CLib
