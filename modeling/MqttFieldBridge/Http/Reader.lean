import MqttFieldBridge.CLib.CharArray
import MqttFieldBridge.Config.Validate

/-! # Reading members of a JSON text

The readers of `provisioning_http.c`. They do not parse: each searches the text for the quoted key,
goes on to the next colon, wherever that is, and decodes what follows. Texts are C strings, so they
hold no NUL; a number whose failure leaves the caller's variable alone is an `Option`. -/

namespace MqttFieldBridge.Http

open MqttFieldBridge.CLib MqttFieldBridge.Config

/-- The bytes `"`, `\` and `:`. -/
abbrev quote : Byte := 34
abbrev backslash : Byte := 92
abbrev colon : Byte := 58

/-- The suffix at the first `"key"`; the needle is cut to its buffer of 64 bytes. -/
def jsonFindKey (json key : Text) : Option Text :=
  strstr json ((quote :: key ++ [quote]).take 63)

/-- The byte the loop of `json_get_string` copies next, and the text after it. -/
def nextByte (c : Byte) : Text → Byte × Text
  | [] => (c, [])
  | d :: ds => if c = backslash then (d, ds) else (c, d :: ds)

/-- The loop of `json_get_string` with room for so many bytes: those it copies, and where it stops. -/
def copyLoop : ℕ → Text → Text × Text
  | 0, p => ([], p)
  | _ + 1, [] => ([], [])
  | room + 1, c :: cs =>
    if c = quote then ([], c :: cs)
    else
      let r := copyLoop room (nextByte c cs).2
      ((nextByte c cs).1 :: r.1, r.2)

def jsonGetString {n : ℕ} (json key : Text) (out : CharArray n) : Rc × CharArray n :=
  match jsonFindKey json key with
  | none => (.err, out)
  | some p =>
    if n = 0 then (.err, out)
    else
      match (afterChr p colon).map skipSpace with
      | some (c :: p) =>
        if c = quote then
          let r := copyLoop (n - 1) p
          (if r.2.head? = some quote then .ok else .err, out.write (r.1 ++ [0]))
        else (.err, out)
      | _ => (.err, out)

def jsonGetU16 (longBits : ℕ) (json key : Text) : Option UInt16 :=
  match jsonFindKey json key with
  | none => none
  | some p =>
    match afterChr p colon with
    | none => none
    | some p =>
      let value := strtol longBits p
      if value ≤ 0 ∨ value > 65535 then none else some (UInt16.ofNat value.toNat)

def jsonGetBoolish (longBits : ℕ) (json key : Text) : Option UInt8 :=
  match jsonFindKey json key with
  | none => none
  | some p =>
    match (afterChr p colon).map skipSpace with
    | none => none
    | some p =>
      if str "true" <+: p then some 1
      else if str "false" <+: p then some 0
      else
        let value := strtol longBits p
        if value < 0 ∨ value > 1 then none else some (UInt8.ofNat value.toNat)

def copyIfPresent {n : ℕ} (dst : CharArray n) (json key : Text) : CharArray n :=
  (jsonGetString json key dst).2

/-! ### What the readers write -/

theorem length_copyLoop : ∀ (room : ℕ) (p : Text), (copyLoop room p).1.length ≤ room
  | 0, p => by simp [copyLoop]
  | room + 1, [] => by simp [copyLoop]
  | room + 1, c :: cs => by
    unfold copyLoop
    split_ifs
    · simp
    · have := length_copyLoop room (nextByte c cs).2
      simp only [List.length_cons]
      omega

/-- A string that is read, even in part, is terminated. -/
theorem terminated_jsonGetString {n : ℕ} {json key : Text} {out : CharArray n}
    (h : out.Terminated) : (jsonGetString json key out).2.Terminated := by
  unfold jsonGetString
  rcases jsonFindKey json key with _ | p
  · exact h
  · by_cases hn : n = 0
    · simp only [if_pos hn]
      exact h
    · simp only [if_neg hn]
      rcases (afterChr p colon).map skipSpace with _ | (_ | ⟨c, p⟩)
      · exact h
      · exact h
      · by_cases hc : c = quote
        · simp only [if_pos hc]
          refine CharArray.terminated_write ?_
          have := length_copyLoop (n - 1) p
          omega
        · simp only [if_neg hc]
          exact h

/-- A flag that is read is `0` or `1`. -/
theorem jsonGetBoolish_le {longBits : ℕ} {json key : Text} {v : UInt8}
    (h : jsonGetBoolish longBits json key = some v) : v ≤ 1 := by
  unfold jsonGetBoolish at h
  rcases hk : jsonFindKey json key with _ | p
  · rw [hk] at h
    cases h
  · rw [hk] at h
    simp only at h
    rcases hc : (afterChr p colon).map skipSpace with _ | p
    · rw [hc] at h
      cases h
    · rw [hc] at h
      simp only at h
      split_ifs at h with h1 h2 h3
      · cases h
        exact UInt8.le_refl 1
      · cases h
        decide
      · obtain rfl := Option.some.inj h
        have hv : (strtol longBits p).toNat ≤ 1 := by omega
        refine UInt8.le_iff_toNat_le.mpr ?_
        rw [UInt8.toNat_ofNat']
        exact (Nat.mod_le _ _).trans hv

end MqttFieldBridge.Http
