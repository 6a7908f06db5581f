import Mathlib.Algebra.Order.Ring.Int
import Mathlib.Data.List.TakeWhile
import Mathlib.Data.List.Basic
import Mathlib.Tactic.SplitIfs

/-! # C strings as byte lists

A `Text` is the list of bytes a `char *` points to. A C string ends at its first NUL, so what a
library function reads of a buffer `l` is `cstr l`; a pointer into a string is the suffix it points
at. The functions are those of `<string.h>`, `<ctype.h>` and `<stdlib.h>` that take such pointers.

* `strstr`, `strchr`: the suffix found, if any.
* `strtol bits`: base ten, without an end pointer, clamped to a `long` of `bits` bits; `atoi` is its
  conversion to a 32 bit `int`.
* `decimal`: what `%u` prints. -/

namespace MqttFieldBridge.CLib

/-- A `char`, as the byte it is. -/
abbrev Byte := UInt8

/-- The bytes a pointer points to. -/
abbrev Text := List Byte

/-- The bytes of a string literal. -/
def str (s : String) : Text := s.toUTF8.data.toList

/-- The C string a buffer holds: its bytes before the first NUL. -/
def cstr (l : Text) : Text := l.takeWhile (· ≠ 0)

theorem zero_notMem_cstr (l : Text) : (0 : Byte) ∉ cstr l := by
  intro h
  simpa using List.mem_takeWhile_imp h

theorem cstr_of_notMem {l : Text} (h : (0 : Byte) ∉ l) : cstr l = l := by
  refine List.takeWhile_eq_self_iff.mpr fun x hx => ?_
  simp only [ne_eq, decide_not, Bool.not_eq_eq_eq_not, Bool.not_true, decide_eq_false_iff_not]
  rintro rfl
  exact h hx

/-- What follows a NUL is not part of the string. -/
theorem cstr_append_nul (l r : Text) : cstr (l ++ 0 :: r) = cstr l := by
  induction l with
  | nil => rfl
  | cons c cs ih =>
    by_cases hc : c = 0
    · simp [cstr, hc]
    · simpa [cstr, hc] using ih

theorem cstr_append {l : Text} (h : (0 : Byte) ∉ l) (r : Text) : cstr (l ++ r) = l ++ cstr r := by
  refine List.takeWhile_append_of_pos fun x hx => ?_
  simp only [ne_eq, decide_not, Bool.not_eq_eq_eq_not, Bool.not_true, decide_eq_false_iff_not]
  rintro rfl
  exact h hx

theorem cstr_append_zero {l : Text} (h : (0 : Byte) ∉ l) (r : Text) :
    cstr (l ++ 0 :: r) = l :=
  (cstr_append_nul l r).trans (cstr_of_notMem h)

theorem cstr_eq_nil_iff {l : Text} : cstr l = [] ↔ l.headD 0 = 0 := by
  cases l with
  | nil => simp [cstr]
  | cons c cs =>
    by_cases hc : c = 0
    · simp [cstr, hc]
    · simp [cstr, hc]

theorem length_cstr_lt {l : Text} (h : (0 : Byte) ∈ l) : (cstr l).length < l.length := by
  unfold cstr
  induction l with
  | nil => simp at h
  | cons c cs ih =>
    by_cases hc : c = 0
    · simp [hc]
    · have hcs : (0 : Byte) ∈ cs := (List.mem_cons.mp h).resolve_left fun h0 => hc h0.symm
      simpa [hc] using ih hcs

/-- A buffer is its string, a NUL, and the rest. -/
theorem cstr_append_drop {l : Text} (h : (0 : Byte) ∈ l) :
    cstr l ++ [0] ++ l.drop (cstr l ++ [0]).length = l := by
  induction l with
  | nil => simp at h
  | cons c cs ih =>
    by_cases hc : c = 0
    · simp [cstr, hc]
    · have hcs : (0 : Byte) ∈ cs := (List.mem_cons.mp h).resolve_left fun h0 => hc h0.symm
      have hcons : cstr (c :: cs) = c :: cstr cs := List.takeWhile_cons_of_pos (by simpa using hc)
      rw [hcons, List.cons_append, List.cons_append, List.length_cons, List.drop_succ_cons, ih hcs]

/-! ### Searching -/

/-- `strstr`: the first suffix that starts with `needle`. -/
def strstr : Text → Text → Option Text
  | [], needle => if needle = [] then some [] else none
  | c :: cs, needle => if needle <+: c :: cs then some (c :: cs) else strstr cs needle

/-- `strchr`: the first suffix that starts with `b`. -/
def strchr : Text → Byte → Option Text
  | [], _ => none
  | c :: cs, b => if c = b then some (c :: cs) else strchr cs b

/-- What stands after the first `b`. -/
def afterChr (l : Text) (b : Byte) : Option Text := (strchr l b).map List.tail

theorem strstr_isSuffix : ∀ {l needle r : Text}, strstr l needle = some r → r <:+ l
  | [], needle, r, h => by
    simp only [strstr] at h
    split_ifs at h
    cases h
    exact List.suffix_refl _
  | c :: cs, needle, r, h => by
    simp only [strstr] at h
    split_ifs at h
    · cases h
      exact List.suffix_refl _
    · exact (strstr_isSuffix h).trans (List.suffix_cons c cs)

/-- A part that holds no start of `needle` is passed over. -/
theorem strstr_append {needle : Text} : ∀ {a b : Text},
    (∀ p q, a = p ++ q → q ≠ [] → ¬ needle <+: q ++ b) → strstr (a ++ b) needle = strstr b needle
  | [], b, _ => rfl
  | c :: cs, b, h => by
    have hc : ¬ needle <+: c :: (cs ++ b) := by
      simpa using h [] (c :: cs) rfl (by simp)
    have hcs : ∀ p q, cs = p ++ q → q ≠ [] → ¬ needle <+: q ++ b := fun p q e hq =>
      h (c :: p) q (by rw [e]; rfl) hq
    rw [List.cons_append, strstr, if_neg hc]
    exact strstr_append hcs

theorem strstr_of_prefix {l needle : Text} (h : needle <+: l) : strstr l needle = some l := by
  cases l with
  | nil => simp [strstr, List.prefix_nil.mp h]
  | cons c cs => rw [strstr, if_pos h]

/-- What is found starts with the needle. -/
theorem prefix_of_strstr {needle : Text} : ∀ {l r : Text}, strstr l needle = some r → needle <+: r
  | [], r, h => by
    simp only [strstr] at h
    split_ifs at h with hn
    exact hn ▸ List.nil_prefix
  | c :: cs, r, h => by
    simp only [strstr] at h
    split_ifs at h with hp
    · exact Option.some.inj h ▸ hp
    · exact prefix_of_strstr h

/-- What is found in a text is found in a longer one. -/
theorem strstr_append_of_some {needle b : Text} : ∀ {a r : Text}, strstr a needle = some r →
    strstr (a ++ b) needle = some (r ++ b)
  | [], r, h => by
    simp only [strstr] at h
    split_ifs at h with hn
    obtain rfl := Option.some.inj h
    exact strstr_of_prefix (hn ▸ List.nil_prefix)
  | c :: cs, r, h => by
    simp only [strstr] at h
    split_ifs at h with hp
    · obtain rfl := Option.some.inj h
      exact strstr_of_prefix (List.prefix_append_of_prefix hp)
    · have hlen : needle.length ≤ (c :: cs).length :=
        (prefix_of_strstr h).length_le.trans ((strstr_isSuffix h).length_le.trans (Nat.le_succ _))
      have hwhole : ¬ needle <+: c :: cs ++ b := fun hw =>
        hp (List.prefix_of_prefix_length_le hw (List.prefix_append _ _) hlen)
      simp only [List.cons_append, strstr] at hwhole ⊢
      rw [if_neg hwhole]
      exact strstr_append_of_some h

/-- What is found early enough in a text is found in its part. -/
theorem strstr_of_append {needle b : Text} (hne : needle ≠ []) : ∀ {a s : Text},
    strstr (a ++ b) needle = some s → needle.length + b.length ≤ s.length →
      ∃ r, s = r ++ b ∧ strstr a needle = some r
  | [], s, h, hlen => by
    have hs : s.length ≤ b.length := (strstr_isSuffix h).length_le
    have hpos := List.length_pos_iff.mpr hne
    omega
  | c :: cs, s, h, hlen => by
    rw [List.cons_append] at h
    simp only [strstr] at h ⊢
    split_ifs at h with hp
    · obtain rfl := Option.some.inj h
      have hle : needle.length ≤ (c :: cs).length := by
        simp only [List.length_cons, List.length_append] at hlen ⊢
        omega
      have hpart : needle <+: c :: cs :=
        List.prefix_of_prefix_length_le hp (List.prefix_append (c :: cs) b) hle
      exact ⟨c :: cs, rfl, if_pos hpart⟩
    · obtain ⟨r, hr, hfound⟩ := strstr_of_append hne h hlen
      refine ⟨r, hr, ?_⟩
      rw [if_neg fun hw => hp (List.prefix_append_of_prefix hw), hfound]

theorem strchr_append {b : Byte} : ∀ {a : Text}, b ∉ a → ∀ r, strchr (a ++ r) b = strchr r b
  | [], _, r => rfl
  | c :: cs, h, r => by
    simp only [List.mem_cons, not_or] at h
    rw [List.cons_append, strchr, if_neg (Ne.symm h.1)]
    exact strchr_append h.2 r

theorem strchr_append_of_some {b : Byte} {r : Text} : ∀ {p s : Text}, strchr p b = some s →
    strchr (p ++ r) b = some (s ++ r)
  | [], s, h => by cases h
  | c :: cs, s, h => by
    unfold strchr at h
    rw [List.cons_append, strchr]
    split_ifs at h ⊢
    · rw [← Option.some.inj h]
      rfl
    · exact strchr_append_of_some h

/-- What is found starts with the byte. -/
theorem head_of_strchr {b : Byte} : ∀ {p s : Text}, strchr p b = some s → [b] <+: s
  | [], s, h => by cases h
  | c :: cs, s, h => by
    unfold strchr at h
    split_ifs at h with hc
    · rw [← Option.some.inj h, hc]
      exact ⟨cs, rfl⟩
    · exact head_of_strchr h

theorem afterChr_append {b : Byte} {a : Text} (h : b ∉ a) (r : Text) :
    afterChr (a ++ b :: r) b = some r := by
  simp [afterChr, strchr_append h, strchr]

/-- The last separator splits a list in one way only. -/
theorem append_sep_inj {α : Type*} {a : α} {x₁ x₂ z₁ z₂ : List α} (h₁ : a ∉ z₁) (h₂ : a ∉ z₂)
    (h : x₁ ++ a :: z₁ = x₂ ++ a :: z₂) : x₁ = x₂ ∧ z₁ = z₂ := by
  rcases List.append_eq_append_iff.mp h with ⟨c, rfl, hc⟩ | ⟨c, rfl, hc⟩
  · rcases List.cons_eq_append_iff.mp hc with ⟨rfl, hz⟩ | ⟨d, rfl, hz⟩
    · exact ⟨(List.append_nil _).symm, (List.cons.inj hz).2.symm⟩
    · exact absurd (hz ▸ List.mem_append_right d List.mem_cons_self) h₁
  · rcases List.cons_eq_append_iff.mp hc with ⟨rfl, hz⟩ | ⟨d, rfl, hz⟩
    · exact ⟨List.append_nil _, (List.cons.inj hz).2⟩
    · exact absurd (hz ▸ List.mem_append_right d List.mem_cons_self) h₂

/-! ### White space and numbers -/

/-- `isspace` in the C locale. -/
def isspace (c : Byte) : Bool := c = 32 || (9 ≤ c && c ≤ 13)

/-- The text after its leading white space. -/
def skipSpace (l : Text) : Text := l.dropWhile isspace

/-- `isdigit`. -/
def isdigit (c : Byte) : Bool := 48 ≤ c && c ≤ 57

/-- The value of the leading digits, after a part of value `acc`. -/
def readDigits : Text → ℕ → ℕ
  | [], acc => acc
  | c :: cs, acc => if isdigit c then readDigits cs (acc * 10 + (c.toNat - 48)) else acc

/-- The sign of a numeral and its digits. -/
def splitSign : Text → Bool × Text
  | 45 :: cs => (true, cs)
  | 43 :: cs => (false, cs)
  | cs => (false, cs)

/-- The nearest value a signed integer of `bits` bits can hold. -/
def clamp (bits : ℕ) (v : ℤ) : ℤ := max (-2 ^ (bits - 1)) (min v (2 ^ (bits - 1) - 1))

/-- `strtol(p, NULL, 10)` where a `long` has `bits` bits. -/
def strtol (bits : ℕ) (p : Text) : ℤ :=
  let s := splitSign (skipSpace p)
  clamp bits (if s.1 then -(readDigits s.2 0 : ℤ) else readDigits s.2 0)

/-- `atoi`: the `long` converted to a 32 bit `int`. -/
def atoi (bits : ℕ) (p : Text) : ℤ := (strtol bits p).bmod (2 ^ 32)

/-- What `%u` and, for a natural number, `%d` print. -/
def decimal (n : ℕ) : Text := (Nat.toDigits 10 n).map fun c => UInt8.ofNat c.toNat

end MqttFieldBridge.CLib
