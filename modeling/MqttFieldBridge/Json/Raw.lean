import MqttFieldBridge.Json.Search
import Mathlib.Algebra.Group.Action.Defs
import Mathlib.Algebra.Order.BigOperators.Group.List

/-! # Objects whose strings are printed as they are

A program that prints an object with `%s` and `%u` escapes nothing. If no string holds a quote, a
quoted key still stands only where the key is a member or a string is the key, so a search finds the
member (`strstr_rawObject`). -/

namespace MqttFieldBridge.Json

open MqttFieldBridge.CLib

inductive RawValue where
  | string (t : Text)
  | number (n : ℕ)
deriving DecidableEq

/-- A key and its value. -/
abbrev RawMember := Text × RawValue

def RawValue.text : RawValue → Text
  | .string t => 34 :: (t ++ [34])
  | .number n => decimal n

theorem RawValue.of_string {P : Text → Prop} {t : Text} (h : P t) (t' : Text)
    (he : RawValue.string t = .string t') : P t' :=
  RawValue.string.inj he ▸ h

/-- A number holds no string. -/
theorem RawValue.of_number {P : Text → Prop} {n : ℕ} (t : Text)
    (he : RawValue.number n = .string t) : P t := by
  cases he

/-- `"key":value` -/
def rawMemberText (m : RawMember) : Text := 34 :: (m.1 ++ [34]) ++ 58 :: m.2.text

/-- The members between braces, with commas between them. -/
def rawObject (ms : List RawMember) : Text :=
  123 :: List.intercalate [44] (ms.map rawMemberText) ++ [125]

/-- Objects between brackets, with commas between them. -/
def rawArray (os : List (List RawMember)) : Text :=
  91 :: List.intercalate [44] (os.map rawObject) ++ [93]

/-! ### Searching -/

/-- The member holds no quote, and the key only inside a longer text. -/
structure Apart (k : Text) (m : RawMember) : Prop where
  key : m.1 ≠ k
  noQuote : 34 ∉ m.1
  value : ∀ t, m.2 = .string t → t ≠ k ∧ 34 ∉ t

variable {k t b : Text}

/-- What stands before the first quote is the key only if the whole text is. -/
theorem key_prefix_raw (hk : KeyText k) (ht : 34 ∉ t) : k ++ [34] <+: t ++ 34 :: b ↔ t = k := by
  have hk34 : 34 ∉ k := fun h => absurd (hk.letters 34 h) (by decide)
  constructor
  · rintro ⟨r, hr⟩
    have hcut := congrArg (List.takeWhile (· ≠ 34)) hr
    have hcutk : (k ++ [34] ++ r).takeWhile (· ≠ 34) = k := by
      rw [List.append_assoc, List.takeWhile_append_of_pos]
      · simp
      · intro c hc
        exact decide_eq_true fun h => hk34 (h ▸ hc)
    have hcutt : (t ++ 34 :: b).takeWhile (· ≠ 34) = t := by
      rw [List.takeWhile_append_of_pos]
      · simp
      · intro c hc
        exact decide_eq_true fun h => ht (h ▸ hc)
    rw [hcutk, hcutt] at hcut
    exact hcut.symm
  · rintro rfl
    exact ⟨b, by simp⟩

theorem passes_raw (hk : KeyText k) (hb : Ends b) (ht : 34 ∉ t) (hne : t ≠ k) :
    Passes (34 :: (k ++ [34])) (34 :: (t ++ [34])) b := by
  have hopen : ¬ 34 :: (k ++ [34]) <+: 34 :: ((t ++ [34]) ++ b) := fun hp => by
    have hkey := (List.cons_prefix_cons.mp hp).2
    rw [List.append_assoc, List.singleton_append, key_prefix_raw hk ht] at hkey
    exact hne hkey
  have hclose : Passes (34 :: (k ++ [34])) [34] b := passes_cons (fun hp =>
    not_key_prefix_of_ends hk hb (List.cons_prefix_cons.mp hp).2) passes_nil
  exact passes_cons hopen (passes_append (passes_of_notMem ht) hclose)

theorem quote_notMem_decimal (n : ℕ) : 34 ∉ decimal n := fun h =>
  absurd (above_decimal n 34 h) (by decide)

/-- A member with another key, and its comma. -/
theorem passes_rawMember (hk : KeyText k) {m : RawMember} (h : Apart k m) :
    Passes (34 :: (k ++ [34])) (rawMemberText m ++ [44]) b := by
  have hcomma : Passes (34 :: (k ++ [34])) [44] b := passes_of_notMem (by decide)
  have hvalue : Passes (34 :: (k ++ [34])) m.2.text ([44] ++ b) := by
    rcases hv : m.2 with t | n
    · obtain ⟨hne, ht⟩ := h.value t hv
      exact passes_raw hk (Or.inr (Or.inl rfl)) ht hne
    · exact passes_of_notMem (quote_notMem_decimal n)
  have hcolon : Passes (34 :: (k ++ [34])) (58 :: m.2.text) ([44] ++ b) :=
    passes_cons (fun hp => absurd (List.cons_prefix_cons.mp hp).1 (by decide)) hvalue
  have hname : Passes (34 :: (k ++ [34])) (34 :: (m.1 ++ [34])) (58 :: m.2.text ++ ([44] ++ b)) :=
    passes_raw hk (Or.inl rfl) h.noQuote h.key
  exact passes_append (passes_append hname hcolon) hcomma

/-- **A search finds the member** if the members before it have other keys and other strings. -/
theorem strstr_rawObject (hk : KeyText k) {before after : List RawMember} {v : RawValue}
    (h : ∀ m ∈ before, Apart k m) :
    ∃ rest, strstr (rawObject (before ++ (k, v) :: after)) (34 :: (k ++ [34])) =
      some (34 :: (k ++ [34]) ++ 58 :: (v.text ++ rest)) ∧
        (rest.head? = some 44 ∨ rest.head? = some 125) := by
  obtain ⟨rest, htext, hrest⟩ := intercalate_split (rawMemberText (k, v)) (after.map rawMemberText)
    (before.map rawMemberText)
  refine ⟨rest, ?_, hrest⟩
  have hbefore : ∀ ms : List RawMember, (∀ m ∈ ms, Apart k m) → ∀ b,
      Passes (34 :: (k ++ [34])) ((ms.map rawMemberText).flatMap (· ++ [44])) b := by
    intro ms
    induction ms with
    | nil => exact fun _ b => passes_nil
    | cons m ms ih =>
      intro hms b
      rw [List.map_cons, List.flatMap_cons]
      exact passes_append (passes_rawMember hk (hms m List.mem_cons_self))
        (ih (fun m' hm' => hms m' (List.mem_cons_of_mem m hm')) b)
  have hopen : Passes (34 :: (k ++ [34]))
      (123 :: (before.map rawMemberText).flatMap (· ++ [44])) (rawMemberText (k, v) ++ rest) :=
    passes_cons (fun hp => absurd (List.cons_prefix_cons.mp hp).1 (by decide)) (hbefore before h _)
  have hobject : rawObject (before ++ (k, v) :: after) =
      (123 :: (before.map rawMemberText).flatMap (· ++ [44])) ++ (rawMemberText (k, v) ++ rest) := by
    rw [rawObject, List.map_append, List.map_cons, List.cons_append, htext, List.cons_append]
  have hmember : rawMemberText (k, v) ++ rest = 34 :: (k ++ [34]) ++ 58 :: (v.text ++ rest) := by
    simp [rawMemberText]
  rw [hobject, strstr_of_passes hopen, hmember]
  exact strstr_of_prefix ⟨_, rfl⟩

/-! ### Texts without NUL -/

theorem mem_intercalate {c : Byte} : ∀ {l : List Text}, c ∈ List.intercalate [44] l →
    c = 44 ∨ ∃ t ∈ l, c ∈ t
  | [], h => absurd h (by simp)
  | [t], h => Or.inr ⟨t, List.mem_cons_self, by simpa using h⟩
  | t :: t' :: l, h => by
    rw [List.intercalate_cons_cons, List.mem_append, List.mem_append] at h
    rcases h with (h | h) | h
    · exact Or.inr ⟨t, List.mem_cons_self, h⟩
    · exact Or.inl (List.mem_singleton.mp h)
    · rcases mem_intercalate h with h | ⟨u, hu, h⟩
      · exact Or.inl h
      · exact Or.inr ⟨u, List.mem_cons_of_mem t hu, h⟩

/-- The member's key and its string, if it is one, hold no NUL. -/
def NulFree (m : RawMember) : Prop := 0 ∉ m.1 ∧ ∀ t, m.2 = .string t → 0 ∉ t

theorem zero_notMem_rawMember {m : RawMember} (h : NulFree m) : 0 ∉ rawMemberText m := by
  have hvalue : 0 ∉ m.2.text := by
    rcases hv : m.2 with t | n
    · simpa [RawValue.text] using h.2 t hv
    · exact fun h0 => absurd (above_decimal n 0 h0) (by decide)
  simp [rawMemberText, h.1, hvalue]

theorem zero_notMem_rawObject {ms : List RawMember} (h : ∀ m ∈ ms, NulFree m) :
    0 ∉ rawObject ms := by
  have hmembers : 0 ∉ List.intercalate [44] (ms.map rawMemberText) := by
    intro h0
    rcases mem_intercalate h0 with h0 | ⟨t, ht, h0⟩
    · exact absurd h0 (by decide)
    · obtain ⟨m, hm, rfl⟩ := List.mem_map.mp ht
      exact zero_notMem_rawMember (h m hm) h0
  simp [rawObject, hmembers]

theorem zero_notMem_rawArray {os : List (List RawMember)} (h : ∀ ms ∈ os, ∀ m ∈ ms, NulFree m) :
    0 ∉ rawArray os := by
  have hobjects : 0 ∉ List.intercalate [44] (os.map rawObject) := by
    intro h0
    rcases mem_intercalate h0 with h0 | ⟨t, ht, h0⟩
    · exact absurd h0 (by decide)
    · obtain ⟨ms, hms, rfl⟩ := List.mem_map.mp ht
      exact zero_notMem_rawObject (h ms hms) h0
  simp [rawArray, hobjects]

/-! ### Lengths -/

theorem length_intercalate_le : ∀ l : List Text,
    (List.intercalate [44] l).length ≤ (l.map fun t => t.length + 1).sum
  | [] => by simp
  | [t] => by simp
  | t :: t' :: l => by
    have hrest := length_intercalate_le (t' :: l)
    rw [List.intercalate_cons_cons, List.map_cons, List.sum_cons, List.length_append,
      List.length_append, List.length_singleton]
    omega

/-- No sum exceeds the largest summand as often as there are summands. -/
theorem sum_map_le {α : Type} {f : α → ℕ} {l : List α} {n : ℕ} (h : ∀ a ∈ l, f a ≤ n) :
    (l.map f).sum ≤ l.length * n := by
  have hsum : (l.map f).sum ≤ (l.map f).length • n := by
    refine List.sum_le_card_nsmul _ _ fun k hk => ?_
    obtain ⟨a, ha, rfl⟩ := List.mem_map.mp hk
    exact h a ha
  rwa [List.length_map, smul_eq_mul] at hsum

/-- An object whose keys take at most `k` bytes each, and whose values at most `v`. -/
theorem length_rawObject_le {ms : List RawMember} {k v : ℕ} (hk : ∀ m ∈ ms, m.1.length ≤ k)
    (hv : ∀ m ∈ ms, m.2.text.length ≤ v) : (rawObject ms).length ≤ ms.length * (k + v + 4) + 2 := by
  have hmembers := length_intercalate_le (ms.map rawMemberText)
  have hsum : ((ms.map rawMemberText).map fun t => t.length + 1).sum ≤
      (ms.map rawMemberText).length * (k + v + 4) := by
    refine sum_map_le fun t ht => ?_
    obtain ⟨m, hm, rfl⟩ := List.mem_map.mp ht
    have h1 := hk m hm
    have h2 := hv m hm
    simp only [rawMemberText, List.length_append, List.length_cons, List.length_nil]
    omega
  rw [List.length_map] at hsum
  unfold rawObject
  simp only [List.length_append, List.length_cons, List.length_nil]
  omega

/-- An array of objects that take at most `n` bytes each. -/
theorem length_rawArray_le {os : List (List RawMember)} {n : ℕ}
    (h : ∀ ms ∈ os, (rawObject ms).length ≤ n) :
    (rawArray os).length ≤ os.length * (n + 1) + 2 := by
  have hobjects := length_intercalate_le (os.map rawObject)
  have hsum : ((os.map rawObject).map fun t => t.length + 1).sum ≤
      (os.map rawObject).length * (n + 1) := by
    refine sum_map_le fun t ht => ?_
    obtain ⟨ms, hms, rfl⟩ := List.mem_map.mp ht
    exact Nat.succ_le_succ (h ms hms)
  rw [List.length_map] at hsum
  unfold rawArray
  simp only [List.length_append, List.length_cons, List.length_nil]
  omega

theorem length_decimal_le {n k : ℕ} (hk : 0 < k) (h : n < 10 ^ k) : (decimal n).length ≤ k := by
  rw [decimal, List.length_map]
  exact (Nat.length_toDigits_le_iff (by decide) hk).mpr h

theorem length_string (t : Text) : (RawValue.string t).text.length = t.length + 2 := by
  simp [RawValue.text]

end MqttFieldBridge.Json
