import MqttFieldBridge.CLib.Decimal
import Mathlib.Algebra.Order.Field.Rat
import Mathlib.Tactic.Linarith
import Mathlib.Tactic.Positivity
import Mathlib.Tactic.Ring

/-! # Flat JSON objects and how they are written

A flat object has scalar members. `stringify` writes it as `JSON.stringify` does: no white space,
numbers as `Number::toString` prints them, strings with the shortest escapes and a surrogate without
its pair as `\u` and four digits.

A string is given by the bytes of its UTF-8 text; a surrogate without its pair has no such bytes and
is a unit of its own. -/

namespace MqttFieldBridge.Json

open MqttFieldBridge.CLib

/-- A unit of a string: a byte of its text, or the surrogate `0xD800 + u`. -/
inductive JsonChar where
  | byte (b : Byte)
  | surrogate (u : Fin 2048)
deriving DecidableEq

abbrev JsonString := List JsonChar

/-- The string with this text. -/
def plain (t : Text) : JsonString := t.map .byte

/-- A finite number, `±digits × 10 ^ exp`, in lowest terms. -/
structure JsonNumber where
  neg : Bool
  digits : ℕ
  exp : ℤ
  normal : if digits = 0 then neg = false ∧ exp = 0 else ¬ 10 ∣ digits
deriving DecidableEq

inductive JsonValue where
  | null
  | bool (b : Bool)
  | number (x : JsonNumber)
  | string (s : JsonString)
deriving DecidableEq

/-- A key and its value. -/
abbrev Member := JsonString × JsonValue

/-- A flat object. -/
structure JsonObject where
  members : List Member
  distinct : (members.map Prod.fst).Nodup

/-! ### Strings -/

/-- A hexadecimal digit. -/
def hexDigit (n : ℕ) : Byte := UInt8.ofNat (if n < 10 then 48 + n else 87 + n)

/-- `\u` and four digits. -/
def unicodeEscape (n : ℕ) : Text :=
  [92, 117, hexDigit (n / 4096 % 16), hexDigit (n / 256 % 16), hexDigit (n / 16 % 16),
    hexDigit (n % 16)]

/-- The letter that stands for a byte after a backslash, if it has one. -/
def escapeLetter (b : Byte) : Option Byte :=
  if b = 34 then some 34
  else if b = 92 then some 92
  else if b = 8 then some 98
  else if b = 12 then some 102
  else if b = 10 then some 110
  else if b = 13 then some 114
  else if b = 9 then some 116
  else none

def escapeByte (b : Byte) : Text :=
  match escapeLetter b with
  | some letter => [92, letter]
  | none => if b < 32 then unicodeEscape b.toNat else [b]

def escapeChar : JsonChar → Text
  | .byte b => escapeByte b
  | .surrogate u => unicodeEscape (0xD800 + u)

def escape (s : JsonString) : Text := s.flatMap escapeChar

/-- The string between its quotes. -/
def quoted (s : JsonString) : Text := 34 :: escape s ++ [34]

/-! ### Numbers -/

namespace JsonNumber

def value (x : JsonNumber) : ℚ := (if x.neg then -1 else 1) * x.digits * 10 ^ x.exp

/-- The digits of `digits` with the decimal point or the exponent that puts them in place. -/
def unsignedText (x : JsonNumber) : Text :=
  let ds := decimal x.digits
  let n : ℤ := ds.length + x.exp
  if ds.length ≤ n ∧ n ≤ 21 then ds ++ List.replicate x.exp.toNat 48
  else if 0 < n ∧ n ≤ 21 then ds.take n.toNat ++ str "." ++ ds.drop n.toNat
  else if -6 < n ∧ n ≤ 0 then str "0." ++ List.replicate (-n).toNat 48 ++ ds
  else
    (if ds.length = 1 then ds else ds.take 1 ++ str "." ++ ds.drop 1) ++ str "e" ++
      (if n - 1 > 0 then str "+" else str "-") ++ decimal (n - 1).natAbs

def text (x : JsonNumber) : Text := (if x.neg then str "-" else []) ++ x.unsignedText

end JsonNumber

/-! ### Objects -/

def valueText : JsonValue → Text
  | .null => str "null"
  | .bool true => str "true"
  | .bool false => str "false"
  | .number x => x.text
  | .string s => quoted s

/-- `"key":value` -/
def memberText (m : Member) : Text := quoted m.1 ++ 58 :: valueText m.2

/-- The members, with commas between them. -/
def membersText : List Member → Text
  | [] => []
  | [m] => memberText m
  | m :: ms => memberText m ++ 44 :: membersText ms

def stringify (o : JsonObject) : Text := 123 :: membersText o.members ++ [125]

/-! ### What the texts are made of -/

/-- No byte of the text is below `n`. -/
def Above (n : ℕ) (t : Text) : Prop := ∀ c ∈ t, n ≤ c.toNat

instance (n : ℕ) (t : Text) : Decidable (Above n t) := List.decidableBAll _ _

theorem Above.append {n : ℕ} {l r : Text} (hl : Above n l) (hr : Above n r) : Above n (l ++ r) :=
  fun c hc => (List.mem_append.mp hc).elim (hl c) (hr c)

theorem Above.mono {n k : ℕ} {t : Text} (h : Above n t) (hk : k ≤ n) : Above k t := fun c hc =>
  hk.trans (h c hc)

theorem hexDigit_ge {n : ℕ} (h : n < 16) : 48 ≤ (hexDigit n).toNat := by
  revert n
  decide

theorem above_unicodeEscape (n : ℕ) : Above 48 (unicodeEscape n) := by
  have hdigit : ∀ m : ℕ, 48 ≤ (hexDigit (m % 16)).toNat := fun m =>
    hexDigit_ge (Nat.mod_lt m (by decide))
  intro c hc
  simp only [unicodeEscape, List.mem_cons, List.not_mem_nil, or_false] at hc
  rcases hc with rfl | rfl | rfl | rfl | rfl | rfl
  · decide
  · decide
  all_goals exact hdigit _

/-- How a unit is written: as it is, or after a backslash. The byte after the backslash is the unit
itself only for the quote and the backslash. -/
inductive Escaped : JsonChar → Text → Prop
  | raw {b : Byte} (hquote : b ≠ 34) (hback : b ≠ 92) (h : 32 ≤ b.toNat) : Escaped (.byte b) [b]
  | quote : Escaped (.byte 34) [92, 34]
  | backslash : Escaped (.byte 92) [92, 92]
  | coded {u : JsonChar} {c : Byte} {r : Text} (hu : ∀ b, u = .byte b → b.toNat < 32)
    (hr : Above 48 (c :: r)) : Escaped u (92 :: c :: r)

theorem escaped_unicodeEscape {u : JsonChar} (hu : ∀ b, u = .byte b → b.toNat < 32) (n : ℕ) :
    Escaped u (unicodeEscape n) :=
  .coded hu fun b hb => above_unicodeEscape n b (List.mem_cons_of_mem _ hb)

/-- The quote and the backslash stand for themselves, a letter for a control character. -/
theorem escapeLetter_some {b letter : Byte} (h : escapeLetter b = some letter) :
    (b = 34 ∧ letter = 34) ∨ (b = 92 ∧ letter = 92) ∨ (b.toNat < 32 ∧ 48 ≤ letter.toNat) := by
  unfold escapeLetter at h
  split_ifs at h with h34 h92 h8 h12 h10 h13 h9
  · exact Or.inl ⟨h34, (Option.some.inj h).symm⟩
  · exact Or.inr (Or.inl ⟨h92, (Option.some.inj h).symm⟩)
  all_goals
    subst b
    obtain rfl := Option.some.inj h
    decide

theorem escapeLetter_none {b : Byte} (h : escapeLetter b = none) : b ≠ 34 ∧ b ≠ 92 := by
  refine ⟨fun e => ?_, fun e => ?_⟩
  · rw [e] at h
    exact absurd h (by decide)
  · rw [e] at h
    exact absurd h (by decide)

theorem escaped_escapeByte (b : Byte) : Escaped (.byte b) (escapeByte b) := by
  unfold escapeByte
  rcases hl : escapeLetter b with _ | letter
  · obtain ⟨h34, h92⟩ := escapeLetter_none hl
    dsimp only
    by_cases hlt : b < 32
    · rw [if_pos hlt]
      have hnat : b.toNat < 32 := UInt8.lt_iff_toNat_lt.mp hlt
      exact escaped_unicodeEscape (fun b' h => JsonChar.byte.inj h ▸ hnat) _
    · rw [if_neg hlt]
      have hnat : ¬ b.toNat < 32 := fun h => hlt (UInt8.lt_iff_toNat_lt.mpr h)
      exact .raw h34 h92 (by omega)
  · rcases escapeLetter_some hl with ⟨rfl, rfl⟩ | ⟨rfl, rfl⟩ | ⟨hb, hletter⟩
    · exact .quote
    · exact .backslash
    · exact .coded (fun b' h => JsonChar.byte.inj h ▸ hb) (by simpa [Above] using hletter)

theorem escaped_escapeChar : ∀ u : JsonChar, Escaped u (escapeChar u)
  | .byte b => escaped_escapeByte b
  | .surrogate _ => escaped_unicodeEscape (fun _ h => (by cases h)) _

theorem above_decimal (n : ℕ) : Above 43 (decimal n) := by
  intro c hc
  have hdigit := isdigit_bounds (isdigit_decimal c hc)
  omega

/-- A number is written with digits, a sign, a point and an exponent. -/
theorem above_text (x : JsonNumber) : Above 43 x.text := by
  have hzeros : ∀ k : ℕ, Above 43 (List.replicate k 48) := fun k c hc => by
    rw [List.eq_of_mem_replicate hc]
    decide
  have htake : ∀ n k : ℕ, Above 43 ((decimal n).take k) := fun n k c hc =>
    above_decimal n c (List.mem_of_mem_take hc)
  have hdrop : ∀ n k : ℕ, Above 43 ((decimal n).drop k) := fun n k c hc =>
    above_decimal n c (List.mem_of_mem_drop hc)
  have hpoint : ∀ n k k' : ℕ, Above 43 ((decimal n).take k ++ str "." ++ (decimal n).drop k') :=
    fun n k k' => ((htake n k).append (by decide)).append (hdrop n k')
  have hexponent : ∀ (l : Text) (s : String) (n : ℕ), Above 43 l → Above 43 (str s) →
      Above 43 (l ++ str "e" ++ str s ++ decimal n) := fun l s n hl hs =>
    ((hl.append (by decide)).append hs).append (above_decimal n)
  have hunsigned : Above 43 x.unsignedText := by
    unfold JsonNumber.unsignedText
    dsimp only
    split_ifs
    · exact (above_decimal _).append (hzeros _)
    · exact hpoint _ _ _
    · exact (Above.append (by decide) (hzeros _)).append (above_decimal _)
    · exact hexponent _ _ _ (above_decimal _) (by decide)
    · exact hexponent _ _ _ (above_decimal _) (by decide)
    · exact hexponent _ _ _ (hpoint _ _ _) (by decide)
    · exact hexponent _ _ _ (hpoint _ _ _) (by decide)
  refine Above.append ?_ hunsigned
  split_ifs
  · decide
  · decide

/-- No quote is in a number. -/
theorem quote_notMem_text (x : JsonNumber) : 34 ∉ x.text := fun h =>
  absurd (above_text x 34 h) (by decide)

/-! ### The text is a C string -/

theorem above_escapeChar (u : JsonChar) : Above 32 (escapeChar u) := by
  have hesc := escaped_escapeChar u
  generalize escapeChar u = e at hesc
  cases hesc with
  | raw hquote hback h => simpa [Above] using h
  | quote => decide
  | backslash => decide
  | coded hu hr => exact Above.append (l := [92]) (by decide) (hr.mono (by decide))

theorem above_quoted (s : JsonString) : Above 32 (quoted s) := by
  have hescape : Above 32 (escape s) := by
    intro c hc
    obtain ⟨u, -, hu⟩ := List.mem_flatMap.mp hc
    exact above_escapeChar u c hu
  have hquote : Above 32 [34] := by decide
  exact (hquote.append hescape).append hquote

theorem above_valueText (v : JsonValue) : Above 32 (valueText v) := by
  cases v with
  | null => decide
  | bool b =>
    cases b with
    | true => decide
    | false => decide
  | number x => exact (above_text x).mono (by decide)
  | string s => exact above_quoted s

theorem above_memberText (m : Member) : Above 32 (memberText m) := by
  have hcolon : Above 32 [58] := by decide
  exact (above_quoted m.1).append (hcolon.append (above_valueText m.2))

theorem above_membersText : ∀ ms : List Member, Above 32 (membersText ms)
  | [] => fun c hc => (by cases hc)
  | [m] => above_memberText m
  | m :: m' :: ms => by
    have hcomma : Above 32 [44] := by decide
    exact (above_memberText m).append (hcomma.append (above_membersText (m' :: ms)))

/-- **No NUL is in the text of an object**, nor any other control character. -/
theorem above_stringify (o : JsonObject) : Above 32 (stringify o) := by
  have hopen : Above 32 [123] := by decide
  have hclose : Above 32 [125] := by decide
  exact (hopen.append (above_membersText o.members)).append hclose

theorem cstr_stringify (o : JsonObject) : cstr (stringify o) = stringify o :=
  cstr_of_notMem fun h => absurd (above_stringify o 0 h) (by decide)

/-! ### The text of an integer -/

/-- A factor of ten is a zero at the end. -/
theorem decimal_mul_pow {m : ℕ} (hm : 0 < m) (e : ℕ) :
    decimal (m * 10 ^ e) = decimal m ++ List.replicate e 48 := by
  induction e with
  | zero => simp
  | succ e ih =>
    have hpos : 0 < m * 10 ^ e := Nat.mul_pos hm (Nat.pow_pos (by decide))
    have hstep : decimal (m * 10 ^ (e + 1)) = decimal (m * 10 ^ e) ++ [48] := by
      have happend := Nat.toDigits_append_toDigits (b := 10) (d := 0) (by decide) hpos (by decide)
      have hmul : 10 * (m * 10 ^ e) + 0 = m * 10 ^ (e + 1) := by ring
      rw [hmul] at happend
      rw [decimal, ← happend, List.map_append]
      rfl
    rw [hstep, ih, List.append_assoc, List.replicate_succ']

/-- A number that is a natural number has no negative exponent. -/
theorem digits_of_value {x : JsonNumber} {n : ℕ} (h : x.value = n) (hx : x.digits ≠ 0) :
    x.neg = false ∧ 0 ≤ x.exp ∧ n = x.digits * 10 ^ x.exp.toNat := by
  have hnormal := x.normal
  rw [if_neg hx] at hnormal
  have hdigits : (0 : ℚ) < x.digits := by exact_mod_cast Nat.pos_of_ne_zero hx
  have hpow : (0 : ℚ) < 10 ^ x.exp := zpow_pos (by norm_num) _
  have hneg : x.neg = false := by
    by_contra hneg
    rw [Bool.not_eq_false] at hneg
    have hlt : x.value < 0 := by
      rw [JsonNumber.value, if_pos hneg]
      have := mul_pos hdigits hpow
      linarith
    have hn : (0 : ℚ) ≤ n := Nat.cast_nonneg n
    rw [h] at hlt
    exact absurd hlt (not_lt.mpr hn)
  have hval : (x.digits : ℚ) * 10 ^ x.exp = n := by
    rw [← h, JsonNumber.value, hneg]
    simp
  have hexp : 0 ≤ x.exp := by
    by_contra hlt
    obtain ⟨k, hk⟩ : ∃ k : ℕ, x.exp = -(k + 1 : ℕ) :=
      ⟨(-x.exp - 1).toNat, by omega⟩
    have hmul : (x.digits : ℚ) = n * 10 ^ (k + 1) := by
      rw [← hval, hk, zpow_neg, zpow_natCast, mul_assoc, inv_mul_cancel₀ (by positivity), mul_one]
    have hnat : x.digits = n * 10 ^ (k + 1) := by exact_mod_cast hmul
    exact hnormal ⟨n * 10 ^ k, by rw [hnat, pow_succ]; ring⟩
  refine ⟨hneg, hexp, ?_⟩
  have hcast : (x.digits : ℚ) * 10 ^ x.exp.toNat = n := by
    rw [← hval, ← zpow_natCast, Int.toNat_of_nonneg hexp]
  exact_mod_cast hcast.symm

/-- **A natural number is written as its digits.** -/
theorem text_of_value {x : JsonNumber} {n : ℕ} (h : x.value = n) (hn : n < 10 ^ 21) :
    x.text = decimal n := by
  by_cases hx : x.digits = 0
  · have hnormal := x.normal
    rw [if_pos hx] at hnormal
    obtain ⟨hneg, hexp⟩ := hnormal
    have hzero : n = 0 := by
      have hval : x.value = 0 := by simp [JsonNumber.value, hx]
      rw [h] at hval
      exact_mod_cast hval
    rw [JsonNumber.text, JsonNumber.unsignedText, hneg, hx, hexp, hzero]
    rfl
  · obtain ⟨hneg, hexp, hval⟩ := digits_of_value h hx
    have htext : decimal n = decimal x.digits ++ List.replicate x.exp.toNat 48 := by
      rw [hval]
      exact decimal_mul_pow (Nat.pos_of_ne_zero hx) _
    have hlen : (decimal n).length ≤ 21 := by
      rw [decimal, List.length_map]
      exact (Nat.length_toDigits_le_iff (by decide) (by decide)).mpr hn
    have hpoint : ((decimal x.digits).length : ℤ) ≤ (decimal x.digits).length + x.exp ∧
        ((decimal x.digits).length : ℤ) + x.exp ≤ 21 := by
      rw [htext, List.length_append, List.length_replicate] at hlen
      omega
    rw [JsonNumber.text, JsonNumber.unsignedText, hneg, htext]
    simp only [Bool.false_eq_true, if_false, List.nil_append, if_pos hpoint]

end MqttFieldBridge.Json
