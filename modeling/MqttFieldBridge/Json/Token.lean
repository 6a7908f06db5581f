import MqttFieldBridge.Json.Parse

/-! # The tokens of JSON

The grammar of RFC 8259, as predicates on texts. Nothing is read: a string may spell a lone surrogate
and a number may be of any size. What the parser reads is a token (`token_of_readValue`).

Of a number, `strtol` reads the integer and its sign, whatever stands behind it
(`strtol_numberText`). -/

namespace MqttFieldBridge.Json

open MqttFieldBridge.CLib

/-! ### Numbers -/

/-- What stands behind the point of a number. -/
structure Fraction where
  digits : Text
  numeral : Numeral digits

/-- The exponent of a number, as it is written. -/
structure Exponent where
  letter : Byte
  sign : Text
  digits : Text
  letter_eq : letter = 101 ∨ letter = 69
  sign_eq : sign = [] ∨ sign = [43] ∨ sign = [45]
  numeral : Numeral digits

/-- A number, as it is written. -/
structure NumberText where
  neg : Bool
  int : ℕ
  fraction : Option Fraction
  exponent : Option Exponent

namespace NumberText

/-- What stands behind the integer. -/
def tail (x : NumberText) : Text :=
  (x.fraction.elim [] fun f => 46 :: f.digits) ++
    x.exponent.elim [] fun e => e.letter :: (e.sign ++ e.digits)

def text (x : NumberText) : Text := (if x.neg then [45] else []) ++ (decimal x.int ++ x.tail)

/-- The integer with its sign. -/
def signed (x : NumberText) : ℤ := if x.neg then -x.int else x.int

/-- There is nothing behind the integer. -/
def IsInteger (x : NumberText) : Prop := x.fraction = none ∧ x.exponent = none

end NumberText

variable {x : NumberText} {r t v : Text}

/-- A number that goes on does so with a point or the letter of the exponent. -/
theorem tail_cases (x : NumberText) : (x.IsInteger ∧ x.tail = []) ∨
    (¬ x.IsInteger ∧ ∃ c t, x.tail = c :: t ∧ isdigit c = false) := by
  obtain ⟨neg, int, fraction, exponent⟩ := x
  cases fraction with
  | some f => exact Or.inr ⟨fun h => (by cases h.1), 46, _, rfl, rfl⟩
  | none =>
    cases exponent with
    | some e =>
      refine Or.inr ⟨fun h => (by cases h.2), e.letter, _, rfl, ?_⟩
      rcases e.letter_eq with h | h <;>
        · rw [h]
          rfl
    | none => exact Or.inl ⟨⟨rfl, rfl⟩, rfl⟩

theorem noDigit_tail (x : NumberText) (hr : NoDigit r) : NoDigit (x.tail ++ r) := by
  rcases tail_cases x with ⟨-, htail⟩ | ⟨-, c, t, htail, hc⟩
  · rw [htail]
    exact hr
  · rw [htail]
    intro d hd
    rw [← Option.some.inj hd]
    exact hc

/-- A sign or a digit comes first. -/
theorem text_cases (x : NumberText) :
    (x.neg = true ∧ x.text = 45 :: (decimal x.int ++ x.tail)) ∨
      (x.neg = false ∧ x.text = decimal x.int ++ x.tail) := by
  unfold NumberText.text
  cases x.neg with
  | true => exact Or.inl ⟨rfl, rfl⟩
  | false => exact Or.inr ⟨rfl, rfl⟩

theorem splitSign_text (x : NumberText) (r : Text) :
    splitSign (skipSpace (x.text ++ r)) = (x.neg, decimal x.int ++ (x.tail ++ r)) := by
  rcases text_cases x with ⟨hneg, htext⟩ | ⟨hneg, htext⟩
  · rw [htext, hneg, List.cons_append, List.append_assoc]
    rfl
  · obtain ⟨c, cs, hc⟩ := List.exists_cons_of_ne_nil (@decimal_ne_nil x.int)
    have hdigit : isdigit c = true := isdigit_decimal c (hc ▸ List.mem_cons_self)
    rw [htext, hneg, List.append_assoc, hc, List.cons_append]
    exact splitSign_digit hdigit _

/-- **Of a number `strtol` reads the integer.** -/
theorem strtol_numberText {bits : ℕ} (hr : NoDigit r) :
    strtol bits (x.text ++ r) = clamp bits x.signed := by
  unfold strtol
  rw [splitSign_text]
  dsimp only
  rw [readDigits_decimal (noDigit_tail x hr)]
  rfl

/-- A text spells one integer. -/
theorem signed_of_text {y : NumberText} (h : x.text = y.text) : x.signed = y.signed := by
  have hx := splitSign_text x []
  rw [h, splitSign_text y []] at hx
  obtain ⟨hneg, hdigits⟩ := Prod.mk.inj hx
  have hint := congrArg (readDigits · 0) hdigits
  rw [readDigits_decimal (noDigit_tail y noDigit_nil), readDigits_decimal (noDigit_tail x noDigit_nil)]
    at hint
  rw [NumberText.signed, NumberText.signed, hneg, hint]

/-- Only an integer is written as its digits. -/
theorem text_eq_decimal_iff {n : ℕ} :
    x.text = decimal n ↔ x.neg = false ∧ x.int = n ∧ x.IsInteger := by
  have hdigits : ∀ c ∈ decimal n, isdigit c = true := isdigit_decimal
  rcases text_cases x with ⟨hneg, htext⟩ | ⟨hneg, htext⟩
  · refine iff_of_false (fun h => ?_) fun h => (by rw [hneg] at h; cases h.1)
    have h45 : (45 : Byte) ∈ decimal n := by rw [← h, htext]; exact List.mem_cons_self
    exact absurd (hdigits 45 h45) (by decide)
  · rcases tail_cases x with ⟨hint, htail⟩ | ⟨hint, c, t, htail, hc⟩
    · rw [htext, htail, List.append_nil]
      constructor
      · intro h
        have hval := congrArg numeralValue h
        rw [numeralValue_decimal, numeralValue_decimal] at hval
        exact ⟨hneg, hval, hint⟩
      · rintro ⟨-, h, -⟩
        rw [h]
    · refine iff_of_false (fun h => ?_) fun h => hint h.2.2
      have hmem : c ∈ decimal n := by
        rw [← h, htext, htail]
        exact List.mem_append_right _ List.mem_cons_self
      rw [hdigits c hmem] at hc
      cases hc

/-! ### Values -/

/-- White space between tokens. -/
def Blank (t : Text) : Prop := ∀ c ∈ t, isBlank c = true

/-- What may stand between the quotes of a string. -/
inductive StringBody : Text → Prop where
  | nil : StringBody []
  | raw {b : Byte} {t : Text} (hcontrol : 32 ≤ b.toNat) (hquote : b ≠ 34) (hback : b ≠ 92)
    (ht : StringBody t) : StringBody (b :: t)
  | letter {b : Byte} {t : Text} (hb : letterValue b ≠ none) (ht : StringBody t) :
    StringBody (92 :: b :: t)
  | unicode {e t : Text} (hlen : e.length = 4) (he : ∀ c ∈ e, hexValue c ≠ none)
    (ht : StringBody t) : StringBody (92 :: 117 :: (e ++ t))

mutual

/-- The text of a value. -/
inductive Token : Text → Prop where
  | null : Token (str "null")
  | bool (b : Bool) : Token (if b then str "true" else str "false")
  | number (x : NumberText) : Token x.text
  | string {t : Text} (ht : StringBody t) : Token (34 :: (t ++ [34]))
  | emptyArray {b : Text} (hb : Blank b) : Token (91 :: (b ++ [93]))
  | array {t : Text} (ht : Elements t) : Token (91 :: (t ++ [93]))
  | emptyObject {b : Text} (hb : Blank b) : Token (123 :: (b ++ [125]))
  | object {t : Text} (ht : Pairs t) : Token (123 :: (t ++ [125]))

/-- A value with the white space around it. -/
inductive Element : Text → Prop where
  | mk {b v b' : Text} (hb : Blank b) (hv : Token v) (hb' : Blank b') : Element (b ++ (v ++ b'))

/-- Values with commas between them. -/
inductive Elements : Text → Prop where
  | one {t : Text} (ht : Element t) : Elements t
  | cons {t t' : Text} (ht : Element t) (ht' : Elements t') : Elements (t ++ 44 :: t')

/-- A name, a colon and a value. -/
inductive Pair : Text → Prop where
  | mk {b k b' t : Text} (hb : Blank b) (hk : StringBody k) (hb' : Blank b') (ht : Element t) :
    Pair (b ++ 34 :: (k ++ 34 :: (b' ++ 58 :: t)))

/-- Such pairs with commas between them. -/
inductive Pairs : Text → Prop where
  | one {t : Text} (ht : Pair t) : Pairs t
  | cons {t t' : Text} (ht : Pair t) (ht' : Pairs t') : Pairs (t ++ 44 :: t')

end

/-- The token ends here: a number does not go on. -/
def Complete (v r : Text) : Prop := (∃ x : NumberText, v = x.text) → NoDigit r

/-- A token is a boolean, a number, or begins with a quote, a bracket, a brace or the `n` of `null`. -/
theorem Token.kinds (h : Token v) : (∃ b : Bool, v = if b then str "true" else str "false") ∨
    (∃ x : NumberText, v = x.text) ∨
      ∃ c t, v = c :: t ∧ (c = 34 ∨ c = 91 ∨ c = 123 ∨ c = 110) := by
  cases h with
  | null => exact Or.inr (Or.inr ⟨110, _, rfl, by decide⟩)
  | bool b => exact Or.inl ⟨b, rfl⟩
  | number x => exact Or.inr (Or.inl ⟨x, rfl⟩)
  | string => exact Or.inr (Or.inr ⟨34, _, rfl, by decide⟩)
  | emptyArray => exact Or.inr (Or.inr ⟨91, _, rfl, by decide⟩)
  | array => exact Or.inr (Or.inr ⟨91, _, rfl, by decide⟩)
  | emptyObject => exact Or.inr (Or.inr ⟨123, _, rfl, by decide⟩)
  | object => exact Or.inr (Or.inr ⟨123, _, rfl, by decide⟩)

/-! ### What the parser reads -/

theorem blank_split (p : Text) : ∃ b, Blank b ∧ p = b ++ skipBlank p :=
  ⟨p.takeWhile isBlank, fun _ hc => List.mem_takeWhile_imp hc, List.takeWhile_append_dropWhile.symm⟩

theorem body_of_readUnicode {p : Text} {c : Char} (h : readUnicode p = some (c, r)) :
    ∃ e, p = e ++ r ∧ StringBody (92 :: 117 :: e) := by
  unfold readUnicode at h
  split at h
  · cases h
  · rename_i u r₁ hu
    obtain ⟨e, rfl, hlen, he⟩ := readHex_eq_some hu
    split_ifs at h
    · split at h
      · split at h
        · cases h
        · rename_i r₂ l r₃ hl
          obtain ⟨e', rfl, hlen', he'⟩ := readHex_eq_some hl
          split_ifs at h
          obtain ⟨-, rfl⟩ := Prod.mk.inj (Option.some.inj h)
          have hlow := StringBody.unicode hlen' he' .nil
          refine ⟨e ++ 92 :: 117 :: (e' ++ []), by simp, .unicode hlen he hlow⟩
      · cases h
    · obtain ⟨-, rfl⟩ := Prod.mk.inj (Option.some.inj h)
      refine ⟨e ++ [], by rw [List.append_nil], .unicode hlen he .nil⟩

theorem body_of_readEscape {p : Text} {c : Char} (h : readEscape p = some (c, r)) :
    ∃ e, p = e ++ r ∧ StringBody (92 :: e) := by
  unfold readEscape at h
  split at h
  · cases h
  · rename_i b p
    split_ifs at h with hb
    · obtain ⟨e, rfl, hbody⟩ := body_of_readUnicode h
      exact ⟨b :: e, rfl, hb ▸ hbody⟩
    · obtain ⟨n, hn, he⟩ := Option.map_eq_some_iff.mp h
      obtain ⟨-, rfl⟩ := Prod.mk.inj he
      exact ⟨[b], rfl, .letter (by rw [hn]; exact Option.some_ne_none n) .nil⟩

theorem StringBody.append {t' : Text} (h : StringBody t) (h' : StringBody t') :
    StringBody (t ++ t') := by
  induction h with
  | nil => exact h'
  | raw hcontrol hquote hback _ ih => exact .raw hcontrol hquote hback ih
  | letter hb _ ih => exact .letter hb ih
  | unicode hlen he _ ih =>
    rw [List.cons_append, List.cons_append, List.append_assoc]
    exact .unicode hlen he ih

theorem body_of_bytes : ∀ {t : Text}, (∀ b ∈ t, b ≠ 34 ∧ b ≠ 92 ∧ 32 ≤ b.toNat) → StringBody t
  | [], _ => .nil
  | b :: t, h => by
    obtain ⟨⟨hquote, hback, hcontrol⟩, ht⟩ := List.forall_mem_cons.mp h
    exact .raw hcontrol hquote hback (body_of_bytes ht)

theorem body_of_readItem {p : Text} {c : Char} (hp : p.head? ≠ some 34)
    (h : readItem p = some (c, r)) : ∃ e, p = e ++ r ∧ StringBody e := by
  by_cases hback : p.head? = some 92
  · rw [readItem, if_pos hback] at h
    obtain ⟨e, htail, hbody⟩ := body_of_readEscape h
    refine ⟨92 :: e, ?_, hbody⟩
    rw [List.cons_append, ← htail]
    exact (List.cons_head?_tail hback).symm
  · obtain ⟨raw, rfl, hitem⟩ := readItem_eq_some hp h
    refine ⟨raw, rfl, ?_⟩
    cases hitem with
    | plain hc => exact body_of_bytes hc.bytes
    | escape => exact absurd rfl hback

theorem body_of_readString : ∀ {n : ℕ} {p r : Text} {s : List Char},
    readString n p = some (s, r) → ∃ t, p = t ++ 34 :: r ∧ StringBody t
  | 0, _, _, _, h => by cases h
  | n + 1, p, r, s, h => by
    unfold readString at h
    split_ifs at h with hquote
    · obtain ⟨-, rfl⟩ := Prod.mk.inj (Option.some.inj h)
      exact ⟨[], (List.cons_head?_tail hquote).symm, .nil⟩
    · obtain ⟨⟨c, r'⟩, hitem, h⟩ := Option.bind_eq_some_iff.mp h
      obtain ⟨⟨s', r''⟩, hrest, he⟩ := Option.map_eq_some_iff.mp h
      obtain ⟨-, rfl⟩ := Prod.mk.inj he
      obtain ⟨e, rfl, hbody⟩ := body_of_readItem hquote hitem
      obtain ⟨t, ht, htbody⟩ := body_of_readString hrest
      dsimp only at ht
      exact ⟨e ++ t, by rw [ht, List.append_assoc], hbody.append htbody⟩

theorem numeral_takeWhile {p : Text} (h : p.takeWhile isdigit ≠ []) : Numeral (p.takeWhile isdigit) :=
  ⟨h, fun _ hc => List.mem_takeWhile_imp hc⟩

theorem readFraction_eq_some {p ds : Text} (h : readFraction p = some (ds, r)) :
    ∃ f : Option Fraction, p = (f.elim [] fun f => 46 :: f.digits) ++ r := by
  unfold readFraction at h
  split at h
  · split_ifs at h with hd
    obtain ⟨-, rfl⟩ := Prod.mk.inj (Option.some.inj h)
    refine ⟨some ⟨_, numeral_takeWhile hd⟩, ?_⟩
    exact congrArg (List.cons 46) List.takeWhile_append_dropWhile.symm
  · obtain ⟨-, rfl⟩ := Prod.mk.inj (Option.some.inj h)
    exact ⟨none, rfl⟩

theorem readSign_split (p : Text) : ∃ s, (s = [] ∨ s = [43] ∨ s = [45]) ∧ p = s ++ (readSign p).2 := by
  unfold readSign
  split
  · exact ⟨[43], Or.inr (Or.inl rfl), rfl⟩
  · exact ⟨[45], Or.inr (Or.inr rfl), rfl⟩
  · exact ⟨[], Or.inl rfl, rfl⟩

theorem readExponent_eq_some {p : Text} {e : ℤ} (h : readExponent p = some (e, r)) :
    ∃ o : Option Exponent, p = (o.elim [] fun e => e.letter :: (e.sign ++ e.digits)) ++ r := by
  unfold readExponent at h
  by_cases hletter : p.head? = some 101 ∨ p.head? = some 69
  · rw [if_pos hletter] at h
    dsimp only at h
    split_ifs at h with hd
    obtain ⟨-, rfl⟩ := Prod.mk.inj (Option.some.inj h)
    obtain ⟨c, t, hp, hc⟩ : ∃ c t, p = c :: t ∧ (c = 101 ∨ c = 69) := by
      rcases hletter with hl | hl
      · exact ⟨101, p.tail, (List.cons_head?_tail hl).symm, Or.inl rfl⟩
      · exact ⟨69, p.tail, (List.cons_head?_tail hl).symm, Or.inr rfl⟩
    subst hp
    obtain ⟨s, hs, hsplit⟩ := readSign_split t
    refine ⟨some ⟨c, s, _, hc, hs, numeral_takeWhile hd⟩, ?_⟩
    calc c :: t = c :: (s ++ (readSign t).2) := by rw [← hsplit]
      _ = c :: (s ++ ((readSign t).2.takeWhile isdigit ++ (readSign t).2.dropWhile isdigit)) := by
        rw [List.takeWhile_append_dropWhile]
      _ = _ := by simp
  · rw [if_neg hletter] at h
    obtain ⟨-, rfl⟩ := Prod.mk.inj (Option.some.inj h)
    exact ⟨none, rfl⟩

theorem readUnsigned_eq_some {p : Text} {q : ℚ} (neg : Bool) (h : readUnsigned p = some (q, r)) :
    ∃ x : NumberText, x.neg = neg ∧ p = decimal x.int ++ (x.tail ++ r) := by
  unfold readUnsigned at h
  dsimp only at h
  split_ifs at h with hint
  rw [not_or] at hint
  obtain ⟨⟨ds, r₁⟩, hfraction, h⟩ := Option.bind_eq_some_iff.mp h
  obtain ⟨⟨e, r₂⟩, hexponent, h⟩ := Option.map_eq_some_iff.mp h
  obtain ⟨-, rfl⟩ := Prod.mk.inj h
  obtain ⟨f, hf⟩ := readFraction_eq_some hfraction
  obtain ⟨o, ho⟩ := readExponent_eq_some hexponent
  dsimp only at ho
  refine ⟨⟨neg, numeralValue (p.takeWhile isdigit), f, o⟩, rfl, ?_⟩
  have htail : p.dropWhile isdigit = NumberText.tail ⟨neg, 0, f, o⟩ ++ r₂ := by
    rw [hf, ho]
    exact (List.append_assoc _ _ _).symm
  rw [decimal_numeralValue (numeral_takeWhile hint.1) hint.2]
  calc p = p.takeWhile isdigit ++ p.dropWhile isdigit := List.takeWhile_append_dropWhile.symm
    _ = _ := by rw [htail]; rfl

theorem readNumber_eq_some {p : Text} {q : ℚ} (h : readNumber p = some (q, r)) :
    ∃ x : NumberText, p = x.text ++ r := by
  unfold readNumber at h
  split_ifs at h with hsign
  · obtain ⟨⟨q', r'⟩, hread, h⟩ := Option.map_eq_some_iff.mp h
    obtain ⟨-, rfl⟩ := Prod.mk.inj h
    obtain ⟨x, hneg, htail⟩ := readUnsigned_eq_some true hread
    refine ⟨x, ?_⟩
    rw [NumberText.text, hneg, if_pos rfl, List.append_assoc, List.append_assoc, ← htail]
    exact (List.cons_head?_tail hsign).symm
  · obtain ⟨x, hneg, htail⟩ := readUnsigned_eq_some false h
    refine ⟨x, ?_⟩
    rw [NumberText.text, hneg, List.append_assoc, List.append_assoc, ← htail]
    rfl

theorem token_of_readWord {p : Text} {y : JsonTree} (h : readWord p = some (y, r)) :
    ∃ v, p = v ++ r ∧ Token v := by
  have hcut : ∀ w : Text, w <+: p → p = w ++ p.drop w.length := fun w hw =>
    (List.prefix_iff_eq_append.mp hw).symm
  unfold readWord at h
  split_ifs at h with hnull htrue hfalse
  · obtain ⟨-, rfl⟩ := Prod.mk.inj (Option.some.inj h)
    exact ⟨str "null", hcut _ hnull, .null⟩
  · obtain ⟨-, rfl⟩ := Prod.mk.inj (Option.some.inj h)
    exact ⟨str "true", hcut _ htrue, .bool true⟩
  · obtain ⟨-, rfl⟩ := Prod.mk.inj (Option.some.inj h)
    exact ⟨str "false", hcut _ hfalse, .bool false⟩

/-- With this fuel every value that is read is a token behind white space. -/
def ReadsTokens (n : ℕ) : Prop := ∀ p y r, readValue n p = some (y, r) →
  ∃ b v, p = b ++ (v ++ r) ∧ Blank b ∧ Token v

/-- With this fuel what is read of an array is elements and a bracket. -/
def ReadsElements (n : ℕ) : Prop := ∀ p ys r, readElements n p = some (ys, r) →
  ∃ t, p = t ++ 93 :: r ∧ Elements t

/-- With this fuel what is read of an object is pairs and a brace. -/
def ReadsPairs (n : ℕ) : Prop := ∀ p ms r, readMembers n p = some (ms, r) →
  ∃ t, p = t ++ 125 :: r ∧ Pairs t

variable {n : ℕ}

/-- A value and the white space behind it. -/
theorem element_of_readValue (hn : ReadsTokens n) {p : Text} {y : JsonTree}
    (h : readValue n p = some (y, r)) : ∃ t, p = t ++ skipBlank r ∧ Element t := by
  obtain ⟨b, v, hp, hb, hv⟩ := hn p y r h
  obtain ⟨b', hb', hr⟩ := blank_split r
  refine ⟨b ++ (v ++ b'), ?_, .mk hb hv hb'⟩
  calc p = b ++ (v ++ (b' ++ skipBlank r)) := by rw [← hr]; exact hp
    _ = _ := by simp

/-- White space and a closing byte. -/
theorem empty_of_head {q : Text} {c : Byte} (h : (skipBlank q).head? = some c) :
    ∃ b, Blank b ∧ q = b ++ c :: (skipBlank q).tail := by
  obtain ⟨b, hb, hq⟩ := blank_split q
  exact ⟨b, hb, by rw [List.cons_head?_tail h]; exact hq⟩

theorem readsTokens_succ (helements : ReadsElements n) (hpairs : ReadsPairs n) :
    ReadsTokens (n + 1) := by
  intro p y r h
  obtain ⟨b, hb, hp⟩ := blank_split p
  suffices hskip : ∃ v, skipBlank p = v ++ r ∧ Token v by
    obtain ⟨v, hv, htoken⟩ := hskip
    exact ⟨b, v, by rw [← hv]; exact hp, hb, htoken⟩
  rw [readValue] at h
  split at h
  · next q hq =>
    obtain ⟨⟨s, r'⟩, hread, he⟩ := Option.map_eq_some_iff.mp h
    obtain ⟨-, rfl⟩ := Prod.mk.inj he
    obtain ⟨t, rfl, ht⟩ := body_of_readString hread
    exact ⟨34 :: (t ++ [34]), by rw [hq]; simp, .string ht⟩
  · next q hq =>
    split_ifs at h with hclose
    · obtain ⟨-, rfl⟩ := Prod.mk.inj (Option.some.inj h)
      obtain ⟨b', hb', hq'⟩ := empty_of_head hclose
      refine ⟨123 :: (b' ++ [125]), ?_, .emptyObject hb'⟩
      rw [hq, List.cons_append, List.append_assoc]
      exact congrArg (List.cons 123) hq'
    · obtain ⟨⟨ms, r'⟩, hread, he⟩ := Option.map_eq_some_iff.mp h
      obtain ⟨-, rfl⟩ := Prod.mk.inj he
      obtain ⟨t, rfl, ht⟩ := hpairs _ _ _ hread
      exact ⟨123 :: (t ++ [125]), by rw [hq]; simp, .object ht⟩
  · next q hq =>
    split_ifs at h with hclose
    · obtain ⟨-, rfl⟩ := Prod.mk.inj (Option.some.inj h)
      obtain ⟨b', hb', hq'⟩ := empty_of_head hclose
      refine ⟨91 :: (b' ++ [93]), ?_, .emptyArray hb'⟩
      rw [hq, List.cons_append, List.append_assoc]
      exact congrArg (List.cons 91) hq'
    · obtain ⟨⟨ys, r'⟩, hread, he⟩ := Option.map_eq_some_iff.mp h
      obtain ⟨-, rfl⟩ := Prod.mk.inj he
      obtain ⟨t, rfl, ht⟩ := helements _ _ _ hread
      exact ⟨91 :: (t ++ [93]), by rw [hq]; simp, .array ht⟩
  · rcases Option.or_eq_some_iff.mp h with hword | ⟨-, hnumber⟩
    · exact token_of_readWord hword
    · obtain ⟨⟨q, r'⟩, hread, he⟩ := Option.map_eq_some_iff.mp hnumber
      obtain ⟨-, rfl⟩ := Prod.mk.inj he
      obtain ⟨x, hx⟩ := readNumber_eq_some hread
      exact ⟨x.text, hx, .number x⟩

theorem readsElements_succ (hn : ReadsTokens n) (helements : ReadsElements n) :
    ReadsElements (n + 1) := by
  intro p ys r h
  rw [readElements] at h
  obtain ⟨⟨y, r₁⟩, hvalue, h⟩ := Option.bind_eq_some_iff.mp h
  obtain ⟨t, hp, ht⟩ := element_of_readValue hn hvalue
  dsimp only at h
  split at h
  · next q hq =>
    obtain ⟨⟨ys', r'⟩, hread, he⟩ := Option.map_eq_some_iff.mp h
    obtain ⟨-, rfl⟩ := Prod.mk.inj he
    obtain ⟨t', rfl, ht'⟩ := helements _ _ _ hread
    exact ⟨t ++ 44 :: t', by rw [hp, hq]; simp, .cons ht ht'⟩
  · next q hq =>
    obtain ⟨-, rfl⟩ := Prod.mk.inj (Option.some.inj h)
    exact ⟨t, by rw [hp, hq], .one ht⟩
  · cases h

theorem readsPairs_succ (hn : ReadsTokens n) (hpairs : ReadsPairs n) : ReadsPairs (n + 1) := by
  intro p ms r h
  obtain ⟨b, hb, hblank⟩ := blank_split p
  rw [readMembers] at h
  split at h
  · next q hq =>
    obtain ⟨⟨k, r₁⟩, hkey, hcolon⟩ := Option.bind_eq_some_iff.mp h
    obtain ⟨k', rfl, hk⟩ := body_of_readString hkey
    obtain ⟨b', hb', hblank'⟩ := blank_split r₁
    dsimp only at hcolon
    split at hcolon
    · next q' hq' =>
      obtain ⟨⟨y, r₂⟩, hvalue, hend⟩ := Option.bind_eq_some_iff.mp hcolon
      obtain ⟨t, rfl, ht⟩ := element_of_readValue hn hvalue
      -- the name and the colon, and what stands behind the value
      have hp : p = (b ++ 34 :: (k' ++ 34 :: (b' ++ 58 :: t))) ++ skipBlank r₂ := by
        calc p = b ++ 34 :: (k' ++ 34 :: (b' ++ skipBlank r₁)) := by
              rw [← hblank', ← hq]
              exact hblank
          _ = _ := by rw [hq']; simp
      have hpair : Pair (b ++ 34 :: (k' ++ 34 :: (b' ++ 58 :: t))) := .mk hb hk hb' ht
      dsimp only at hend
      split at hend
      · next q₂ hq₂ =>
        obtain ⟨⟨ms', r'⟩, hread, he⟩ := Option.map_eq_some_iff.mp hend
        obtain ⟨-, rfl⟩ := Prod.mk.inj he
        obtain ⟨t', rfl, ht'⟩ := hpairs _ _ _ hread
        refine ⟨_, ?_, .cons hpair ht'⟩
        rw [hp, hq₂]
        simp
      · next q₂ hq₂ =>
        obtain ⟨-, rfl⟩ := Prod.mk.inj (Option.some.inj hend)
        exact ⟨_, by rw [hp, hq₂], .one hpair⟩
      · cases hend
    · cases hcolon
  · cases h

theorem reads_all : ∀ n, ReadsTokens n ∧ ReadsElements n ∧ ReadsPairs n
  | 0 => by
    refine ⟨fun p y r h => ?_, fun p ys r h => ?_, fun p ms r h => ?_⟩
    · rw [readValue] at h
      cases h
    · rw [readElements] at h
      cases h
    · rw [readMembers] at h
      cases h
  | n + 1 => by
    obtain ⟨htokens, helements, hpairs⟩ := reads_all n
    exact ⟨readsTokens_succ helements hpairs, readsElements_succ htokens helements,
      readsPairs_succ htokens hpairs⟩

/-- **What the parser reads is a token.** -/
theorem token_of_readValue {p : Text} {y : JsonTree} (h : readValue n p = some (y, r)) :
    ∃ b v, p = b ++ (v ++ r) ∧ Blank b ∧ Token v :=
  (reads_all n).1 p y r h

end MqttFieldBridge.Json
