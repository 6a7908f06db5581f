import MqttFieldBridge.CLib.CString

/-! # Decimal numerals

What `decimal` prints, `strtol` and `atoi` read back, if the text goes on with a byte that is no
digit and the number fits. -/

namespace MqttFieldBridge.CLib

/-- The text does not go on with a digit. -/
def NoDigit (r : Text) : Prop := ∀ c, r.head? = some c → isdigit c = false

theorem noDigit_nil : NoDigit [] := fun c hc => absurd hc (by simp)

theorem isdigit_bounds {c : Byte} (h : isdigit c = true) : 48 ≤ c.toNat ∧ c.toNat ≤ 57 := by
  simp only [isdigit, Bool.and_eq_true, decide_eq_true_eq, UInt8.le_iff_toNat_le] at h
  exact h

theorem isdigit_ofNat {c : Char} (h : c.isDigit = true) :
    isdigit (UInt8.ofNat c.toNat) = true ∧ (UInt8.ofNat c.toNat).toNat - 48 = c.toNat - 48 := by
  have hle : 48 ≤ c.toNat ∧ c.toNat ≤ 57 := by
    simpa [Char.isDigit, UInt32.le_iff_toNat_le] using h
  have hnat : (UInt8.ofNat c.toNat).toNat = c.toNat := by
    rw [UInt8.toNat_ofNat']
    exact Nat.mod_eq_of_lt (by omega)
  refine ⟨?_, by rw [hnat]⟩
  simp only [isdigit, Bool.and_eq_true, decide_eq_true_eq, UInt8.le_iff_toNat_le, hnat]
  exact hle

theorem isdigit_decimal {n : ℕ} : ∀ c ∈ decimal n, isdigit c = true := by
  intro c hc
  obtain ⟨d, hd, rfl⟩ := List.mem_map.mp hc
  exact (isdigit_ofNat (Nat.isDigit_of_mem_toDigits (by decide) (by decide) hd)).1

theorem decimal_ne_nil {n : ℕ} : decimal n ≠ [] := by
  simp [decimal]

/-- There is no leading zero. -/
theorem head_decimal {n : ℕ} (hn : 0 < n) : (decimal n).head? ≠ some 48 := by
  have hsmall : ∀ m < 10, 0 < m → (decimal m).head? ≠ some 48 := by decide
  induction n using Nat.strong_induction_on with
  | _ n ih =>
    by_cases h : n < 10
    · exact hsmall n h hn
    · have hcut : decimal n = decimal (n / 10) ++ [UInt8.ofNat (n % 10).digitChar.toNat] := by
        rw [decimal, Nat.toDigits_of_base_le (by decide) (by omega), List.map_append]
        rfl
      rw [hcut, List.head?_append_of_ne_nil _ decimal_ne_nil]
      exact ih (n / 10) (by omega) (by omega)

/-- The digits of a number, read after a part of value `acc`. -/
theorem readDigits_map {r : Text} (hr : NoDigit r) : ∀ (l : List Char) (acc : ℕ),
    (∀ c ∈ l, c.isDigit = true) →
      readDigits (l.map (fun c => UInt8.ofNat c.toNat) ++ r) acc = Nat.ofDigitChars 10 l acc
  | [], acc, _ => by
    rw [List.map_nil, List.nil_append, Nat.ofDigitChars_nil]
    cases r with
    | nil => rfl
    | cons c cs => rw [readDigits, if_neg (by simp [hr c rfl])]
  | c :: l, acc, h => by
    obtain ⟨hdigit, hval⟩ := isdigit_ofNat (h c List.mem_cons_self)
    have hrest := readDigits_map hr l (acc * 10 + (c.toNat - 48)) fun d hd =>
      h d (List.mem_cons_of_mem c hd)
    rw [List.map_cons, List.cons_append, readDigits, if_pos hdigit, hval, hrest,
      Nat.ofDigitChars_cons, Nat.mul_comm acc 10]
    rfl

theorem readDigits_decimal {n : ℕ} {r : Text} (hr : NoDigit r) :
    readDigits (decimal n ++ r) 0 = n := by
  have hdigits : ∀ c ∈ Nat.toDigits 10 n, c.isDigit = true := fun c hc =>
    Nat.isDigit_of_mem_toDigits (by decide) (by decide) hc
  rw [decimal, readDigits_map hr _ _ hdigits, Nat.ofDigitChars_ten_toDigits]

theorem skipSpace_cons {c : Byte} (hc : isspace c = false) (r : Text) :
    skipSpace (c :: r) = c :: r :=
  List.dropWhile_cons_of_neg (by simp [hc])

/-- A numeral need not begin with a sign. -/
theorem splitSign_start {c : Byte} (hspace : isspace c = false) (hminus : c ≠ 45) (hplus : c ≠ 43)
    (r : Text) : splitSign (skipSpace (c :: r)) = (false, c :: r) := by
  rw [skipSpace_cons hspace]
  unfold splitSign
  split
  · next heq => exact absurd (List.cons.inj heq).1 hminus
  · next heq => exact absurd (List.cons.inj heq).1 hplus
  · rfl

theorem isspace_digit {c : Byte} (h : isdigit c = true) : isspace c = false := by
  have hle := isdigit_bounds h
  simp only [isspace, Bool.or_eq_false_iff, decide_eq_false_iff_not, Bool.and_eq_false_iff,
    UInt8.le_iff_toNat_le]
  refine ⟨fun e => ?_, Or.inr ?_⟩
  · rw [e] at hle
    exact absurd hle (by decide)
  · have : (13 : UInt8).toNat = 13 := rfl
    omega

/-- A digit is neither white space nor a sign. -/
theorem splitSign_digit {c : Byte} (h : isdigit c = true) (r : Text) :
    splitSign (skipSpace (c :: r)) = (false, c :: r) := by
  refine splitSign_start (isspace_digit h) (fun e => ?_) (fun e => ?_) r
  · rw [e] at h
    exact absurd h (by decide)
  · rw [e] at h
    exact absurd h (by decide)

/-- A numeral: digits only, and at least one. -/
structure Numeral (t : Text) : Prop where
  nonempty : t ≠ []
  digits : ∀ c ∈ t, isdigit c = true

/-- The number a numeral spells. -/
def numeralValue (t : Text) : ℕ := readDigits t 0

theorem numeral_decimal {n : ℕ} : Numeral (decimal n) := ⟨decimal_ne_nil, isdigit_decimal⟩

theorem numeralValue_decimal {n : ℕ} : numeralValue (decimal n) = n := by
  have h := @readDigits_decimal n [] noDigit_nil
  rw [List.append_nil] at h
  exact h

/-- A digit is what is printed of its value. -/
theorem decimal_digit {c : Byte} (hc : isdigit c = true) : decimal (c.toNat - 48) = [c] := by
  have hle := isdigit_bounds hc
  have hsmall : ∀ d < 10, decimal d = [UInt8.ofNat (48 + d)] := by decide
  have hval : 48 + (c.toNat - 48) = c.toNat := by omega
  rw [hsmall _ (by omega), hval, UInt8.ofNat_toNat]

/-- A digit more is printed at the end. -/
theorem decimal_append {n : ℕ} {c : Byte} (hn : 0 < n) (hc : isdigit c = true) :
    decimal (n * 10 + (c.toNat - 48)) = decimal n ++ [c] := by
  have hle := isdigit_bounds hc
  have happend := Nat.toDigits_append_toDigits (b := 10) (d := c.toNat - 48) (by decide) hn
    (by omega)
  have hdigit := decimal_digit hc
  unfold decimal at hdigit ⊢
  rw [Nat.mul_comm, ← happend, List.map_append, hdigit]

theorem decimal_readDigits : ∀ (t : Text) (acc : ℕ), (∀ c ∈ t, isdigit c = true) → 0 < acc →
    decimal (readDigits t acc) = decimal acc ++ t
  | [], acc, _, _ => (List.append_nil _).symm
  | c :: t, acc, h, hacc => by
    have hc := h c List.mem_cons_self
    have hrest := decimal_readDigits t (acc * 10 + (c.toNat - 48))
      (fun d hd => h d (List.mem_cons_of_mem c hd)) (by omega)
    rw [readDigits, if_pos hc, hrest, decimal_append hacc hc, List.append_assoc,
      List.singleton_append]

/-- **A numeral without a leading zero is what is printed of its number.** -/
theorem decimal_numeralValue {t : Text} (ht : Numeral t)
    (hzero : ¬ (t.head? = some 48 ∧ t ≠ [48])) : decimal (numeralValue t) = t := by
  obtain ⟨c, cs, rfl⟩ := List.exists_cons_of_ne_nil ht.nonempty
  have hc := ht.digits c List.mem_cons_self
  by_cases hc0 : c = 48
  · have hone : c :: cs = [48] := by
      by_contra hne
      exact hzero ⟨by rw [hc0]; rfl, hne⟩
    rw [hone]
    rfl
  · have hle := isdigit_bounds hc
    have hne : c.toNat ≠ 48 := fun h => hc0 (UInt8.toNat_inj.mp h)
    have hrest := decimal_readDigits cs (c.toNat - 48)
      (fun d hd => ht.digits d (List.mem_cons_of_mem c hd)) (by omega)
    rw [numeralValue, readDigits, if_pos hc, Nat.zero_mul, Nat.zero_add, hrest, decimal_digit hc,
      List.singleton_append]

/-- Reading stops behind the digits. -/
theorem readDigits_append {r : Text} (hr : NoDigit r) : ∀ (t : Text) (acc : ℕ),
    (∀ c ∈ t, isdigit c = true) → readDigits (t ++ r) acc = readDigits t acc
  | [], acc, _ => by
    cases r with
    | nil => rfl
    | cons c cs =>
      have hc : ¬ isdigit c = true := by simp [hr c rfl]
      exact if_neg hc
  | c :: t, acc, h => by
    have hc := h c List.mem_cons_self
    have hrest := readDigits_append hr t (acc * 10 + (c.toNat - 48)) fun d hd =>
      h d (List.mem_cons_of_mem c hd)
    rw [List.cons_append, readDigits, readDigits, if_pos hc, if_pos hc, hrest]

theorem strtol_numeral {bits : ℕ} {t r : Text} (ht : Numeral t) (hr : NoDigit r)
    (hlt : numeralValue t < 2 ^ (bits - 1)) : strtol bits (t ++ r) = numeralValue t := by
  obtain ⟨c, cs, hc⟩ := List.exists_cons_of_ne_nil ht.nonempty
  have hsign : splitSign (skipSpace (t ++ r)) = (false, t ++ r) := by
    rw [hc, List.cons_append]
    exact splitSign_digit (ht.digits c (hc ▸ List.mem_cons_self)) _
  have hread : readDigits (t ++ r) 0 = numeralValue t := readDigits_append hr t 0 ht.digits
  have hcast : (numeralValue t : ℤ) < 2 ^ (bits - 1) := by exact_mod_cast hlt
  have hpos : (0 : ℤ) ≤ 2 ^ (bits - 1) := pow_nonneg (by decide) _
  unfold strtol
  simp only [hsign, Bool.false_eq_true, if_false, hread, clamp]
  omega

theorem atoi_numeral {bits : ℕ} {t r : Text} (ht : Numeral t) (hr : NoDigit r) (hbits : 32 ≤ bits)
    (hlt : numeralValue t < 2 ^ 31) : atoi bits (t ++ r) = numeralValue t := by
  have hlong : numeralValue t < 2 ^ (bits - 1) :=
    hlt.trans_le (Nat.pow_le_pow_right (by decide) (by omega))
  rw [atoi, strtol_numeral ht hr hlong]
  refine Int.bmod_eq_of_le ?_ ?_
  · omega
  · omega

/-- A text that is a numeral and nothing else. -/
theorem atoi_of_numeral {bits : ℕ} {t : Text} (ht : Numeral t) (hbits : 32 ≤ bits)
    (hlt : numeralValue t < 2 ^ 31) : atoi bits t = numeralValue t := by
  have h := atoi_numeral ht noDigit_nil hbits hlt
  rw [List.append_nil] at h
  exact h

theorem strtol_decimal {bits n : ℕ} {r : Text} (hr : NoDigit r) (hn : n < 2 ^ (bits - 1)) :
    strtol bits (decimal n ++ r) = n := by
  rw [strtol_numeral numeral_decimal hr (by rw [numeralValue_decimal]; exact hn),
    numeralValue_decimal]

/-- A small value is not clamped, and none is clamped to it. -/
theorem clamp_eq_iff {bits : ℕ} {z k : ℤ} (hbits : 32 ≤ bits) (h0 : 0 ≤ k) (hk : k < 2 ^ 31 - 1) :
    clamp bits z = k ↔ z = k := by
  have hpow : (2 : ℤ) ^ 31 ≤ 2 ^ (bits - 1) := by
    exact_mod_cast Nat.pow_le_pow_right (n := 2) (by decide) (by omega)
  unfold clamp
  omega

/-- Where no number begins, none is read. -/
theorem strtol_of_start {bits : ℕ} {c : Byte} (hspace : isspace c = false)
    (hdigit : isdigit c = false) (hminus : c ≠ 45) (hplus : c ≠ 43) (r : Text) :
    strtol bits (c :: r) = 0 := by
  have hread : readDigits (c :: r) 0 = 0 := by
    rw [readDigits, if_neg (by rw [hdigit]; decide)]
  have hpos : (1 : ℤ) ≤ 2 ^ (bits - 1) := one_le_pow₀ (by decide)
  unfold strtol
  rw [splitSign_start hspace hminus hplus]
  dsimp only
  rw [hread]
  simp only [Bool.false_eq_true, if_false, clamp]
  omega

/-- Leading white space is not read. -/
theorem skipSpace_blanks {blanks : Text} (h : ∀ b ∈ blanks, isspace b = true) (r : Text) :
    skipSpace (blanks ++ r) = skipSpace r :=
  List.dropWhile_append_of_pos h

theorem strtol_blanks {bits : ℕ} {blanks : Text} (h : ∀ b ∈ blanks, isspace b = true) (r : Text) :
    strtol bits (blanks ++ r) = strtol bits r := by
  unfold strtol
  rw [skipSpace_blanks h]

theorem atoi_blanks {bits : ℕ} {blanks : Text} (h : ∀ b ∈ blanks, isspace b = true) (r : Text) :
    atoi bits (blanks ++ r) = atoi bits r := by
  rw [atoi, strtol_blanks h, atoi]

end MqttFieldBridge.CLib
