import MqttFieldBridge.CLib.Decimal
import MqttFieldBridge.Console.Handle

/-! # Numbers as menu items

A word of digits is read by `numeric_menu_command` without a look at its length. While the number is
an `int`, the item of that number is selected, or nothing is (`selectsByNumber_iff`); from `2 ^ 31` on
the loop overflows, and where it wraps a long word selects an item with another number. -/

namespace MqttFieldBridge.Console

open MqttFieldBridge.CLib MqttFieldBridge.Config MqttFieldBridge.Runtime

/-! ### The loop without overflow -/

/-- The value of an `int` expression, unless it overflows. -/
def checkedInt (v : ℤ) : Option ℤ := if -2 ^ 31 ≤ v ∧ v < 2 ^ 31 then some v else none

/-- The loop of `numeric_menu_command`, up to the first expression that overflows. -/
def menuDigitsChecked : Text → ℤ → Option ℤ
  | [], value => some value
  | c :: cs, value =>
    if isdigit c then
      (checkedInt (value * 10)).bind fun tens =>
        (checkedInt (tens + (c.toNat - 48 : ℕ))).bind (menuDigitsChecked cs)
    else some 0

theorem checkedInt_of_lt {n : ℕ} (h : n < 2 ^ 31) : checkedInt n = some (n : ℤ) :=
  if_pos (by omega)

theorem checkedInt_of_ge {n : ℕ} (h : 2 ^ 31 ≤ n) : checkedInt n = none := if_neg (by omega)

/-- Digits only add to the value. -/
theorem le_readDigits : ∀ (t : Text) (acc : ℕ), acc ≤ readDigits t acc
  | [], acc => Nat.le_refl acc
  | c :: cs, acc => by
    unfold readDigits
    split_ifs
    · have hrest := le_readDigits cs (acc * 10 + (c.toNat - 48))
      omega
    · exact Nat.le_refl acc

/-- **The loop overflows exactly if the number is no `int`.** -/
theorem menuDigitsChecked_digits : ∀ (t : Text) (acc : ℕ), (∀ c ∈ t, isdigit c = true) →
    acc < 2 ^ 31 → menuDigitsChecked t acc =
      if readDigits t acc < 2 ^ 31 then some (readDigits t acc : ℤ) else none
  | [], acc, _, hacc => (if_pos hacc).symm
  | c :: cs, acc, hdigits, _ => by
    have hc := hdigits c List.mem_cons_self
    have hrest := le_readDigits cs (acc * 10 + (c.toNat - 48))
    have hcast : (acc : ℤ) * 10 = ((acc * 10 : ℕ) : ℤ) := by push_cast; rfl
    rw [menuDigitsChecked, readDigits, if_pos hc, if_pos hc, hcast]
    by_cases htens : acc * 10 < 2 ^ 31
    · rw [checkedInt_of_lt htens, Option.bind_some, ← Nat.cast_add]
      by_cases hsum : acc * 10 + (c.toNat - 48) < 2 ^ 31
      · rw [checkedInt_of_lt hsum, Option.bind_some]
        exact menuDigitsChecked_digits cs _ (fun d hd => hdigits d (List.mem_cons_of_mem c hd)) hsum
      · rw [checkedInt_of_ge (by omega), if_neg (by omega)]
        rfl
    · rw [checkedInt_of_ge (by omega), if_neg (by omega)]
      rfl

theorem menuDigitsChecked_numeral {tok : Text} (hnum : Numeral tok) : menuDigitsChecked tok 0 =
    if numeralValue tok < 2 ^ 31 then some (numeralValue tok : ℤ) else none :=
  menuDigitsChecked_digits tok 0 hnum.digits (by decide)

/-- Where nothing overflows nothing wraps. -/
theorem menuDigits_of_checked : ∀ {t : Text} {v r : ℤ}, menuDigitsChecked t v = some r →
    menuDigits t v = r
  | [], v, r, h => Option.some.inj h
  | c :: cs, v, r, h => by
    rw [menuDigitsChecked] at h
    rw [menuDigits]
    split_ifs at h ⊢ with hc
    · obtain ⟨tens, htens, h⟩ := Option.bind_eq_some_iff.mp h
      obtain ⟨sum, hsum, h⟩ := Option.bind_eq_some_iff.mp h
      unfold checkedInt at htens hsum
      split_ifs at htens hsum with ht hs
      obtain rfl := Option.some.inj htens
      obtain rfl := Option.some.inj hsum
      rw [Int.bmod_eq_of_le (by omega) (by omega)]
      exact menuDigits_of_checked h
    · exact Option.some.inj h

/-! ### The items of a menu -/

/-- How many items a menu has. -/
def Menu.items : Menu → ℕ
  | .broker => 4
  | .system => 2
  | _ => 3

/-- The menu has an item of this number. -/
def IsItem (m : Menu) (index : ℤ) : Prop := 1 ≤ index ∧ index ≤ m.items

instance (m : Menu) (index : ℤ) : Decidable (IsItem m index) := by unfold IsItem; infer_instance

/-- A number without an item is an error. -/
theorem menuRequest_of_not_item {m : Menu} {index : ℤ} (h : ¬ IsItem m index) :
    ∃ t, menuRequest m index = .error t := by
  unfold IsItem Menu.items at h
  unfold menuRequest
  cases m <;>
    · dsimp only at h ⊢
      repeat rw [if_neg (by omega)]
      exact ⟨_, rfl⟩

/-- The number of the item that asks for this. -/
def itemNumber : Menu → Request → ℤ
  | .main, .menu .info => 1
  | .main, .menu .settings => 2
  | .main, .menu .system => 3
  | .info, .status => 1
  | .info, .summary => 2
  | .info, .showConfig => 3
  | .settings, .menu .deviceNetwork => 1
  | .settings, .menu .broker => 2
  | .settings, .menu .peerBridge => 3
  | .deviceNetwork, .usage .mode => 1
  | .deviceNetwork, .usage .ip => 2
  | .deviceNetwork, .settings _ => 3
  | .broker, .usage .brokerPort => 1
  | .broker, .usage .brokerFallbackPort => 2
  | .broker, .usage .brokerIp => 3
  | .broker, .usage .brokerState => 4
  | .peerBridge, .usage .bridgePort => 1
  | .peerBridge, .usage .peer => 2
  | .peerBridge, .usage .defaults => 3
  | .system, .reset => 1
  | .system, .reboot => 2
  | _, _ => 0

/-- An item is known by what it asks for. -/
theorem itemNumber_menuRequest {m : Menu} {index : ℤ} (h : IsItem m index) :
    itemNumber m (menuRequest m index) = index := by
  have hcases : index = 1 ∨ index = 2 ∨ index = 3 ∧ m ≠ .system ∨ index = 4 ∧ m = .broker := by
    cases m <;>
      · simp [IsItem, Menu.items] at h ⊢
        omega
  rcases hcases with rfl | rfl | ⟨rfl, hm⟩ | ⟨rfl, rfl⟩
  · cases m <;> rfl
  · cases m <;> rfl
  · cases m <;> first | rfl | exact absurd rfl hm
  · rfl

/-! ### Lines that begin with a number -/

variable {longBits : ℕ} {m : Menu} {line tok save : Text}

/-- A number is none of the words. -/
theorem numeral_ne (hnum : Numeral tok) {word : Text} (hword : ∃ c ∈ word, isdigit c = false) :
    tok ≠ word := by
  rintro rfl
  obtain ⟨c, hc, hnot⟩ := hword
  rw [hnum.digits c hc] at hnot
  cases hnot

/-- A number that selects no item is no command either. -/
theorem commandRequest_numeral (hnum : Numeral tok) :
    ∃ t, commandRequest longBits tok save = .error t := by
  have hplain : ∀ word ∈ plainWords, ∃ c ∈ str word, isdigit c = false := by decide
  have hcommand := command_commandRequest longBits tok save
  generalize commandRequest longBits tok save = r at hcommand
  cases hcommand with
  | plain hr hw h => exact absurd h (numeral_ne hnum (hplain _ hw))
  | ip h => exact absurd h (numeral_ne hnum (by decide))
  | mode h => exact absurd h (numeral_ne hnum (by decide))
  | dhcp h => exact absurd h (numeral_ne hnum (by decide))
  | broker h => exact absurd h (numeral_ne hnum (by decide))
  | brokerPort h => exact absurd h (numeral_ne hnum (by decide))
  | brokerFallbackPort h =>
    exact h.elim (fun h => absurd h (numeral_ne hnum (by decide)))
      fun h => absurd h (numeral_ne hnum (by decide))
  | brokerIp h => exact absurd h (numeral_ne hnum (by decide))
  | bridgePort h => exact absurd h (numeral_ne hnum (by decide))
  | brokerState h => exact absurd h (numeral_ne hnum (by decide))
  | peer h => exact absurd h (numeral_ne hnum (by decide))
  | defaults h => exact absurd h (numeral_ne hnum (by decide))
  | reset h => exact absurd h (numeral_ne hnum (by decide))
  | unknown t => exact ⟨t, rfl⟩

/-- The number that `numeric_menu_command` returns, if it is an `int`. -/
theorem numericMenuCommand_numeral (hnum : Numeral tok) (hlt : numeralValue tok < 2 ^ 31) :
    numericMenuCommand tok = numeralValue tok := by
  have hchecked := menuDigitsChecked_numeral hnum
  rw [if_pos hlt] at hchecked
  exact menuDigits_of_checked hchecked

/-- What a line with such a number asks for: the main menu for the word `0`, the item of the number,
or an error. -/
theorem lineRequest_numeral (hword : nextToken line = (some tok, save)) (hnum : Numeral tok)
    (hlt : numeralValue tok < 2 ^ 31) :
    (tok = str "0" ∧ lineRequest longBits m line = .menu .main) ∨
      (tok ≠ str "0" ∧ IsItem m (numeralValue tok) ∧
        lineRequest longBits m line = menuRequest m (numeralValue tok)) ∨
      (tok ≠ str "0" ∧ ¬ IsItem m (numeralValue tok) ∧
        ∃ t, lineRequest longBits m line = .error t) := by
  have hback : tok ≠ str "back" := numeral_ne hnum (by decide)
  by_cases hzero : tok = str "0"
  · refine Or.inl ⟨hzero, ?_⟩
    unfold lineRequest
    rw [hword]
    exact if_pos (Or.inl hzero)
  have hnot : ¬ (tok = str "0" ∨ tok = str "back") := not_or.mpr ⟨hzero, hback⟩
  by_cases hpos : numericMenuCommand tok > 0
  · have hrequest : lineRequest longBits m line = menuRequest m (numeralValue tok) := by
      unfold lineRequest
      rw [hword]
      dsimp only
      rw [if_neg hnot, if_pos hpos, numericMenuCommand_numeral hnum hlt]
    by_cases hitem : IsItem m (numeralValue tok)
    · exact Or.inr (Or.inl ⟨hzero, hitem, hrequest⟩)
    · rw [hrequest]
      exact Or.inr (Or.inr ⟨hzero, hitem, menuRequest_of_not_item hitem⟩)
  · rw [lineRequest_command hword hnot hpos]
    rw [numericMenuCommand_numeral hnum hlt] at hpos
    refine Or.inr (Or.inr ⟨hzero, fun hitem => hpos ?_, commandRequest_numeral hnum⟩)
    exact Int.lt_of_lt_of_le Int.zero_lt_one hitem.1

/-! ### When a number selects what it says -/

/-- The word `tok` at the head of the line is read without overflow, asks for an item only if it is
its number, and for the main menu only as `0`; and any other number fails and changes nothing. -/
structure SelectsByNumber (w : World) (k : ConsoleState) (line tok : Text) : Prop where
  defined : (menuDigitsChecked tok 0).isSome
  item : ∀ index, IsItem k.menu index →
    lineRequest w.longBits k.menu (cstr line) = menuRequest k.menu index →
      (numeralValue tok : ℤ) = index
  selects : IsItem k.menu (numeralValue tok) →
    productConsoleHandleLine w k line = perform w k (menuRequest k.menu (numeralValue tok))
  back : lineRequest w.longBits k.menu (cstr line) = .menu .main → tok = str "0"
  refused : ¬ IsItem k.menu (numeralValue tok) → tok ≠ str "0" →
    (productConsoleHandleLine w k line).rc = .err ∧ (productConsoleHandleLine w k line).state = k

/-- No item leads back to the main menu. -/
theorem menuRequest_ne_main (index : ℤ) : menuRequest m index ≠ .menu .main := by
  unfold menuRequest
  cases m <;>
    · dsimp only
      split_ifs <;> simp [cmdDhcp]

theorem menuRequest_ne_error {index : ℤ} (h : IsItem m index) (t : Text) :
    menuRequest m index ≠ .error t := by
  intro he
  have hnumber := itemNumber_menuRequest h
  have hzero : itemNumber m (.error t) = 0 := by cases m <;> rfl
  rw [he, hzero] at hnumber
  exact absurd h.1 (by omega)

/-- **A number selects what it says** if and only if it is an `int`. -/
theorem selectsByNumber_iff (w : World) (k : ConsoleState) (line tok save : Text)
    (hword : nextToken (cstr line) = (some tok, save)) (hnum : Numeral tok) :
    SelectsByNumber w k line tok ↔ numeralValue tok < 2 ^ 31 := by
  have hchecked := menuDigitsChecked_numeral hnum
  constructor
  · intro h
    by_contra hge
    have hdefined := h.defined
    rw [hchecked, if_neg hge] at hdefined
    cases hdefined
  · intro hlt
    have hdefined : (menuDigitsChecked tok 0).isSome := by
      rw [hchecked, if_pos hlt]
      rfl
    rcases @lineRequest_numeral w.longBits k.menu _ _ _ hword hnum hlt with
      ⟨rfl, hr⟩ | ⟨hzero, hitem, hr⟩ | ⟨hzero, hnot, t, hr⟩
    · refine ⟨hdefined, fun index _ h => ?_, fun h => ?_, fun _ => rfl, fun _ h => absurd rfl h⟩
      · exact absurd (h.symm.trans hr) (menuRequest_ne_main index)
      · exact absurd h.1 (by decide)
    · refine ⟨hdefined, fun index hindex h => ?_, fun _ => ?_, fun h => ?_, fun h => absurd hitem h⟩
      · rw [← itemNumber_menuRequest hitem, ← itemNumber_menuRequest hindex, ← h, hr]
      · unfold productConsoleHandleLine
        rw [hr]
      · exact absurd (hr.symm.trans h) (menuRequest_ne_main _)
    · refine ⟨hdefined, fun index hindex h => ?_, fun h => absurd h hnot, fun h => ?_, fun _ _ => ?_⟩
      · exact absurd (h.symm.trans hr) (menuRequest_ne_error hindex t)
      · rw [hr] at h
        cases h
      · unfold productConsoleHandleLine
        rw [hr]
        exact ⟨rfl, rfl⟩

/-- In the menu of the system `2` reboots. -/
theorem selectsByNumber_iff_two :
    SelectsByNumber .good ⟨.system, freshApp⟩ (str "2") (str "2") := by
  have hnum : Numeral (str "2") := @numeral_decimal 2
  exact (selectsByNumber_iff .good ⟨.system, freshApp⟩ (str "2") (str "2") [] (by decide) hnum).mpr
    (by decide)

/-- The number `2 ^ 32 + 1` overflows, and where that wraps it resets the configuration. -/
theorem selectsByNumber_wrapped :
    ¬ SelectsByNumber .good ⟨.system, freshApp⟩ (str "4294967297") (str "4294967297") ∧
      lineRequest 32 .system (str "4294967297") = .reset := by
  constructor
  · intro h
    exact absurd h.defined (by decide)
  · rfl

end MqttFieldBridge.Console
