import MqttFieldBridge.Http.Lookups
import MqttFieldBridge.Json.Token

/-! # What the readers make of a token

`json_get_boolish` and `json_get_u16` leave the token to `strtol` without an end pointer: where no
number begins it reads `0`, and of a number it reads the integer in front of a fraction or an exponent.
So the flag reader takes a string, an array, an object or `null` for the flag `0`, and both readers
take a number that is no integer for one (`scalars_iff`). -/

namespace MqttFieldBridge.Http

open MqttFieldBridge.CLib MqttFieldBridge.Config MqttFieldBridge.Json MqttFieldBridge.Runtime

variable {w : World} {a : App} {longBits : ℕ} {body key v ws rest : Text}

/-! ### What is asked of the readers -/

/-- The token is this flag: a boolean, or one of the digits `0` and `1`. -/
def FlagToken (v : Text) (b : UInt8) : Prop :=
  (v = str "true" ∧ b = 1) ∨ (v = str "false" ∧ b = 0) ∨ (b ≤ 1 ∧ v = decimal b.toNat)

/-- The token is the numeral of this port. -/
def PortToken (v : Text) (n : UInt16) : Prop := n ≠ 0 ∧ v = decimal n.toNat

/-- The reader returns the flag that the token is, and fails on every other token. -/
def BoolishRight (longBits : ℕ) (body key v : Text) : Prop :=
  ∀ b, jsonGetBoolish longBits body key = some b ↔ FlagToken v b

def U16Right (longBits : ℕ) (body key v : Text) : Prop :=
  ∀ n, jsonGetU16 longBits body key = some n ↔ PortToken v n

/-- Without a flag `POST /broker/control` is refused and nothing changes. -/
def ControlRight (w : World) (a : App) (body v : Text) : Prop :=
  (∀ b, ¬ FlagToken v b) →
    postRoute w (str "/broker/control") body a = badRequest "invalid broker control" a

/-- A flag, or a number whose integer is neither `0` nor `1`. -/
def FlagDecided (v : Text) : Prop :=
  v = str "true" ∨ v = str "false" ∨ v = str "0" ∨ v = str "1" ∨
    ∃ x : NumberText, v = x.text ∧ (x.signed < 0 ∨ 1 < x.signed)

/-- No number with a fraction or an exponent whose integer is a port. -/
def PortDecided (v : Text) : Prop :=
  ∀ x : NumberText, v = x.text → x.signed ≤ 0 ∨ 65535 < x.signed ∨ x.IsInteger

/-- The first quoted key in the text is followed by a colon, white space and the token. -/
structure TokenAt (body key ws v rest : Text) : Prop where
  key_length : key.length ≤ 61
  key_colon : colon ∉ key
  find : strstr body (quote :: (key ++ [quote])) =
    some (quote :: (key ++ [quote]) ++ colon :: (ws ++ (v ++ rest)))
  blank : ∀ c ∈ ws, isspace c = true
  token : Token v
  complete : Complete v rest

theorem TokenAt.found (h : TokenAt body key ws v rest) : Found body key (ws ++ (v ++ rest)) :=
  found_of_strstr h.key_colon h.key_length h.find

/-! ### The three kinds of tokens -/

/-- A byte that begins neither a number nor a boolean. -/
def Opens (c : Byte) : Prop := c = 34 ∨ c = 91 ∨ c = 123 ∨ c = 110

theorem Opens.isspace {c : Byte} (h : Opens c) : isspace c = false := by
  rcases h with rfl | rfl | rfl | rfl <;> rfl

theorem Opens.strtol {c : Byte} (h : Opens c) (r : Text) : strtol longBits (c :: r) = 0 := by
  rcases h with rfl | rfl | rfl | rfl <;>
    exact strtol_of_start rfl rfl (by decide) (by decide) r

/-- Another byte than the two words begin with. -/
theorem flagText_of_start {c : Byte} {r : Text} {b : UInt8} (ht : c ≠ 116) (hf : c ≠ 102) :
    FlagText longBits (c :: r) b ↔ b ≤ 1 ∧ strtol longBits (c :: r) = b.toNat := by
  have htrue : ¬ str "true" <+: c :: r := fun hp => ht (List.cons_prefix_cons.mp hp).1.symm
  have hfalse : ¬ str "false" <+: c :: r := fun hp => hf (List.cons_prefix_cons.mp hp).1.symm
  unfold FlagText
  rw [if_neg htrue, if_neg hfalse]

theorem flagText_word (c : Bool) (r : Text) (b : UInt8) :
    FlagText longBits ((if c then str "true" else str "false") ++ r) b ↔ b = if c then 1 else 0 := by
  unfold FlagText
  cases c with
  | true => exact iff_of_eq (if_pos (List.prefix_append (str "true") r))
  | false =>
    have htrue : ¬ str "true" <+: str "false" ++ r := fun hp =>
      absurd (List.cons_prefix_cons.mp hp).1 (by decide)
    exact iff_of_eq ((if_neg htrue).trans (if_pos (List.prefix_append (str "false") r)))

theorem number_start (x : NumberText) : ∃ c t, x.text = c :: t ∧ (c = 45 ∨ isdigit c = true) := by
  rcases text_cases x with ⟨-, htext⟩ | ⟨-, htext⟩
  · exact ⟨45, _, htext, Or.inl rfl⟩
  · obtain ⟨c, cs, hc⟩ := List.exists_cons_of_ne_nil (@decimal_ne_nil x.int)
    have hdigit : isdigit c = true := isdigit_decimal c (hc ▸ List.mem_cons_self)
    exact ⟨c, _, by rw [htext, hc, List.cons_append], Or.inr hdigit⟩

/-- A token with another first byte is no number. -/
theorem start_ne_number {c : Byte} {t : Text} (hminus : c ≠ 45) (hdigit : isdigit c = false)
    (x : NumberText) : c :: t ≠ x.text := by
  intro h
  obtain ⟨d, t', hx, hd⟩ := number_start x
  obtain rfl := (List.cons.inj (h.trans hx)).1
  rcases hd with hd | hd
  · exact hminus hd
  · rw [hd] at hdigit
    cases hdigit

/-- The numeral of a natural number, as a token. -/
def numeralText (n : ℕ) : NumberText := ⟨false, n, none, none⟩

theorem text_numeralText (n : ℕ) : (numeralText n).text = decimal n := List.append_nil _

section Readers

variable (h : TokenAt body key ws v rest)
include h

theorem boolish_word {c : Bool} (hv : v = if c then str "true" else str "false") {b : UInt8} :
    jsonGetBoolish longBits body key = some b ↔ b = if c then 1 else 0 := by
  have hskip : skipSpace ((if c then str "true" else str "false") ++ rest) =
      (if c then str "true" else str "false") ++ rest := by
    cases c with
    | true => rfl
    | false => rfl
  rw [jsonGetBoolish_eq_some_iff h.found, skipSpace_blanks h.blank, hv, hskip, flagText_word]

/-- A string, an array, an object and `null` are taken for the flag `0`. -/
theorem boolish_opens {c : Byte} {t : Text} (hv : v = c :: t) (hc : Opens c) {b : UInt8} :
    jsonGetBoolish longBits body key = some b ↔ b = 0 := by
  have hwords : c ≠ 116 ∧ c ≠ 102 := by
    rcases hc with rfl | rfl | rfl | rfl <;> decide
  rw [jsonGetBoolish_eq_some_iff h.found, skipSpace_blanks h.blank, hv, List.cons_append,
    skipSpace_cons hc.isspace, flagText_of_start hwords.1 hwords.2, hc.strtol]
  constructor
  · rintro ⟨-, hb⟩
    exact UInt8.toNat_inj.mp (by exact_mod_cast hb.symm)
  · rintro rfl
    exact ⟨by decide, rfl⟩

/-- Of a number the integer is read. -/
theorem boolish_number {x : NumberText} (hv : v = x.text) (hbits : 32 ≤ longBits) {b : UInt8} :
    jsonGetBoolish longBits body key = some b ↔ b ≤ 1 ∧ x.signed = b.toNat := by
  have hlt : b.toNat < 256 := b.toNat_lt
  obtain ⟨c, t, htext, hc⟩ := number_start x
  have hstart : isspace c = false ∧ c ≠ 116 ∧ c ≠ 102 := by
    rcases hc with rfl | hc
    · decide
    · refine ⟨isspace_digit hc, fun e => ?_, fun e => ?_⟩
      · rw [e] at hc
        exact absurd hc (by decide)
      · rw [e] at hc
        exact absurd hc (by decide)
  have hcons : v ++ rest = c :: (t ++ rest) := by rw [hv, htext, List.cons_append]
  rw [jsonGetBoolish_eq_some_iff h.found, skipSpace_blanks h.blank, hcons,
    skipSpace_cons hstart.1, flagText_of_start hstart.2.1 hstart.2.2, ← hcons, hv, strtol_numberText (h.complete ⟨x, hv⟩),
    clamp_eq_iff hbits (by omega) (by omega)]

/-- Where no number begins, no port is read. -/
theorem u16_start {c : Byte} {t : Text} (hv : v = c :: t) (hspace : isspace c = false)
    (hdigit : isdigit c = false) (hminus : c ≠ 45) (hplus : c ≠ 43) (n : UInt16) :
    jsonGetU16 longBits body key ≠ some n := by
  rw [ne_eq, jsonGetU16_eq_some_iff h.found, strtol_blanks h.blank, hv, List.cons_append,
    strtol_of_start hspace hdigit hminus hplus]
  rintro ⟨hn, h0⟩
  exact hn (UInt16.toNat_inj.mp (by exact_mod_cast h0.symm))

theorem u16_number {x : NumberText} (hv : v = x.text) (hbits : 32 ≤ longBits) {n : UInt16} :
    jsonGetU16 longBits body key = some n ↔ n ≠ 0 ∧ x.signed = n.toNat := by
  have hlt : n.toNat < 65536 := n.toNat_lt
  rw [jsonGetU16_eq_some_iff h.found, strtol_blanks h.blank, hv, strtol_numberText (h.complete ⟨x, hv⟩),
    clamp_eq_iff hbits (by omega) (by omega)]

end Readers

/-! ### Flags and ports as tokens -/

/-- What begins neither a number nor a boolean is neither a flag nor a port. -/
theorem Opens.ne_number {c : Byte} {t : Text} (hc : Opens c) (x : NumberText) : c :: t ≠ x.text := by
  rcases hc with rfl | rfl | rfl | rfl <;> exact start_ne_number (by decide) rfl x

theorem Opens.ne_word {c : Byte} {t : Text} (hc : Opens c) :
    c :: t ≠ str "true" ∧ c :: t ≠ str "false" := by
  refine ⟨fun h => ?_, fun h => ?_⟩
  · obtain rfl : c = 116 := (List.cons.inj h).1
    exact absurd hc (by unfold Opens; decide)
  · obtain rfl : c = 102 := (List.cons.inj h).1
    exact absurd hc (by unfold Opens; decide)

theorem word_ne_number (b : Bool) (x : NumberText) :
    (if b then str "true" else str "false") ≠ x.text := by
  cases b with
  | true => exact start_ne_number (c := 116) (by decide) rfl x
  | false => exact start_ne_number (c := 102) (by decide) rfl x

theorem signed_of_decimal {x : NumberText} {n : ℕ} (h : x.text = decimal n) : x.signed = n := by
  obtain ⟨hneg, hint, -⟩ := text_eq_decimal_iff.mp h
  rw [NumberText.signed, hneg, hint]
  rfl

/-- A positive integer is written as its digits. -/
theorem decimal_of_signed {x : NumberText} {n : ℕ} (hint : x.IsInteger) (hn : 0 < n)
    (h : x.signed = n) : x.text = decimal n := by
  unfold NumberText.signed at h
  refine text_eq_decimal_iff.mpr ⟨?_, ?_, hint⟩
  · by_contra hneg
    rw [Bool.not_eq_false] at hneg
    rw [if_pos hneg] at h
    omega
  · split_ifs at h <;> omega

theorem flagToken_word (c : Bool) (b : UInt8) :
    FlagToken (if c then str "true" else str "false") b ↔ b = if c then 1 else 0 := by
  have hdigit : (if c then str "true" else str "false") ≠ decimal b.toNat := by
    rw [← text_numeralText]
    exact word_ne_number c _
  have htrue : (if c then str "true" else str "false") = str "true" ↔ c = true := by
    cases c <;> decide
  have hfalse : (if c then str "true" else str "false") = str "false" ↔ c = false := by
    cases c <;> decide
  unfold FlagToken
  rw [htrue, hfalse]
  constructor
  · rintro (⟨rfl, hb⟩ | ⟨rfl, hb⟩ | ⟨-, hv⟩)
    · exact hb
    · exact hb
    · exact absurd hv hdigit
  · intro hb
    cases c with
    | true => exact Or.inl ⟨rfl, hb⟩
    | false => exact Or.inr (Or.inl ⟨rfl, hb⟩)

theorem flagToken_number (x : NumberText) (b : UInt8) :
    FlagToken x.text b ↔ b ≤ 1 ∧ x.text = decimal b.toNat := by
  refine ⟨?_, fun h => Or.inr (Or.inr h)⟩
  rintro (⟨hv, -⟩ | ⟨hv, -⟩ | h)
  · exact absurd hv.symm (word_ne_number true x)
  · exact absurd hv.symm (word_ne_number false x)
  · exact h

theorem Opens.not_flagToken {c : Byte} {t : Text} (hc : Opens c) (b : UInt8) :
    ¬ FlagToken (c :: t) b := by
  rintro (⟨hv, -⟩ | ⟨hv, -⟩ | ⟨-, hv⟩)
  · exact hc.ne_word.1 hv
  · exact hc.ne_word.2 hv
  · rw [← text_numeralText] at hv
    exact hc.ne_number _ hv

theorem Opens.not_flagDecided {c : Byte} {t : Text} (hc : Opens c) : ¬ FlagDecided (c :: t) := by
  rintro (hv | hv | hv | hv | ⟨x, hv, -⟩)
  · exact hc.ne_word.1 hv
  · exact hc.ne_word.2 hv
  · exact hc.ne_number (numeralText 0) hv
  · exact hc.ne_number (numeralText 1) hv
  · exact hc.ne_number x hv

/-! ### When the readers are right -/

/-- A flag is always read. -/
theorem boolish_of_flagToken (hbits : 32 ≤ longBits) (h : TokenAt body key ws v rest) {b : UInt8}
    (hb : FlagToken v b) : jsonGetBoolish longBits body key = some b := by
  rcases h.token.kinds with ⟨c, hv⟩ | ⟨x, hv⟩ | ⟨c, t, hv, hc⟩
  · rw [hv, flagToken_word] at hb
    exact (boolish_word h hv).mpr hb
  · rw [hv, flagToken_number] at hb
    exact (boolish_number h hv hbits).mpr
      ⟨hb.1, signed_of_decimal hb.2⟩
  · rw [hv] at hb
    exact absurd hb (Opens.not_flagToken hc b)

/-- A number is decided if it is `0` or `1` or its integer is neither. -/
theorem boolishRight_number {x : NumberText} :
    (∀ b : UInt8, b ≤ 1 ∧ x.signed = b.toNat ↔ b ≤ 1 ∧ x.text = decimal b.toNat) ↔
      FlagDecided x.text := by
  constructor
  · intro h
    by_cases hout : x.signed < 0 ∨ 1 < x.signed
    · exact Or.inr (Or.inr (Or.inr (Or.inr ⟨x, rfl, hout⟩)))
    · rcases (show x.signed = 0 ∨ x.signed = 1 by omega) with h0 | h1
      · exact Or.inr (Or.inr (Or.inl ((h 0).mp ⟨by decide, h0⟩).2))
      · exact Or.inr (Or.inr (Or.inr (Or.inl ((h 1).mp ⟨by decide, h1⟩).2)))
  · intro hd b
    refine and_congr_right fun hb => ⟨fun hsigned => ?_, signed_of_decimal⟩
    have hle : b.toNat ≤ 1 := UInt8.le_iff_toNat_le.mp hb
    have hdigit : ∀ n : ℕ, x.text = decimal n → x.text = decimal b.toNat := by
      intro n hn
      have hval : (n : ℤ) = b.toNat := (signed_of_decimal hn).symm.trans hsigned
      rw [hn, Int.ofNat_inj.mp hval]
    rcases hd with hv | hv | hv | hv | ⟨y, hv, hout⟩
    · exact absurd hv.symm (word_ne_number true x)
    · exact absurd hv.symm (word_ne_number false x)
    · exact hdigit 0 hv
    · exact hdigit 1 hv
    · rw [← signed_of_text hv, hsigned] at hout
      omega

theorem boolishRight_iff (hbits : 32 ≤ longBits) (h : TokenAt body key ws v rest) :
    BoolishRight longBits body key v ↔ FlagDecided v := by
  rcases h.token.kinds with ⟨c, hv⟩ | ⟨x, hv⟩ | ⟨c, t, hv, hc⟩
  · refine iff_of_true (fun b => ?_) ?_
    · rw [boolish_word h hv, hv, flagToken_word]
    · cases c with
      | true => exact Or.inl hv
      | false => exact Or.inr (Or.inl hv)
  · rw [hv, ← boolishRight_number]
    refine forall_congr' fun b => ?_
    rw [boolish_number h hv hbits, flagToken_number]
  · refine iff_of_false (fun hr => ?_) ?_
    · have hread : jsonGetBoolish longBits body key = some 0 :=
        (boolish_opens h hv hc).mpr rfl
      have hflag := (hr 0).mp hread
      rw [hv] at hflag
      exact Opens.not_flagToken hc 0 hflag
    · rw [hv]
      exact Opens.not_flagDecided hc

/-- A number is decided if it is an integer or its integer is no port. -/
theorem u16Right_number {x : NumberText} :
    (∀ n : UInt16, n ≠ 0 ∧ x.signed = n.toNat ↔ n ≠ 0 ∧ x.text = decimal n.toNat) ↔
      PortDecided x.text := by
  have hpos : ∀ n : UInt16, n ≠ 0 → 0 < n.toNat := fun n hn =>
    Nat.pos_of_ne_zero fun h0 => hn (UInt16.toNat_inj.mp h0)
  constructor
  · intro h y hy
    by_contra hout
    rw [not_or, not_or] at hout
    obtain ⟨hlow, hhigh, hint⟩ := hout
    obtain ⟨n, hn⟩ : ∃ n : ℕ, x.signed = n := ⟨x.signed.toNat, by rw [signed_of_text hy]; omega⟩
    rw [← signed_of_text hy] at hlow hhigh
    have hnat : (UInt16.ofNat n).toNat = n := by
      rw [UInt16.toNat_ofNat']
      exact Nat.mod_eq_of_lt (by omega)
    have hne : UInt16.ofNat n ≠ 0 := fun h0 => by
      rw [h0] at hnat
      have : (0 : UInt16).toNat = 0 := rfl
      omega
    have htext := ((h (UInt16.ofNat n)).mp ⟨hne, by rw [hnat, hn]⟩).2
    exact hint (text_eq_decimal_iff.mp (hy.symm.trans htext)).2.2
  · intro hd n
    have hlt : n.toNat < 65536 := n.toNat_lt
    refine and_congr_right fun hn => ⟨fun hsigned => ?_, signed_of_decimal⟩
    have hn0 := hpos n hn
    rcases hd x rfl with hlow | hhigh | hint
    · omega
    · omega
    · exact decimal_of_signed hint hn0 hsigned

/-- A token that is no number is no port, and none is read. -/
theorem u16Right_start (longBits : ℕ) (h : TokenAt body key ws v rest) {c : Byte} {t : Text}
    (hv : v = c :: t) (hc : c = 116 ∨ c = 102 ∨ Opens c) :
    U16Right longBits body key v ∧ PortDecided v := by
  have hstart : isspace c = false ∧ isdigit c = false ∧ c ≠ 45 ∧ c ≠ 43 := by
    rcases hc with rfl | rfl | rfl | rfl | rfl | rfl <;> decide
  obtain ⟨hspace, hdigit, hminus, hplus⟩ := hstart
  have hnumber : ∀ x : NumberText, v ≠ x.text := fun x => by
    rw [hv]
    exact start_ne_number hminus hdigit x
  refine ⟨fun n => iff_of_false ?_ fun hn => ?_, fun x hx => absurd hx (hnumber x)⟩
  · exact u16_start h hv hspace hdigit hminus hplus n
  · exact hnumber (numeralText n.toNat) (hn.2.trans (text_numeralText _).symm)

theorem u16Right_iff (hbits : 32 ≤ longBits) (h : TokenAt body key ws v rest) :
    U16Right longBits body key v ↔ PortDecided v := by
  have hother : ∀ c t, v = c :: t → c = 116 ∨ c = 102 ∨ Opens c →
      (U16Right longBits body key v ↔ PortDecided v) := fun c t hv hc =>
    iff_of_true (u16Right_start longBits h hv hc).1 (u16Right_start longBits h hv hc).2
  rcases h.token.kinds with ⟨c, hv⟩ | ⟨x, hv⟩ | ⟨c, t, hv, hc⟩
  · cases c with
    | true => exact hother 116 _ hv (Or.inl rfl)
    | false => exact hother 102 _ hv (Or.inr (Or.inl rfl))
  · rw [hv, ← u16Right_number]
    refine forall_congr' fun n => ?_
    rw [u16_number h hv hbits, PortToken]
  · exact hother c t hv (Or.inr (Or.inr hc))

/-! ### The broker control -/

theorem postRoute_control (w : World) (body : Text) (a : App) :
    postRoute w (str "/broker/control") body a = postBrokerControl w body a := by
  have hconfig : ¬ str "/broker/control" = str "/config" := by decide
  have hpeers : ¬ peersPath <+: str "/broker/control" := by decide
  rw [postRoute, if_neg hconfig, if_neg hpeers, if_pos rfl]

/-- A request whose flag is read is not refused. -/
theorem postBrokerControl_status {b : UInt8}
    (hb : jsonGetBoolish w.longBits body (str "enabled") = some b) :
    (postBrokerControl w body a).response.status = 200 := by
  unfold postBrokerControl
  rw [hb]
  dsimp only
  rw [setBrokerEnabled_ok (jsonGetBoolish_le hb)]
  rfl

/-- The broker control acts on a flag alone exactly if its reader reads one alone. -/
theorem controlRight_iff (h : TokenAt body (str "enabled") ws v rest) :
    ControlRight w a body v ↔ BoolishRight w.longBits body (str "enabled") v := by
  unfold ControlRight
  rw [postRoute_control]
  constructor
  · intro hc b
    refine ⟨fun hb => ?_, boolish_of_flagToken w.longBits_ge h⟩
    by_contra hflag
    have hnone : ∀ b', ¬ FlagToken v b' := fun b' hb' => by
      have hread := boolish_of_flagToken w.longBits_ge h hb'
      rw [hb] at hread
      exact hflag (Option.some.inj hread ▸ hb')
    have hstatus := postBrokerControl_status (a := a) hb
    rw [hc hnone] at hstatus
    cases hstatus
  · intro hr hnone
    have hread : jsonGetBoolish w.longBits body (str "enabled") = none :=
      Option.eq_none_iff_forall_ne_some.mpr fun b hb => hnone b ((hr b).mp hb)
    unfold postBrokerControl
    rw [hread]

/-- **When the readers are right about a token**: the flag reader if it is a flag or a number whose
integer is neither `0` nor `1`, the port reader unless a port is followed by a fraction or an exponent,
the broker control as the flag reader. -/
theorem scalars_iff (h : TokenAt body key ws v rest) :
    (BoolishRight w.longBits body key v ↔ FlagDecided v) ∧
      (U16Right w.longBits body key v ↔ PortDecided v) ∧
      (key = str "enabled" → (ControlRight w a body v ↔ FlagDecided v)) := by
  refine ⟨boolishRight_iff w.longBits_ge h, u16Right_iff w.longBits_ge h, ?_⟩
  rintro rfl
  exact (controlRight_iff h).trans (boolishRight_iff w.longBits_ge h)

/-- The readers are right about a boolean. -/
theorem scalars_iff_true :
    let body := str "\x7b\"enabled\": true\x7d"
    BoolishRight 32 body (str "enabled") (str "true") ∧
      U16Right 32 body (str "enabled") (str "true") ∧
      ControlRight .good freshApp body (str "true") := by
  have hnumber : ∀ x : NumberText, str "true" ≠ x.text := word_ne_number true
  have h : TokenAt (str "\x7b\"enabled\": true\x7d") (str "enabled") [32] (str "true")
      (str "\x7d") :=
    ⟨by decide, by decide, by decide, List.forall_mem_singleton.mpr rfl, .bool true,
      fun ⟨x, hx⟩ => absurd hx (hnumber x)⟩
  obtain ⟨hboolish, hu16, hcontrol⟩ := @scalars_iff .good freshApp _ _ _ _ _ h
  exact ⟨hboolish.mpr (Or.inl rfl), hu16.mpr fun x hx => absurd hx (hnumber x),
    (hcontrol rfl).mpr (Or.inl rfl)⟩

/-- `{"enabled":"true"}` -/
def quotedTrueBody : Text := str "\x7b\"enabled\":\"true\"\x7d"

/-- `{"mqtt_port":1e3}` -/
def exponentBody : Text := str "\x7b\"mqtt_port\":1e3\x7d"

/-- The string `"true"` is taken for the flag `0`, so that the broker control acts on it, and `1e3` for
the port `1`. -/
theorem scalars_misread :
    (TokenAt quotedTrueBody (str "enabled") [] (str "\"true\"") (str "\x7d") ∧
      ¬ BoolishRight 32 quotedTrueBody (str "enabled") (str "\"true\"") ∧
      ¬ ControlRight .good freshApp quotedTrueBody (str "\"true\"")) ∧
    TokenAt exponentBody (str "mqtt_port") [] (str "1e3") (str "\x7d") ∧
      ¬ U16Right 32 exponentBody (str "mqtt_port") (str "1e3") := by
  have hquote : Opens 34 := Or.inl rfl
  have hread : jsonGetBoolish 32 quotedTrueBody (str "enabled") = some 0 := by decide
  have hnone : ∀ b, ¬ FlagToken (str "\"true\"") b := fun b => Opens.not_flagToken hquote b
  have hstring : Token (str "\"true\"") :=
    .string (t := [116, 114, 117, 101]) (body_of_bytes (by simp))
  refine ⟨⟨⟨by decide, by decide, by decide, List.forall_mem_nil _, hstring, ?_⟩, fun h => ?_,
    fun h => ?_⟩, ?_⟩
  · rintro ⟨x, hx⟩
    exact absurd hx (Opens.ne_number hquote x)
  · exact hnone 0 ((h 0).mp hread)
  · have hstatus := postBrokerControl_status (w := .good) (a := freshApp) hread
    rw [← postRoute_control, h hnone] at hstatus
    cases hstatus
  · have hnumber : str "1e3" =
        (NumberText.mk false 1 none
          (some ⟨101, [], str "3", Or.inl rfl, Or.inl rfl, numeral_decimal (n := 3)⟩)).text := rfl
    refine ⟨⟨by decide, by decide, by decide, List.forall_mem_nil _, ?_, fun _ => ?_⟩, fun h => ?_⟩
    · rw [hnumber]
      exact .number _
    · intro c hc
      obtain rfl := Option.some.inj hc
      decide
    · have hport := ((h 1).mp (by decide)).2
      exact absurd hport (by decide)

end MqttFieldBridge.Http
