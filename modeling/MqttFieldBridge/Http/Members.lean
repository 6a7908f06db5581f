import MqttFieldBridge.Http.Apply
import MqttFieldBridge.Json.Search

/-! # What the readers make of a member

The readers of `provisioning_http.c` on the text of a flat object, as `stringify` writes it. Where the
search for a key finds the member (`found_stringify`), its reader begins at the member's value. A
number, a flag and the name of a mode are then read as what they are. A string is if it fits and has
no control character, since the readers drop the backslash of an escape and keep the rest of it
(`text_jsonGetString_iff`). -/

namespace MqttFieldBridge.Http

open MqttFieldBridge.CLib MqttFieldBridge.Config MqttFieldBridge.Json

variable {longBits : ℕ} {body key p rest : Text}

/-- The reader of the key goes on with this text. -/
def Found (body key p : Text) : Prop :=
  ∃ q, jsonFindKey body key = some q ∧ afterChr q colon = some p

theorem needle_eq (hlen : key.length ≤ 61) :
    (quote :: key ++ [quote]).take 63 = 34 :: (key ++ [34]) := by
  rw [List.take_of_length_le (by simp; omega)]
  rfl

theorem colon_notMem_key (hk : KeyText key) : colon ∉ key := fun h =>
  absurd (hk.letters colon h) (by decide)

theorem colon_notMem_needle (hk : colon ∉ key) : colon ∉ 34 :: (key ++ [34]) := by
  simp only [List.mem_cons, List.mem_append, List.not_mem_nil, or_false, not_or]
  exact ⟨by decide, hk, by decide⟩

/-- Where the quoted key is followed by a colon, its reader goes on after it. -/
theorem found_of_strstr (hk : colon ∉ key) (hlen : key.length ≤ 61)
    (hfind : strstr body (34 :: (key ++ [34])) = some (34 :: (key ++ [34]) ++ 58 :: p)) :
    Found body key p := by
  refine ⟨34 :: (key ++ [34]) ++ 58 :: p, ?_, afterChr_append (colon_notMem_needle hk) _⟩
  rw [jsonFindKey, needle_eq hlen, hfind]

theorem found_stringify (hk : KeyText key) (hlen : key.length ≤ 61) {o : JsonObject}
    {before after : List Member} {v : JsonValue}
    (hsplit : o.members = before ++ (plain key, v) :: after)
    (hforeign : ∀ m ∈ before, m.2 ≠ .string (plain key)) (hclean : ¬ Shadowed key before) :
    ∃ rest, Found (stringify o) key (valueText v ++ rest) ∧
      (rest.head? = some 44 ∨ rest.head? = some 125) := by
  obtain ⟨rest, hfind, hrest⟩ := strstr_stringify hk hsplit hforeign hclean
  exact ⟨rest, found_of_strstr (colon_notMem_key hk) hlen hfind, hrest⟩

/-! ### Numbers and flags -/

theorem jsonGetU16_of_found (h : Found body key p) : jsonGetU16 longBits body key =
    if strtol longBits p ≤ 0 ∨ strtol longBits p > 65535 then none
    else some (UInt16.ofNat (strtol longBits p).toNat) := by
  obtain ⟨q, hq, hp⟩ := h
  unfold jsonGetU16
  simp only [hq, hp]

theorem jsonGetBoolish_of_found (h : Found body key p) : jsonGetBoolish longBits body key =
    if str "true" <+: skipSpace p then some 1
    else if str "false" <+: skipSpace p then some 0
    else if strtol longBits (skipSpace p) < 0 ∨ strtol longBits (skipSpace p) > 1 then none
    else some (UInt8.ofNat (strtol longBits (skipSpace p)).toNat) := by
  obtain ⟨q, hq, hp⟩ := h
  unfold jsonGetBoolish
  simp only [hq, hp, Option.map_some]

/-- A member is followed by a comma or a brace. -/
theorem noDigit_rest (h : rest.head? = some 44 ∨ rest.head? = some 125) : NoDigit rest := by
  intro c hc
  rcases h with h | h <;>
    · rw [h] at hc
      obtain rfl := Option.some.inj hc
      decide

/-- The value is this natural number. -/
def IsNumber (v : JsonValue) (n : ℕ) : Prop := ∃ x, v = .number x ∧ x.value = n

theorem valueText_of_isNumber {v : JsonValue} {n : ℕ} (hv : IsNumber v n) (hn : n < 2 ^ 31) :
    valueText v = decimal n := by
  obtain ⟨x, rfl, hx⟩ := hv
  exact text_of_value hx (hn.trans (by decide))

theorem strtol_natural {n : ℕ} (hbits : 32 ≤ longBits) (hrest : NoDigit rest) (hn : n < 2 ^ 31) :
    strtol longBits (decimal n ++ rest) = n :=
  strtol_decimal hrest (hn.trans_le (Nat.pow_le_pow_right (by decide) (by omega)))

theorem jsonGetU16_decimal {n : UInt16} (hn : n ≠ 0) (hbits : 32 ≤ longBits) (hrest : NoDigit rest)
    (h : Found body key (decimal n.toNat ++ rest)) : jsonGetU16 longBits body key = some n := by
  have hlt : n.toNat < 65536 := n.toNat_lt
  have hpos : 0 < n.toNat := Nat.pos_of_ne_zero fun h0 => hn (UInt16.toNat_inj.mp h0)
  have hval := strtol_natural hbits hrest (show n.toNat < 2 ^ 31 by omega)
  rw [jsonGetU16_of_found h, hval, if_neg (by omega), Int.toNat_natCast, UInt16.ofNat_toNat]

theorem jsonGetU16_number {v : JsonValue} {n : UInt16} (hv : IsNumber v n.toNat) (hn : n ≠ 0)
    (hbits : 32 ≤ longBits) (hrest : NoDigit rest) (h : Found body key (valueText v ++ rest)) :
    jsonGetU16 longBits body key = some n := by
  rw [valueText_of_isNumber hv (n.toNat_lt.trans (by decide))] at h
  exact jsonGetU16_decimal hn hbits hrest h

/-- The value is this flag. -/
def IsFlag (v : JsonValue) (b : UInt8) : Prop :=
  b ≤ 1 ∧ (v = .bool (decide (b = 1)) ∨ IsNumber v b.toNat)

theorem jsonGetBoolish_bool {b : Bool} (h : Found body key (valueText (.bool b) ++ rest)) :
    jsonGetBoolish longBits body key = some (if b then 1 else 0) := by
  rw [jsonGetBoolish_of_found h]
  cases b with
  | true => exact if_pos (List.prefix_append (str "true") rest)
  | false =>
    have hskip : skipSpace (valueText (.bool false) ++ rest) = str "false" ++ rest := rfl
    have htrue : ¬ str "true" <+: str "false" ++ rest := fun hp =>
      absurd (List.cons_prefix_cons.mp hp).1 (by decide)
    rw [hskip, if_neg htrue]
    exact if_pos (List.prefix_append _ _)

theorem jsonGetBoolish_decimal {b : UInt8} (hb : b ≤ 1) (hbits : 32 ≤ longBits)
    (hrest : NoDigit rest) (h : Found body key (decimal b.toNat ++ rest)) :
    jsonGetBoolish longBits body key = some b := by
  have hval := strtol_natural hbits hrest (b.toNat_lt.trans (by decide))
  have hdigit : ∃ c, decimal b.toNat = [c] ∧ isspace c = false ∧ c ≠ 116 ∧ c ≠ 102 := by
    rcases validBool_cases hb with rfl | rfl
    · exact ⟨48, by decide⟩
    · exact ⟨49, by decide⟩
  obtain ⟨c, hc, hspace, ht, hf⟩ := hdigit
  have hskip : skipSpace (decimal b.toNat ++ rest) = decimal b.toNat ++ rest := by
    rw [hc]
    exact skipSpace_cons hspace rest
  have htrue : ¬ str "true" <+: decimal b.toNat ++ rest := fun hp => by
    rw [hc] at hp
    exact ht (List.cons_prefix_cons.mp hp).1.symm
  have hfalse : ¬ str "false" <+: decimal b.toNat ++ rest := fun hp => by
    rw [hc] at hp
    exact hf (List.cons_prefix_cons.mp hp).1.symm
  have hle : b.toNat ≤ 1 := UInt8.le_iff_toNat_le.mp hb
  rw [jsonGetBoolish_of_found h, hskip, if_neg htrue, if_neg hfalse, hval, if_neg (by omega),
    Int.toNat_natCast, UInt8.ofNat_toNat]

theorem jsonGetBoolish_number {v : JsonValue} {b : UInt8} (hb : b ≤ 1) (hv : IsNumber v b.toNat)
    (hbits : 32 ≤ longBits) (hrest : NoDigit rest) (h : Found body key (valueText v ++ rest)) :
    jsonGetBoolish longBits body key = some b := by
  rw [valueText_of_isNumber hv (b.toNat_lt.trans (by decide))] at h
  exact jsonGetBoolish_decimal hb hbits hrest h

theorem jsonGetBoolish_flag {v : JsonValue} {b : UInt8} (hv : IsFlag v b)
    (hbits : 32 ≤ longBits) (hrest : NoDigit rest) (h : Found body key (valueText v ++ rest)) :
    jsonGetBoolish longBits body key = some b := by
  obtain ⟨hb, rfl | hnum⟩ := hv
  · rw [jsonGetBoolish_bool h]
    rcases validBool_cases hb with rfl | rfl
    · rfl
    · rfl
  · exact jsonGetBoolish_number hb hnum hbits hrest h

/-! ### Strings -/

theorem jsonGetString_of_found {n : ℕ} {out : CharArray n} {q : Text} (h : Found body key p)
    (hq : skipSpace p = quote :: q) (hn : 0 < n) : jsonGetString body key out =
      (if (copyLoop (n - 1) q).2.head? = some quote then .ok else .err,
        out.write ((copyLoop (n - 1) q).1 ++ [0])) := by
  obtain ⟨r, hr, hp⟩ := h
  unfold jsonGetString
  simp only [hr, hp, Option.map_some, hq, if_neg hn.ne']
  rfl

/-- What a string reader stores is what it copied, up to a NUL. -/
theorem text_jsonGetString_of_found {n : ℕ} {out : CharArray n} {q : Text} (h : Found body key p)
    (hq : skipSpace p = quote :: q) (hn : 0 < n) :
    (jsonGetString body key out).2.text = cstr (copyLoop (n - 1) q).1 := by
  have hcopied := length_copyLoop (n - 1) q
  rw [jsonGetString_of_found h hq hn]
  exact CharArray.text_write_cstr (by omega)

theorem nextByte_of_ne {c : Byte} (h : c ≠ backslash) (r : Text) : nextByte c r = (c, r) := by
  cases r with
  | nil => rfl
  | cons d ds => exact if_neg h

/-- A byte that is no control character is copied, whether it is escaped or not. -/
theorem copyLoop_escapeByte {b : Byte} (hb : 32 ≤ b.toNat) (room : ℕ) (r : Text) :
    copyLoop (room + 1) (escapeChar (.byte b) ++ r) =
      (b :: (copyLoop room r).1, (copyLoop room r).2) := by
  have hesc := escaped_escapeChar (.byte b)
  generalize escapeChar (.byte b) = e at hesc
  cases hesc with
  | raw hquote hback =>
    rw [List.singleton_append, copyLoop, if_neg hquote, nextByte_of_ne hback]
  | quote => rfl
  | backslash => rfl
  | coded hu =>
    have := hu b rfl
    omega

/-- Of an escape the byte after the backslash is copied. -/
theorem copyLoop_backslash (c : Byte) (room : ℕ) (r : Text) :
    copyLoop (room + 1) (92 :: c :: r) = (c :: (copyLoop room r).1, (copyLoop room r).2) := rfl

theorem escape_plain_cons (b : Byte) (t : Text) :
    escape (plain (b :: t)) = escapeChar (.byte b) ++ escape (plain t) := rfl

/-- What there is room for is copied, and the loop stops before the escape of the next byte. -/
theorem copyLoop_escape : ∀ (t : Text) (room : ℕ), Above 32 t →
    copyLoop room (escape (plain t) ++ 34 :: rest) =
      (t.take room, escape (plain (t.drop room)) ++ 34 :: rest)
  | [], 0, _ => rfl
  | [], _ + 1, _ => rfl
  | _ :: _, 0, _ => rfl
  | b :: t, room + 1, h => by
    have hrest := copyLoop_escape t room fun c hc => h c (List.mem_cons_of_mem b hc)
    rw [escape_plain_cons, List.append_assoc, copyLoop_escapeByte (h b List.mem_cons_self), hrest]
    rfl

theorem copyLoop_escape_of_le {t : Text} {room : ℕ} (hlen : t.length ≤ room) (h : Above 32 t) :
    copyLoop room (escape (plain t) ++ 34 :: rest) = (t, 34 :: rest) := by
  rw [copyLoop_escape t room h, List.take_of_length_le hlen, List.drop_of_length_le hlen]
  rfl

/-- What is copied is the string only if it has no control character. -/
theorem printable_of_copyLoop : ∀ (t : Text) (room : ℕ), t.length ≤ room →
    cstr (copyLoop room (escape (plain t) ++ 34 :: rest)).1 = t → Above 32 t
  | [], _, _, _ => fun c hc => (by cases hc)
  | b :: t, 0, hlen, _ => absurd hlen (by simp)
  | b :: t, room + 1, hlen, h => by
    have hcons : ∀ (c : Byte) (l : Text), c ≠ 0 → cstr (c :: l) = c :: cstr l := fun c l hc =>
      List.takeWhile_cons_of_pos (by simpa using hc)
    rw [escape_plain_cons, List.append_assoc] at h
    by_cases hb : 32 ≤ b.toNat
    · have hb0 : b ≠ 0 := fun e => by rw [e] at hb; exact absurd hb (by decide)
      rw [copyLoop_escapeByte hb, hcons _ _ hb0] at h
      have hrest := printable_of_copyLoop t room (by simpa using hlen) (List.cons.inj h).2
      intro c hc
      rcases List.mem_cons.mp hc with rfl | hc
      · exact hb
      · exact hrest c hc
    · have hesc := escaped_escapeChar (.byte b)
      generalize escapeChar (.byte b) = e at hesc h
      cases hesc with
      | raw _ _ h32 => exact absurd h32 hb
      | quote => exact absurd (show 32 ≤ (34 : Byte).toNat by decide) hb
      | backslash => exact absurd (show 32 ≤ (92 : Byte).toNat by decide) hb
      | @coded _ c r hu hr =>
        have hc := hr c List.mem_cons_self
        have hc0 : c ≠ 0 := fun e => by rw [e] at hc; exact absurd hc (by decide)
        rw [List.cons_append, List.cons_append, copyLoop_backslash, hcons _ _ hc0] at h
        have hcb : c = b := (List.cons.inj h).1
        rw [hcb] at hc
        exact absurd (Nat.le_trans (by decide) hc) hb

theorem quoted_append (s : JsonString) : quoted s ++ rest = 34 :: (escape s ++ 34 :: rest) := by
  simp [quoted]

/-- **A string that fits is read as what it is if and only if it has no control character.** -/
theorem text_jsonGetString_iff {n : ℕ} {out : CharArray n} {t : Text}
    (h : Found body key (quoted (plain t) ++ rest)) (hlen : t.length < n) :
    (jsonGetString body key out).2.text = t ↔ Above 32 t := by
  rw [quoted_append] at h
  have hroom : t.length ≤ n - 1 := by omega
  rw [text_jsonGetString_of_found h rfl (by omega)]
  constructor
  · exact printable_of_copyLoop t (n - 1) hroom
  · intro hb
    have h0 : (0 : Byte) ∉ t := fun h0 => absurd (hb 0 h0) (by decide)
    rw [copyLoop_escape_of_le hroom hb]
    exact cstr_of_notMem h0

theorem jsonGetString_printable {n : ℕ} {out : CharArray n} {t : Text}
    (h : Found body key (quoted (plain t) ++ rest)) (hlen : t.length < n)
    (hb : Above 32 t) : (jsonGetString body key out).1 = .ok := by
  rw [quoted_append] at h
  rw [jsonGetString_of_found h rfl (by omega), copyLoop_escape_of_le (by omega) hb]
  rfl

end MqttFieldBridge.Http
