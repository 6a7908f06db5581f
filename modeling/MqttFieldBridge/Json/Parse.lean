import MqttFieldBridge.CLib.Decimal
import Mathlib.Algebra.Order.Field.Rat

/-! # A parser for JSON

The grammar of RFC 8259, for texts in UTF-8. A string is read character by character, so what a text
says of a string is a relation of its own, `Spells`; a string whose characters need no escape is
spelled by its UTF-8 text, and whatever else is read there is shorter than the text it is read from
(`Spells.plain_or_shorter`). -/

namespace MqttFieldBridge.Json

open MqttFieldBridge.CLib

/-- A JSON value. -/
inductive JsonTree where
  | null
  | bool (b : Bool)
  | number (x : ℚ)
  | string (s : List Char)
  | array (vs : List JsonTree)
  | object (ms : List (List Char × JsonTree))

/-! ### Strings -/

/-- The character at the head of a text, and the text after it. -/
def readChar (p : Text) : Option (Char × Text) :=
  ((p.take 4).toByteArray.utf8DecodeChar? 0).map fun c => (c, p.drop c.utf8Size)

def hexValue (b : Byte) : Option ℕ :=
  if isdigit b then some (b.toNat - 48)
  else if 97 ≤ b ∧ b ≤ 102 then some (b.toNat - 87)
  else if 65 ≤ b ∧ b ≤ 70 then some (b.toNat - 55)
  else none

/-- Four hexadecimal digits. -/
def readHex : Text → Option (ℕ × Text)
  | a :: b :: c :: d :: r =>
    match hexValue a, hexValue b, hexValue c, hexValue d with
    | some a, some b, some c, some d => some (((a * 16 + b) * 16 + c) * 16 + d, r)
    | _, _, _, _ => none
  | _ => none

/-- What follows `\\u`. A surrogate without its pair is no character, so it is refused. -/
def readUnicode (p : Text) : Option (Char × Text) :=
  match readHex p with
  | none => none
  | some (u, r) =>
    if 0xD800 ≤ u ∧ u < 0xDC00 then
      match r with
      | 92 :: 117 :: r =>
        match readHex r with
        | none => none
        | some (l, r) =>
          if 0xDC00 ≤ l ∧ l < 0xE000 then
            some (Char.ofNat (0x10000 + (u - 0xD800) * 1024 + (l - 0xDC00)), r)
          else none
      | _ => none
    else if 0xDC00 ≤ u ∧ u < 0xE000 then none
    else some (Char.ofNat u, r)

/-- What a letter after a backslash stands for. -/
def letterValue (b : Byte) : Option ℕ :=
  if b = 34 ∨ b = 92 ∨ b = 47 then some b.toNat
  else if b = 98 then some 8
  else if b = 102 then some 12
  else if b = 110 then some 10
  else if b = 114 then some 13
  else if b = 116 then some 9
  else none

/-- What follows a backslash. -/
def readEscape : Text → Option (Char × Text)
  | [] => none
  | b :: r =>
    if b = 117 then readUnicode r else (letterValue b).map fun n => (Char.ofNat n, r)

/-- One character of a string, escaped or not. -/
def readItem (p : Text) : Option (Char × Text) :=
  if p.head? = some 92 then readEscape p.tail
  else (readChar p).bind fun x => if x.1.toNat < 32 then none else some x

/-- A string up to its closing quote. -/
def readString : ℕ → Text → Option (List Char × Text)
  | 0, _ => none
  | n + 1, p =>
    if p.head? = some 34 then some ([], p.tail)
    else (readItem p).bind fun x => (readString n x.2).map fun y => (x.1 :: y.1, y.2)

/-! ### Numbers -/

/-- The digits after a decimal point, if there is one. -/
def readFraction : Text → Option (Text × Text)
  | 46 :: r =>
    if r.takeWhile isdigit = [] then none else some (r.takeWhile isdigit, r.dropWhile isdigit)
  | p => some ([], p)

/-- The sign of an exponent. -/
def readSign : Text → ℤ × Text
  | 43 :: r => (1, r)
  | 45 :: r => (-1, r)
  | p => (1, p)

def readExponent (p : Text) : Option (ℤ × Text) :=
  if p.head? = some 101 ∨ p.head? = some 69 then
    let r := readSign p.tail
    if r.2.takeWhile isdigit = [] then none
    else some (r.1 * readDigits (r.2.takeWhile isdigit) 0, r.2.dropWhile isdigit)
  else some (0, p)

/-- A number without its sign. Its integer part has no leading zero. -/
def readUnsigned (p : Text) : Option (ℚ × Text) :=
  let int := p.takeWhile isdigit
  if int = [] ∨ (int.head? = some 48 ∧ int ≠ [48]) then none
  else
    (readFraction (p.dropWhile isdigit)).bind fun f =>
      (readExponent f.2).map fun e =>
        ((readDigits (int ++ f.1) 0 : ℚ) * (10 : ℚ) ^ (e.1 - (f.1.length : ℤ)), e.2)

def readNumber (p : Text) : Option (ℚ × Text) :=
  if p.head? = some 45 then (readUnsigned p.tail).map fun x => (-x.1, x.2) else readUnsigned p

/-! ### Values -/

def isBlank (c : Byte) : Bool := c = 32 || c = 9 || c = 10 || c = 13

def skipBlank (p : Text) : Text := p.dropWhile isBlank

/-- A word of the grammar. -/
def readWord (p : Text) : Option (JsonTree × Text) :=
  if str "null" <+: p then some (.null, p.drop 4)
  else if str "true" <+: p then some (.bool true, p.drop 4)
  else if str "false" <+: p then some (.bool false, p.drop 5)
  else none

mutual

/-- A value, if it nests less deep than the fuel. -/
def readValue : ℕ → Text → Option (JsonTree × Text)
  | 0, _ => none
  | n + 1, p =>
    match skipBlank p with
    | 34 :: r => (readString (r.length + 1) r).map fun x => (.string x.1, x.2)
    | 123 :: r =>
      if (skipBlank r).head? = some 125 then some (.object [], (skipBlank r).tail)
      else (readMembers n r).map fun x => (.object x.1, x.2)
    | 91 :: r =>
      if (skipBlank r).head? = some 93 then some (.array [], (skipBlank r).tail)
      else (readElements n r).map fun x => (.array x.1, x.2)
    | p => (readWord p).or ((readNumber p).map fun x => (.number x.1, x.2))

/-- The members of an object and its closing brace. -/
def readMembers : ℕ → Text → Option (List (List Char × JsonTree) × Text)
  | 0, _ => none
  | n + 1, p =>
    match skipBlank p with
    | 34 :: r =>
      (readString (r.length + 1) r).bind fun k =>
        match skipBlank k.2 with
        | 58 :: r =>
          (readValue n r).bind fun v =>
            match skipBlank v.2 with
            | 44 :: r => (readMembers n r).map fun ms => ((k.1, v.1) :: ms.1, ms.2)
            | 125 :: r => some ([(k.1, v.1)], r)
            | _ => none
        | _ => none
    | _ => none

/-- The elements of an array and its closing bracket. -/
def readElements : ℕ → Text → Option (List JsonTree × Text)
  | 0, _ => none
  | n + 1, p =>
    (readValue n p).bind fun v =>
      match skipBlank v.2 with
      | 44 :: r => (readElements n r).map fun vs => (v.1 :: vs.1, vs.2)
      | 93 :: r => some ([v.1], r)
      | _ => none

end

/-- A document is one value. It cannot nest deeper than it is long. -/
def parse (t : Text) : Option JsonTree :=
  (readValue (t.length + 1) t).bind fun x => if skipBlank x.2 = [] then some x.1 else none

/-! ### Characters and their bytes -/

theorem toNat_ofNat {n : ℕ} (h : n < 0xD800) : (Char.ofNat n).toNat = n := by
  rw [Char.ofNat, dif_pos (Or.inl h)]
  rfl

/-- The UTF-8 text of a string. -/
def utf8 (s : List Char) : Text := s.flatMap String.utf8EncodeChar

/-- A character that may stand in a string as it is. -/
structure Unescaped (c : Char) : Prop where
  control : 32 ≤ c.toNat
  quote : c.toNat ≠ 34
  backslash : c.toNat ≠ 92

/-- A character of ASCII is its own byte; the bytes of the others are not in ASCII. -/
theorem utf8EncodeChar_cases (c : Char) :
    (c.toNat < 128 ∧ String.utf8EncodeChar c = [UInt8.ofNat c.toNat]) ∨
      (128 ≤ c.toNat ∧ ∀ b ∈ String.utf8EncodeChar c, 128 ≤ b.toNat) := by
  have hv : c.val.toNat = c.toNat := rfl
  unfold String.utf8EncodeChar
  simp only [hv]
  split_ifs with h1 h2 h3
  · exact Or.inl ⟨by omega, rfl⟩
  all_goals
    refine Or.inr ⟨by omega, ?_⟩
    simp
    omega

theorem utf8EncodeChar_ascii {c : Char} (h : c.toNat < 128) :
    String.utf8EncodeChar c = [UInt8.ofNat c.toNat] := by
  rcases utf8EncodeChar_cases c with ⟨-, he⟩ | ⟨hge, -⟩
  · exact he
  · omega

/-- A byte of ASCII is the whole character. -/
theorem eq_of_mem_utf8EncodeChar {c : Char} {b : Byte} (hb : b ∈ String.utf8EncodeChar c)
    (h : b.toNat < 128) : String.utf8EncodeChar c = [b] ∧ c.toNat = b.toNat := by
  rcases utf8EncodeChar_cases c with ⟨hc, he⟩ | ⟨-, hall⟩
  · rw [he] at hb
    obtain rfl := List.mem_singleton.mp hb
    have hnat : (UInt8.ofNat c.toNat).toNat = c.toNat :=
      UInt8.toNat_ofNat_of_lt' (show c.toNat < 256 by omega)
    exact ⟨he, hnat.symm⟩
  · exact absurd (hall b hb) (by omega)

theorem readChar_encode (c : Char) (r : Text) :
    readChar (String.utf8EncodeChar c ++ r) = some (c, r) := by
  have hlen : (String.utf8EncodeChar c).length = c.utf8Size := String.length_utf8EncodeChar c
  have hle : c.utf8Size ≤ 4 := c.utf8Size_le_four
  unfold readChar
  rw [List.take_append, List.take_of_length_le (by omega), List.toByteArray_append,
    ByteArray.utf8DecodeChar?_utf8EncodeChar_append, Option.map_some, ← hlen, List.drop_left]

theorem encode_of_readChar {p r : Text} {c : Char} (h : readChar p = some (c, r)) :
    p = String.utf8EncodeChar c ++ r := by
  obtain ⟨d, hd, he⟩ := Option.map_eq_some_iff.mp h
  obtain ⟨rfl, rfl⟩ := Prod.mk.inj he
  obtain ⟨l, hl⟩ := ByteArray.exists_of_utf8DecodeChar?_eq_some hd
  have hbytes : p.take 4 = String.utf8EncodeChar d ++ l.data.toList := by
    have hdata := congrArg (fun b : ByteArray => b.data.toList) hl
    simpa using hdata
  have hstarts : String.utf8EncodeChar d <+: p :=
    (List.prefix_append _ _).trans (hbytes ▸ List.take_prefix 4 p)
  have hdrop := List.prefix_iff_eq_append.mp hstarts
  rw [String.length_utf8EncodeChar] at hdrop
  exact hdrop.symm

/-! ### What a text says of a string -/

/-- A character as it may be written in a string: as it is, or longer and after a backslash. Only
the escape of a quote holds a quote. -/
inductive Item : Text → Char → Prop where
  | plain {c : Char} (h : Unescaped c) : Item (String.utf8EncodeChar c) c
  | escape {e : Text} {c : Char} (hlen : (String.utf8EncodeChar c).length < e.length + 1)
    (hquote : 34 ∈ e → e = [34] ∧ c.toNat = 34) : Item (92 :: e) c

/-- The text, between quotes, says the string. -/
inductive Spells : Text → List Char → Prop where
  | nil : Spells [] []
  | cons {raw t : Text} {c : Char} {s : List Char} (hc : Item raw c) (hs : Spells t s) :
    Spells (raw ++ t) (c :: s)

/-- A text that stands between quotes for what it is. -/
def PlainText (t : Text) : Prop := ∃ s, t = utf8 s ∧ ∀ c ∈ s, Unescaped c

theorem Unescaped.bytes {c : Char} (h : Unescaped c) : ∀ b ∈ String.utf8EncodeChar c,
    b ≠ 34 ∧ b ≠ 92 ∧ 32 ≤ b.toNat := by
  intro b hb
  by_cases hlt : b.toNat < 128
  · obtain ⟨-, hc⟩ := eq_of_mem_utf8EncodeChar hb hlt
    refine ⟨?_, ?_, hc ▸ h.control⟩
    · rintro rfl
      exact h.quote hc
    · rintro rfl
      exact h.backslash hc
  · refine ⟨?_, ?_, by omega⟩
    · rintro rfl
      exact hlt (by decide)
    · rintro rfl
      exact hlt (by decide)

/-- The bytes of a plain text. -/
theorem PlainText.bytes {t : Text} (h : PlainText t) : 34 ∉ t ∧ 92 ∉ t ∧ ∀ b ∈ t, 32 ≤ b.toNat := by
  obtain ⟨s, rfl, hs⟩ := h
  have hall : ∀ b ∈ utf8 s, b ≠ 34 ∧ b ≠ 92 ∧ 32 ≤ b.toNat := by
    intro b hb
    obtain ⟨c, hc, hb⟩ := List.mem_flatMap.mp hb
    exact (hs c hc).bytes b hb
  exact ⟨fun h => (hall 34 h).1 rfl, fun h => (hall 92 h).2.1 rfl, fun b hb => (hall b hb).2.2⟩

theorem PlainText.append {t t' : Text} (h : PlainText t) (h' : PlainText t') :
    PlainText (t ++ t') := by
  obtain ⟨s, rfl, hs⟩ := h
  obtain ⟨s', rfl, hs'⟩ := h'
  refine ⟨s ++ s', (List.flatMap_append ..).symm, fun c hc => ?_⟩
  exact (List.mem_append.mp hc).elim (hs c) (hs' c)

/-- Printable ASCII. -/
def PrintableAscii (t : Text) : Prop := ∀ b ∈ t, 32 ≤ b.toNat ∧ b.toNat < 128 ∧ b ≠ 34 ∧ b ≠ 92

instance (t : Text) : Decidable (PrintableAscii t) := List.decidableBAll _ t

theorem PrintableAscii.plain {t : Text} (h : PrintableAscii t) : PlainText t := by
  have hchar : ∀ b ∈ t, Unescaped (Char.ofNat b.toNat) ∧
      String.utf8EncodeChar (Char.ofNat b.toNat) = [b] := by
    intro b hb
    obtain ⟨h32, hlt, h34, h92⟩ := h b hb
    have hnat : (Char.ofNat b.toNat).toNat = b.toNat := toNat_ofNat (by omega)
    refine ⟨⟨by omega, fun he => h34 ?_, fun he => h92 ?_⟩, ?_⟩
    · exact UInt8.toNat_inj.mp (hnat.symm.trans he)
    · exact UInt8.toNat_inj.mp (hnat.symm.trans he)
    · rw [utf8EncodeChar_ascii (by omega), hnat, UInt8.ofNat_toNat]
  refine ⟨t.map fun b => Char.ofNat b.toNat, ?_, fun c hc => ?_⟩
  · rw [utf8, List.flatMap_map, List.flatMap_congr fun b hb => (hchar b hb).2]
    exact (List.flatMap_singleton' t).symm
  · obtain ⟨b, hb, rfl⟩ := List.mem_map.mp hc
    exact (hchar b hb).1

theorem utf8_cons (c : Char) (s : List Char) : utf8 (c :: s) = String.utf8EncodeChar c ++ utf8 s := rfl

theorem Spells.plain_or_shorter {t : Text} {s : List Char} (h : Spells t s) :
    (t = utf8 s ∧ ∀ c ∈ s, Unescaped c) ∨ (utf8 s).length < t.length := by
  induction h with
  | nil => exact Or.inl ⟨rfl, nofun⟩
  | @cons raw t c s hc hs ih =>
    rw [utf8_cons]
    simp only [List.length_append]
    cases hc with
    | plain hc =>
      rcases ih with ⟨rfl, hall⟩ | hlt
      · exact Or.inl ⟨rfl, List.forall_mem_cons.mpr ⟨hc, hall⟩⟩
      · exact Or.inr (by omega)
    | escape hlen =>
      refine Or.inr ?_
      rw [List.length_cons]
      rcases ih with ⟨rfl, -⟩ | hlt
      · omega
      · omega

/-- Without a backslash a text says itself. -/
theorem Spells.of_noBackslash {t : Text} {s : List Char} (h : Spells t s) (ht : 92 ∉ t) :
    t = utf8 s := by
  induction h with
  | nil => rfl
  | @cons raw t c s hc hs ih =>
    rw [List.mem_append, not_or] at ht
    cases hc with
    | plain hc => rw [utf8_cons, ← ih ht.2]
    | escape => exact absurd List.mem_cons_self ht.1

theorem Item.of_quote {raw : Text} {c : Char} (h : Item raw c) (hq : 34 ∈ raw) :
    raw = [92] ++ [34] ∧ c.toNat = 34 := by
  cases h with
  | plain hc => exact absurd rfl (hc.bytes 34 hq).1
  | escape hlen hquote =>
    obtain ⟨rfl, hc⟩ := hquote ((List.mem_cons.mp hq).resolve_left (by decide))
    exact ⟨rfl, hc⟩

/-- A quote inside the text is the end of its escape. -/
theorem Spells.split_quote {t r : Text} {s : List Char} (h : Spells (t ++ 34 :: r) s) :
    ∃ t' s₁ c s₂, t = t' ++ [92] ∧ s = s₁ ++ c :: s₂ ∧ c.toNat = 34 ∧ Spells r s₂ := by
  generalize hp : t ++ 34 :: r = p at h
  induction h generalizing t with
  | nil => exact absurd hp (by simp)
  | @cons raw t₂ c s hc hs ih =>
    rcases List.append_eq_append_iff.mp hp with ⟨a, rfl, ha⟩ | ⟨a, rfl, ha⟩
    · cases a with
      | nil =>
        -- the next character would begin with the quote
        obtain ⟨t', s₁, c', s₂, ht', -⟩ := @ih [] ha
        exact absurd ht' (by simp)
      | cons b a =>
        obtain ⟨rfl, hr⟩ := List.cons.inj ha
        obtain ⟨hraw, hc34⟩ := hc.of_quote (List.mem_append_right t List.mem_cons_self)
        obtain ⟨rfl, rfl⟩ : t = [92] ∧ a = [] := by
          cases t with
          | nil => exact absurd (List.cons.inj hraw).1 (by decide)
          | cons x t =>
            have htail : t ++ 34 :: a = [34] := (List.cons.inj hraw).2
            have hlen := congrArg List.length htail
            simp only [List.length_append, List.length_cons, List.length_nil] at hlen
            have ht : t = [] := List.eq_nil_of_length_eq_zero (by omega)
            have ha : a = [] := List.eq_nil_of_length_eq_zero (by omega)
            exact ⟨by rw [ht, (List.cons.inj hraw).1], ha⟩
        have hrest : r = t₂ := hr
        exact ⟨[], [], c, s, rfl, rfl, hc34, hrest ▸ hs⟩
    · obtain ⟨t', s₁, c', s₂, rfl, rfl, hc', hs₂⟩ := @ih a ha.symm
      exact ⟨raw ++ t', c :: s₁, c', s₂, (List.append_assoc ..).symm, rfl, hc', hs₂⟩

/-! ### Reading strings -/

theorem readHex_eq_some {p r : Text} {u : ℕ} (h : readHex p = some (u, r)) :
    ∃ e, p = e ++ r ∧ e.length = 4 ∧ ∀ c ∈ e, hexValue c ≠ none := by
  unfold readHex at h
  split at h
  · split at h
    · rename_i ha hb hc hd
      obtain ⟨-, rfl⟩ := Prod.mk.inj (Option.some.inj h)
      refine ⟨_, (List.append_assoc [_, _, _, _] [] _).symm, rfl, ?_⟩
      simp [ha, hb, hc, hd]
    · cases h
  · cases h

theorem quote_notMem_hex {e : Text} (he : ∀ c ∈ e, hexValue c ≠ none) : 34 ∉ e := fun h =>
  he 34 h (by decide)

theorem readUnicode_eq_some {p r : Text} {c : Char} (h : readUnicode p = some (c, r)) :
    ∃ e, p = e ++ r ∧ 4 ≤ e.length ∧ 34 ∉ e := by
  unfold readUnicode at h
  split at h
  · cases h
  · rename_i u r₁ hu
    obtain ⟨e, rfl, hlen, he⟩ := readHex_eq_some hu
    split_ifs at h
    · split at h
      · split at h
        · cases h
        · rename_i r₂ l r₃ hl
          obtain ⟨e', rfl, hlen', he'⟩ := readHex_eq_some hl
          split_ifs at h
          obtain ⟨-, rfl⟩ := Prod.mk.inj (Option.some.inj h)
          refine ⟨e ++ 92 :: 117 :: e', by simp, by simp; omega, ?_⟩
          simp [quote_notMem_hex he, quote_notMem_hex he']
      · cases h
    · obtain ⟨-, rfl⟩ := Prod.mk.inj (Option.some.inj h)
      exact ⟨e, rfl, hlen.ge, quote_notMem_hex he⟩

theorem letterValue_eq_some {b : Byte} {n : ℕ} (h : letterValue b = some n) :
    n < 128 ∧ (b = 34 → n = 34) := by
  unfold letterValue at h
  split_ifs at h with h1
  · obtain rfl := Option.some.inj h
    refine ⟨?_, fun hb => by rw [hb]; rfl⟩
    rcases h1 with rfl | rfl | rfl
    · decide
    · decide
    · decide
  all_goals
    obtain rfl := Option.some.inj h
    exact ⟨by decide, fun hb => absurd (Or.inl hb) h1⟩

theorem readEscape_eq_some {p r : Text} {c : Char} (h : readEscape p = some (c, r)) :
    ∃ e, p = e ++ r ∧ Item (92 :: e) c := by
  unfold readEscape at h
  split at h
  · cases h
  · rename_i b p
    split_ifs at h with hb
    · obtain ⟨e, rfl, hlen, he⟩ := readUnicode_eq_some h
      refine ⟨b :: e, rfl, .escape ?_ fun h34 => ?_⟩
      · have hsize := c.utf8Size_le_four
        rw [String.length_utf8EncodeChar, List.length_cons]
        omega
      · rcases List.mem_cons.mp h34 with h34 | h34
        · rw [hb] at h34
          exact absurd h34 (by decide)
        · exact absurd h34 he
    · obtain ⟨n, hn, he⟩ := Option.map_eq_some_iff.mp h
      obtain ⟨rfl, rfl⟩ := Prod.mk.inj he
      obtain ⟨hlt, hquote⟩ := letterValue_eq_some hn
      have hnat : (Char.ofNat n).toNat = n := toNat_ofNat (by omega)
      have hone : (String.utf8EncodeChar (Char.ofNat n)).length < 2 := by
        rw [utf8EncodeChar_ascii (by omega)]
        exact Nat.one_lt_two
      refine ⟨[b], rfl, .escape hone fun h34 => ?_⟩
      have hb34 := List.mem_singleton.mp h34
      exact ⟨by rw [hb34], by rw [hnat, hquote hb34.symm]⟩

theorem readItem_eq_some {p r : Text} {c : Char} (hp : p.head? ≠ some 34)
    (h : readItem p = some (c, r)) : ∃ raw, p = raw ++ r ∧ Item raw c := by
  unfold readItem at h
  split_ifs at h with hback
  · obtain ⟨e, htail, hitem⟩ := readEscape_eq_some h
    refine ⟨92 :: e, ?_, hitem⟩
    rw [List.cons_append, ← htail]
    exact (List.cons_head?_tail hback).symm
  · obtain ⟨⟨d, r'⟩, hread, hd⟩ := Option.bind_eq_some_iff.mp h
    dsimp only at hd
    split_ifs at hd with hcontrol
    obtain ⟨rfl, rfl⟩ := Prod.mk.inj (Option.some.inj hd)
    obtain rfl := encode_of_readChar hread
    refine ⟨_, rfl, .plain ⟨by omega, fun h34 => hp ?_, fun h92 => hback ?_⟩⟩
    · rw [utf8EncodeChar_ascii (by omega), h34]
      rfl
    · rw [utf8EncodeChar_ascii (by omega), h92]
      rfl

/-- **What is read is what the text says.** -/
theorem readString_eq_some : ∀ {n : ℕ} {p r : Text} {s : List Char}, readString n p = some (s, r) →
    ∃ t, p = t ++ 34 :: r ∧ Spells t s
  | 0, _, _, _, h => by cases h
  | n + 1, p, r, s, h => by
    unfold readString at h
    split_ifs at h with hquote
    · obtain ⟨rfl, rfl⟩ := Prod.mk.inj (Option.some.inj h)
      exact ⟨[], (List.cons_head?_tail hquote).symm, .nil⟩
    · obtain ⟨⟨c, r'⟩, hitem, h⟩ := Option.bind_eq_some_iff.mp h
      obtain ⟨⟨s', r''⟩, hrest, he⟩ := Option.map_eq_some_iff.mp h
      obtain ⟨rfl, rfl⟩ := Prod.mk.inj he
      obtain ⟨raw, rfl, hraw⟩ := readItem_eq_some hquote hitem
      obtain ⟨t, ht, hspells⟩ := readString_eq_some hrest
      dsimp only at ht
      exact ⟨raw ++ t, by rw [ht, List.append_assoc], .cons hraw hspells⟩

theorem readItem_plain {c : Char} (hc : Unescaped c) (r : Text) :
    (String.utf8EncodeChar c ++ r).head? ≠ some 34 ∧
      readItem (String.utf8EncodeChar c ++ r) = some (c, r) := by
  have hne : String.utf8EncodeChar c ≠ [] := by
    rw [← List.length_pos_iff, String.length_utf8EncodeChar]
    exact c.utf8Size_pos
  obtain ⟨b, bs, hb⟩ := List.exists_cons_of_ne_nil hne
  have hhead : (String.utf8EncodeChar c ++ r).head? = some b := by rw [hb]; rfl
  obtain ⟨h34, h92, -⟩ := hc.bytes b (by rw [hb]; exact List.mem_cons_self)
  have hcontrol := hc.control
  refine ⟨fun h => ?_, ?_⟩
  · exact h34 (Option.some.inj (hhead.symm.trans h))
  · unfold readItem
    rw [if_neg fun h => h92 (Option.some.inj (hhead.symm.trans h)), readChar_encode]
    exact if_neg (by dsimp only; omega)

/-- **A plain string is read as what it is.** -/
theorem readString_plain : ∀ {s : List Char} {n : ℕ} {r : Text}, (∀ c ∈ s, Unescaped c) →
    s.length < n → readString n (utf8 s ++ 34 :: r) = some (s, r)
  | [], n + 1, r, _, _ => rfl
  | c :: s, n + 1, r, hs, hn => by
    obtain ⟨hc, hs⟩ := List.forall_mem_cons.mp hs
    obtain ⟨hquote, hitem⟩ := readItem_plain hc (utf8 s ++ 34 :: r)
    have hrest := readString_plain (r := r) hs (Nat.lt_of_succ_lt_succ hn)
    rw [utf8_cons, List.append_assoc, readString, if_neg hquote, hitem, Option.bind_some, hrest]
    rfl

/-- **A text that is read back as a string was plain**, and nothing after its quote was read, if what
follows up to the next quote holds no backslash. -/
theorem plain_of_readString {n : ℕ} {t u v r : Text} {s : List Char} (hu : 92 ∉ u)
    (hv : v = [] ∨ v.head? = some 34) (h : readString n (t ++ 34 :: (u ++ v)) = some (s, r))
    (hs : utf8 s = t) : PlainText t ∧ r = u ++ v := by
  obtain ⟨t', ht', hspells⟩ := readString_eq_some h
  rcases hspells.plain_or_shorter with ⟨rfl, hplain⟩ | hlt
  · rw [hs] at ht'
    exact ⟨⟨s, hs.symm, hplain⟩, (List.cons.inj (List.append_cancel_left ht')).2.symm⟩
  -- the text goes on behind the quote, so that quote was an escape, and `t` ends in its backslash
  · exfalso
    rw [hs] at hlt
    obtain ⟨q, rfl, hq⟩ : ∃ q, t' = t ++ 34 :: q ∧ u ++ v = q ++ 34 :: r := by
      rcases List.append_eq_append_iff.mp ht' with ⟨a, rfl, ha⟩ | ⟨a, rfl, -⟩
      · cases a with
        | nil => simp at hlt
        | cons b q =>
          obtain ⟨rfl, hq⟩ := List.cons.inj ha
          exact ⟨q, rfl, hq⟩
      · simp only [List.length_append] at hlt
        omega
    obtain ⟨w, s₁, c, s₂, hw, rfl, hc, hspells'⟩ := hspells.split_quote
    have hback : 92 ∉ q := by
      rcases List.append_eq_append_iff.mp hq with ⟨a, rfl, ha⟩ | ⟨a, rfl, -⟩
      · cases a with
        | nil => simpa using hu
        | cons b a =>
          have hb : b = 34 := by
            rcases hv with rfl | hv
            · cases ha
            · rw [ha] at hv
              exact Option.some.inj hv
          rw [hb] at hspells'
          obtain ⟨u', -, -, -, rfl, -⟩ := hspells'.split_quote
          exact absurd (List.mem_append_right u' (List.mem_singleton_self 92)) hu
      · exact fun h => hu (List.mem_append_left a h)
    have htext : utf8 (s₁ ++ c :: s₂) = utf8 s₁ ++ 34 :: utf8 s₂ := by
      have hchar : String.utf8EncodeChar c = [34] := by
        rw [utf8EncodeChar_ascii (by omega), hc]
        rfl
      simp [utf8, hchar]
    have hlast : (34 :: utf8 s₂).getLast? = some 92 := by
      have h := congrArg List.getLast? (htext.symm.trans (hs.trans hw))
      rw [List.getLast?_append_of_ne_nil _ (by simp), List.getLast?_append_of_ne_nil _ (by simp)] at h
      exact h
    rcases List.mem_cons.mp (List.mem_of_getLast? hlast) with h92 | h92
    · exact absurd h92 (by decide)
    · rw [← hspells'.of_noBackslash hback] at h92
      exact hback h92

/-! ### Reading numbers -/

/-- A value in an object or array is followed by one of these. -/
def Delimited (r : Text) : Prop := ∀ c, r.head? = some c → c = 44 ∨ c = 93 ∨ c = 125

theorem readNumber_decimal (n : ℕ) {r : Text} (hr : Delimited r) :
    readNumber (decimal n ++ r) = some ((n : ℚ), r) := by
  have hdigit : ∀ c ∈ decimal n, isdigit c = true := isdigit_decimal
  have hrest : ∀ c, r.head? = some c → isdigit c = false ∧ c ≠ 46 ∧ c ≠ 101 ∧ c ≠ 69 := by
    intro c hc
    rcases hr c hc with rfl | rfl | rfl
    · decide
    · decide
    · decide
  have htake : (decimal n ++ r).takeWhile isdigit = decimal n := by
    rw [List.takeWhile_append_of_pos hdigit]
    cases r with
    | nil => simp
    | cons c r => rw [List.takeWhile_cons_of_neg (by simp [hrest c rfl]), List.append_nil]
  have hdrop : (decimal n ++ r).dropWhile isdigit = r := by
    rw [List.dropWhile_append_of_pos hdigit]
    cases r with
    | nil => rfl
    | cons c r => exact List.dropWhile_cons_of_neg (by simp [hrest c rfl])
  have hsign : (decimal n ++ r).head? ≠ some 45 := by
    rw [List.head?_append_of_ne_nil _ decimal_ne_nil]
    intro h
    exact absurd (hdigit 45 (List.mem_of_mem_head? h)) (by decide)
  have hzero : ¬ ((decimal n).head? = some 48 ∧ decimal n ≠ [48]) := by
    rintro ⟨hhead, hne⟩
    rcases Nat.eq_zero_or_pos n with rfl | hpos
    · exact hne rfl
    · exact head_decimal hpos hhead
  have hfraction : readFraction r = some ([], r) := by
    unfold readFraction
    split
    · exact absurd rfl (hrest 46 rfl).2.1
    · rfl
  have hexponent : readExponent r = some (0, r) := by
    refine if_neg ?_
    rintro (h | h)
    · exact (hrest 101 h).2.2.1 rfl
    · exact (hrest 69 h).2.2.2 rfl
  have hvalue : readDigits (decimal n ++ []) 0 = n := readDigits_decimal noDigit_nil
  unfold readNumber readUnsigned
  rw [if_neg hsign]
  simp only [htake, hdrop, if_neg (not_or.mpr ⟨decimal_ne_nil, hzero⟩), hfraction, hexponent,
    Option.bind_some, Option.map_some, hvalue]
  simp

/-! ### One step of the parser -/

theorem readValue_quote (n : ℕ) (p : Text) : readValue (n + 1) (34 :: p) =
    (readString (p.length + 1) p).map fun x => (.string x.1, x.2) := by
  rw [readValue]
  rfl

theorem readValue_decimal (n k : ℕ) {r : Text} (hr : Delimited r) :
    readValue (n + 1) (decimal k ++ r) = some (.number k, r) := by
  obtain ⟨c, cs, hc⟩ := List.exists_cons_of_ne_nil (@decimal_ne_nil k)
  have hdigit : isdigit c = true := isdigit_decimal c (by rw [hc]; exact List.mem_cons_self)
  have hbyte : ∀ b : Byte, isdigit b = false → c ≠ b := by
    rintro b hb rfl
    rw [hdigit] at hb
    cases hb
  have hskip : skipBlank (decimal k ++ r) = decimal k ++ r := by
    have hblank : isBlank c = false := by
      simp [isBlank, hbyte 32 rfl, hbyte 9 rfl, hbyte 10 rfl, hbyte 13 rfl]
    rw [hc]
    exact List.dropWhile_cons_of_neg (by simp [hblank])
  have hword : readWord (decimal k ++ r) = none := by
    have hstarts : ∀ word, word.head?.map isdigit = some false → ¬ word <+: decimal k ++ r := by
      rintro (_ | ⟨b, word⟩) hb hp
      · cases hb
      · rw [hc] at hp
        exact hbyte b (Option.some.inj hb) (List.cons_prefix_cons.mp hp).1.symm
    unfold readWord
    rw [if_neg (hstarts _ (by decide)), if_neg (hstarts _ (by decide)),
      if_neg (hstarts _ (by decide))]
  have hhead : ∀ {b : Byte} {p : Text}, decimal k ++ r = b :: p → c = b := by
    intro b p he
    rw [hc] at he
    exact (List.cons.inj he).1
  rw [readValue, hskip]
  split
  · rename_i he
    exact absurd (hhead he) (hbyte 34 rfl)
  · rename_i he
    exact absurd (hhead he) (hbyte 123 rfl)
  · rename_i he
    exact absurd (hhead he) (hbyte 91 rfl)
  · rw [hword, readNumber_decimal k hr]
    rfl

end MqttFieldBridge.Json
