import MqttFieldBridge.Json.Parse
import MqttFieldBridge.Json.Raw

/-! # What a parser reads from an object that is printed as it is

Strings that are printed without escapes are read back as what they are if and only if they need none
(`objectReadsBack_iff`, `arrayReadsBack_iff`). For the one direction the parser is followed through
the text; for the other, the first string that is not plain is read as something else, or not read at
all. -/

namespace MqttFieldBridge.Json

open MqttFieldBridge.CLib

/-- The value that is read is the one that was printed. -/
def Says : JsonTree → RawValue → Prop
  | .string s, .string t => utf8 s = t
  | .number x, .number n => x = n
  | _, _ => False

/-- A value whose string needs no escape. -/
def PlainValue (v : RawValue) : Prop := ∀ t, v = .string t → PlainText t

/-- Each member is there, and whatever has its key has its value. -/
def ReadsMembers (o : List (List Char × JsonTree)) (ms : List RawMember) : Prop :=
  ∀ m ∈ ms, (∃ p ∈ o, utf8 p.1 = m.1) ∧ ∀ p ∈ o, utf8 p.1 = m.1 → Says p.2 m.2

/-- The value is an object with these members. -/
def ReadsObject (v : JsonTree) (ms : List RawMember) : Prop := ∃ o, v = .object o ∧ ReadsMembers o ms

/-- The text is a document, an object with these members. -/
def ObjectReadsBack (t : Text) (ms : List RawMember) : Prop := ∃ v, parse t = some v ∧ ReadsObject v ms

/-- The text is a document, an array of objects with these members. -/
def ArrayReadsBack (t : Text) (os : List (List RawMember)) : Prop :=
  ∃ vs, parse t = some (.array vs) ∧ List.Forall₂ ReadsObject vs os

/-- The text goes on, up to the next quote, without a backslash. -/
def QuoteNext (r : Text) : Prop := ∃ u v, r = u ++ v ∧ 92 ∉ u ∧ (v = [] ∨ v.head? = some 34)

theorem QuoteNext.cons {r : Text} {b : Byte} (hb : b ≠ 92) (h : QuoteNext r) : QuoteNext (b :: r) := by
  obtain ⟨u, v, rfl, hu, hv⟩ := h
  exact ⟨b :: u, v, rfl, by simp [hb.symm, hu], hv⟩

theorem quoteNext_quote (r : Text) : QuoteNext (34 :: r) := ⟨[], 34 :: r, rfl, by simp, Or.inr rfl⟩

theorem quoteNext_nil : QuoteNext [] := ⟨[], [], rfl, by simp, Or.inl rfl⟩

/-! ### Values -/

variable {n : ℕ} {r : Text}

theorem text_string_append (t r : Text) : (RawValue.string t).text ++ r = 34 :: (t ++ 34 :: r) := by
  simp [RawValue.text]

theorem length_utf8 (s : List Char) : s.length ≤ (utf8 s).length := by
  induction s with
  | nil => exact le_rfl
  | cons c s ih =>
    have hpos := c.utf8Size_pos
    rw [utf8_cons, List.length_append, String.length_utf8EncodeChar, List.length_cons]
    omega

/-- A plain string between quotes. -/
theorem readString_quoted {t : Text} (ht : PlainText t) (r : Text) :
    ∃ s, readString ((t ++ 34 :: r).length + 1) (t ++ 34 :: r) = some (s, r) ∧ utf8 s = t := by
  obtain ⟨s, rfl, hs⟩ := ht
  have hlen := length_utf8 s
  refine ⟨s, readString_plain hs ?_, rfl⟩
  simp only [List.length_append]
  omega

theorem readValue_raw {v : RawValue} (hv : PlainValue v) (hr : Delimited r) :
    ∃ x, readValue (n + 1) (v.text ++ r) = some (x, r) ∧ Says x v := by
  cases v with
  | string t =>
    obtain ⟨s, hread, hs⟩ := readString_quoted (hv t rfl) r
    refine ⟨.string s, ?_, hs⟩
    rw [text_string_append, readValue_quote, hread]
    rfl
  | number k => exact ⟨.number k, readValue_decimal n k hr, rfl⟩

theorem plain_of_readValue {v : RawValue} {x : JsonTree} {r' : Text} (hr : Delimited r)
    (hquote : QuoteNext r) (h : readValue n (v.text ++ r) = some (x, r')) (hx : Says x v) :
    PlainValue v ∧ r' = r := by
  obtain ⟨n, rfl⟩ : ∃ n', n = n' + 1 := by
    cases n with
    | zero =>
      rw [readValue] at h
      cases h
    | succ n => exact ⟨n, rfl⟩
  cases v with
  | string t =>
    obtain ⟨u, w, rfl, hu, hw⟩ := hquote
    rw [text_string_append, readValue_quote] at h
    obtain ⟨⟨s, r''⟩, hread, he⟩ := Option.map_eq_some_iff.mp h
    obtain ⟨rfl, rfl⟩ := Prod.mk.inj he
    obtain ⟨ht, hrest⟩ := plain_of_readString hu hw hread hx
    exact ⟨RawValue.of_string ht, hrest⟩
  | number k =>
    rw [show (RawValue.number k).text = decimal k from rfl, readValue_decimal n k hr] at h
    exact ⟨RawValue.of_number, (Prod.mk.inj (Option.some.inj h)).2.symm⟩

/-! ### Members -/

/-- What is read after the value of a member. -/
def membersTail (n : ℕ) (k : List Char) (x : JsonTree) :
    Text → Option (List (List Char × JsonTree) × Text)
  | 44 :: r => (readMembers n r).map fun ms => ((k, x) :: ms.1, ms.2)
  | 125 :: r => some ([(k, x)], r)
  | _ => none

theorem readMembers_member {m : RawMember} (hkey : PlainText m.1) (n : ℕ) (r : Text) :
    ∃ k, utf8 k = m.1 ∧ readMembers (n + 1) (rawMemberText m ++ r) =
      (readValue n (m.2.text ++ r)).bind fun v => membersTail n k v.1 (skipBlank v.2) := by
  obtain ⟨k, hread, hk⟩ := readString_quoted hkey (58 :: (m.2.text ++ r))
  have htext : rawMemberText m ++ r = 34 :: (m.1 ++ 34 :: 58 :: (m.2.text ++ r)) := by
    simp [rawMemberText]
  have hquote : ∀ p, skipBlank (34 :: p) = 34 :: p := fun p => rfl
  have hcolon : ∀ p, skipBlank (58 :: p) = 58 :: p := fun p => rfl
  refine ⟨k, hk, ?_⟩
  rw [htext, readMembers]
  simp only [hquote, hread, Option.bind_some, hcolon]
  refine congrArg _ (funext fun v => ?_)
  unfold membersTail
  rfl

theorem mem_of_membersTail {k : List Char} {x : JsonTree} {p r' : Text}
    {o : List (List Char × JsonTree)} (h : membersTail n k x p = some (o, r')) : (k, x) ∈ o := by
  unfold membersTail at h
  split at h
  · obtain ⟨⟨o', r''⟩, -, he⟩ := Option.map_eq_some_iff.mp h
    obtain ⟨rfl, -⟩ := Prod.mk.inj he
    exact List.mem_cons_self
  · obtain ⟨rfl, -⟩ := Prod.mk.inj (Option.some.inj h)
    exact List.mem_cons_self
  · cases h

/-- The key and the value are those of the member. -/
def Matches (p : List Char × JsonTree) (m : RawMember) : Prop := utf8 p.1 = m.1 ∧ Says p.2 m.2

theorem delimited_of_head {b : Byte} (hb : b = 44 ∨ b = 93 ∨ b = 125) (r : Text) :
    Delimited (b :: r) := by
  intro c hc
  obtain rfl := Option.some.inj hc
  exact hb

theorem skipBlank_of_head {b : Byte} (hb : isBlank b = false) (r : Text) :
    skipBlank (b :: r) = b :: r := List.dropWhile_cons_of_neg (by simp [hb])

/-- The texts after the first, with commas between them. -/
theorem intercalate_append {t t' : Text} {l : List Text} (r : Text) :
    List.intercalate [44] (t :: t' :: l) ++ r =
      t ++ 44 :: (List.intercalate [44] (t' :: l) ++ r) := by
  rw [List.intercalate_cons_cons, List.append_assoc, List.append_assoc]
  rfl

theorem intercalate_head (m : RawMember) (ms : List RawMember) (r : Text) :
    ∃ p, List.intercalate [44] (rawMemberText m :: ms.map rawMemberText) ++ r = 34 :: p := by
  cases ms with
  | nil => exact ⟨_, rfl⟩
  | cons m' ms =>
    rw [List.map_cons, intercalate_append]
    exact ⟨_, rfl⟩

/-- **The members are read as they were printed** if they are plain. -/
theorem readMembers_raw : ∀ {ms : List RawMember} {n : ℕ} {r : Text}, ms ≠ [] →
    (∀ m ∈ ms, PlainText m.1 ∧ PlainValue m.2) → ms.length < n →
      ∃ o, readMembers n (List.intercalate [44] (ms.map rawMemberText) ++ 125 :: r) = some (o, r) ∧
        List.Forall₂ Matches o ms
  | [], _, _, h, _, _ => absurd rfl h
  | [m], n + 2, r, _, hms, _ => by
    obtain ⟨hkey, hvalue⟩ := hms m List.mem_cons_self
    obtain ⟨k, hk, hstep⟩ := readMembers_member hkey (n + 1) (125 :: r)
    obtain ⟨x, hread, hx⟩ := @readValue_raw n _ m.2 hvalue (delimited_of_head (Or.inr (Or.inr rfl)) r)
    refine ⟨[(k, x)], ?_, .cons ⟨hk, hx⟩ .nil⟩
    rw [List.map_cons, List.map_nil, List.intercalate_singleton, hstep, hread, Option.bind_some,
      skipBlank_of_head (by decide)]
    rfl
  | m :: m' :: ms, n + 2, r, _, hms, hn => by
    obtain ⟨hkey, hvalue⟩ := hms m List.mem_cons_self
    obtain ⟨o, hrest, ho⟩ := @readMembers_raw (m' :: ms) (n + 1) r (List.cons_ne_nil _ _)
      (fun m'' hm => hms m'' (List.mem_cons_of_mem m hm)) (Nat.lt_of_succ_lt_succ hn)
    rw [List.map_cons] at hrest
    set rest := List.intercalate [44] (rawMemberText m' :: ms.map rawMemberText) ++ 125 :: r
    obtain ⟨k, hk, hstep⟩ := readMembers_member hkey (n + 1) (44 :: rest)
    obtain ⟨x, hread, hx⟩ := @readValue_raw n _ m.2 hvalue (delimited_of_head (Or.inl rfl) rest)
    refine ⟨(k, x) :: o, ?_, .cons ⟨hk, hx⟩ ho⟩
    rw [List.map_cons, List.map_cons, intercalate_append, hstep, hread, Option.bind_some,
      skipBlank_of_head (by decide)]
    show (readMembers (n + 1) rest).map _ = _
    rw [hrest]
    rfl

/-- **The members are plain if they are read back**, and the text is read up to their end. -/
theorem plain_of_readMembers : ∀ {ms : List RawMember} {n : ℕ} {r r' : Text}
    {o : List (List Char × JsonTree)}, ms ≠ [] → (∀ m ∈ ms, PlainText m.1) → QuoteNext r →
      readMembers n (List.intercalate [44] (ms.map rawMemberText) ++ 125 :: r) = some (o, r') →
        (∀ m ∈ ms, ∀ p ∈ o, utf8 p.1 = m.1 → Says p.2 m.2) →
          (∀ m ∈ ms, PlainValue m.2) ∧ r' = r
  | [], _, _, _, _, h, _, _, _, _ => absurd rfl h
  | _ :: _, 0, _, _, _, _, _, _, h, _ => by
    rw [readMembers] at h
    cases h
  | [m], n + 1, r, r', o, _, hkeys, hquote, h, ho => by
    obtain ⟨k, hk, hstep⟩ := readMembers_member (hkeys m List.mem_cons_self) n (125 :: r)
    rw [List.map_cons, List.map_nil, List.intercalate_singleton, hstep] at h
    obtain ⟨⟨x, r₁⟩, hread, htail⟩ := Option.bind_eq_some_iff.mp h
    have hsays := ho m List.mem_cons_self (k, x) (mem_of_membersTail htail) hk
    obtain ⟨hvalue, rfl⟩ := plain_of_readValue (delimited_of_head (Or.inr (Or.inr rfl)) r)
      (hquote.cons (by decide)) hread hsays
    rw [skipBlank_of_head (by decide)] at htail
    exact ⟨fun m' hm' => List.mem_singleton.mp hm' ▸ hvalue,
      (Prod.mk.inj (Option.some.inj htail)).2.symm⟩
  | m :: m' :: ms, n + 1, r, r', o, _, hkeys, hquote, h, ho => by
    obtain ⟨hkey, hkeys'⟩ := List.forall_mem_cons.mp hkeys
    rw [List.map_cons, List.map_cons, intercalate_append] at h
    set rest := List.intercalate [44] (rawMemberText m' :: ms.map rawMemberText) ++ 125 :: r with hrest
    obtain ⟨k, hk, hstep⟩ := readMembers_member hkey n (44 :: rest)
    rw [hstep] at h
    obtain ⟨⟨x, r₁⟩, hread, htail⟩ := Option.bind_eq_some_iff.mp h
    have hsays := ho m List.mem_cons_self (k, x) (mem_of_membersTail htail) hk
    have hnext : QuoteNext rest := by
      obtain ⟨p, hp⟩ := intercalate_head m' ms (125 :: r)
      rw [hrest, hp]
      exact quoteNext_quote p
    obtain ⟨hvalue, rfl⟩ := plain_of_readValue (delimited_of_head (Or.inl rfl) rest)
      (hnext.cons (by decide)) hread hsays
    rw [skipBlank_of_head (by decide)] at htail
    obtain ⟨⟨o', r₂⟩, hread', he⟩ := Option.map_eq_some_iff.mp htail
    obtain ⟨rfl, rfl⟩ := Prod.mk.inj he
    obtain ⟨hvalues, hr⟩ := @plain_of_readMembers (m' :: ms) n r _ o' (List.cons_ne_nil _ _) hkeys'
      hquote hread' fun m'' hm p hp => ho m'' (List.mem_cons_of_mem m hm) p (List.mem_cons_of_mem _ hp)
    exact ⟨List.forall_mem_cons.mpr ⟨hvalue, hvalues⟩, hr⟩

/-! ### Objects -/

theorem readValue_brace (n : ℕ) {b : Byte} (hb : isBlank b = false) (hne : b ≠ 125) (p : Text) :
    readValue (n + 1) (123 :: b :: p) = (readMembers n (b :: p)).map fun x => (.object x.1, x.2) := by
  rw [readValue]
  have hskip : skipBlank (123 :: b :: p) = 123 :: b :: p := rfl
  simp only [hskip, skipBlank_of_head hb]
  exact if_neg fun h => hne (Option.some.inj h)

theorem rawObject_append (ms : List RawMember) (r : Text) : rawObject ms ++ r =
    123 :: (List.intercalate [44] (ms.map rawMemberText) ++ 125 :: r) := by
  simp [rawObject]

/-- An object with a member, as the parser takes it apart. -/
theorem readValue_rawObject {ms : List RawMember} (hne : ms ≠ []) (n : ℕ) (r : Text) :
    readValue (n + 1) (rawObject ms ++ r) =
      (readMembers n (List.intercalate [44] (ms.map rawMemberText) ++ 125 :: r)).map
        fun x => (.object x.1, x.2) := by
  obtain ⟨m, ms, rfl⟩ := List.exists_cons_of_ne_nil hne
  obtain ⟨p, hp⟩ := intercalate_head m ms (125 :: r)
  rw [rawObject_append, List.map_cons, hp, readValue_brace n (by decide) (by decide)]

/-- The members of an object that is printed have different keys, and none of them needs an escape. -/
structure Keyed (ms : List RawMember) : Prop where
  nonempty : ms ≠ []
  keys : ∀ m ∈ ms, PlainText m.1
  distinct : (ms.map Prod.fst).Nodup

/-- Every pair belongs to a member, and every member to a pair. -/
theorem mem_of_matches {o : List (List Char × JsonTree)} {ms : List RawMember}
    (h : List.Forall₂ Matches o ms) :
    (∀ m ∈ ms, ∃ p ∈ o, Matches p m) ∧ ∀ p ∈ o, ∃ m ∈ ms, Matches p m := by
  induction h with
  | nil => exact ⟨nofun, nofun⟩
  | @cons p m o ms hp _ ih =>
    refine ⟨List.forall_mem_cons.mpr ⟨⟨p, List.mem_cons_self, hp⟩, fun m' hm => ?_⟩,
      List.forall_mem_cons.mpr ⟨⟨m, List.mem_cons_self, hp⟩, fun p' hp' => ?_⟩⟩
    · obtain ⟨p', hp', hmatch⟩ := ih.1 m' hm
      exact ⟨p', List.mem_cons_of_mem p hp', hmatch⟩
    · obtain ⟨m', hm, hmatch⟩ := ih.2 p' hp'
      exact ⟨m', List.mem_cons_of_mem m hm, hmatch⟩

theorem readsMembers_of_matches {o : List (List Char × JsonTree)} {ms : List RawMember}
    (hkeys : (ms.map Prod.fst).Nodup) (h : List.Forall₂ Matches o ms) : ReadsMembers o ms := by
  obtain ⟨hmembers, hpairs⟩ := mem_of_matches h
  intro m hm
  refine ⟨?_, fun p hp hkey => ?_⟩
  · obtain ⟨p, hp, hmatch⟩ := hmembers m hm
    exact ⟨p, hp, hmatch.1⟩
  · obtain ⟨m', hm', hmatch⟩ := hpairs p hp
    obtain rfl := List.inj_on_of_nodup_map hkeys hm hm' (hkey.symm.trans hmatch.1)
    exact hmatch.2

theorem readValue_object {ms : List RawMember} (h : Keyed ms) (hplain : ∀ m ∈ ms, PlainValue m.2)
    (hn : ms.length + 1 < n) :
    ∃ v, readValue n (rawObject ms ++ r) = some (v, r) ∧ ReadsObject v ms := by
  obtain ⟨n, rfl⟩ := Nat.exists_eq_add_one_of_ne_zero (Nat.ne_zero_of_lt hn)
  obtain ⟨o, hread, ho⟩ := @readMembers_raw ms n r h.nonempty
    (fun m hm => ⟨h.keys m hm, hplain m hm⟩) (by omega)
  refine ⟨.object o, ?_, o, rfl, readsMembers_of_matches h.distinct ho⟩
  rw [readValue_rawObject h.nonempty, hread]
  rfl

theorem plain_of_readObject {ms : List RawMember} {v : JsonTree} {r' : Text} (h : Keyed ms)
    (hquote : QuoteNext r) (hread : readValue n (rawObject ms ++ r) = some (v, r'))
    (hv : ReadsObject v ms) : (∀ m ∈ ms, PlainValue m.2) ∧ r' = r := by
  cases n with
  | zero =>
    rw [readValue] at hread
    cases hread
  | succ n =>
    rw [readValue_rawObject h.nonempty] at hread
    obtain ⟨⟨o, r''⟩, hmembers, he⟩ := Option.map_eq_some_iff.mp hread
    obtain ⟨rfl, rfl⟩ := Prod.mk.inj he
    obtain ⟨o', ho, hreads⟩ := hv
    obtain rfl := JsonTree.object.inj ho
    exact plain_of_readMembers h.nonempty h.keys hquote hmembers fun m hm => (hreads m hm).2

/-- There is a byte for each member. -/
theorem length_le_intercalate : ∀ l : List Text, ∀ t ∈ l,
    t.length + l.length ≤ (List.intercalate [44] l).length + 1
  | [], t, h => absurd h (by simp)
  | [t'], t, h => by
    obtain rfl := List.mem_singleton.mp h
    simp
  | t' :: t'' :: l, t, h => by
    have hrest := length_le_intercalate (t'' :: l)
    rw [List.intercalate_cons_cons]
    simp only [List.length_append, List.length_cons, List.length_nil] at hrest ⊢
    rcases List.mem_cons.mp h with rfl | h
    · have := hrest t'' List.mem_cons_self
      omega
    · have := hrest t h
      omega

theorem length_lt_rawObject {ms : List RawMember} (hne : ms ≠ []) :
    ms.length + 1 ≤ (rawObject ms).length := by
  obtain ⟨m, ms, rfl⟩ := List.exists_cons_of_ne_nil hne
  have h := length_le_intercalate ((m :: ms).map rawMemberText) _ List.mem_cons_self
  unfold rawObject
  simp only [List.length_append, List.length_cons, List.length_map, List.length_nil] at h ⊢
  omega

/-- **An object is read back if and only if its strings are plain.** -/
theorem objectReadsBack_iff {ms : List RawMember} (h : Keyed ms) :
    ObjectReadsBack (rawObject ms) ms ↔ ∀ m ∈ ms, PlainValue m.2 := by
  have hlen := length_lt_rawObject h.nonempty
  constructor
  · rintro ⟨v, hparse, hv⟩
    obtain ⟨⟨x, r⟩, hread, he⟩ := Option.bind_eq_some_iff.mp hparse
    split_ifs at he
    obtain rfl := Option.some.inj he
    rw [← List.append_nil (rawObject ms)] at hread
    exact (plain_of_readObject h quoteNext_nil hread hv).1
  · intro hplain
    obtain ⟨v, hread, hv⟩ := @readValue_object ((rawObject ms).length + 1) [] ms h hplain (by omega)
    rw [List.append_nil] at hread
    refine ⟨v, ?_, hv⟩
    rw [parse, hread]
    rfl

/-! ### Arrays -/

/-- What is read after an element. -/
def elementsTail (n : ℕ) (x : JsonTree) : Text → Option (List JsonTree × Text)
  | 44 :: r => (readElements n r).map fun vs => (x :: vs.1, vs.2)
  | 93 :: r => some ([x], r)
  | _ => none

theorem head_of_elementsTail {x : JsonTree} {p r' : Text} {vs : List JsonTree}
    (h : elementsTail n x p = some (vs, r')) : vs.head? = some x := by
  unfold elementsTail at h
  split at h
  · obtain ⟨⟨vs', r''⟩, -, he⟩ := Option.map_eq_some_iff.mp h
    obtain ⟨rfl, -⟩ := Prod.mk.inj he
    rfl
  · obtain ⟨rfl, -⟩ := Prod.mk.inj (Option.some.inj h)
    rfl
  · cases h

theorem readElements_succ (n : ℕ) (p : Text) : readElements (n + 1) p =
    (readValue n p).bind fun v => elementsTail n v.1 (skipBlank v.2) := by
  rw [readElements]
  refine congrArg _ (funext fun v => ?_)
  unfold elementsTail
  rfl

theorem rawObject_head {ms : List RawMember} (hne : ms ≠ []) (r : Text) :
    ∃ p, rawObject ms ++ r = 123 :: 34 :: p := by
  obtain ⟨m, ms, rfl⟩ := List.exists_cons_of_ne_nil hne
  obtain ⟨p, hp⟩ := intercalate_head m ms (125 :: r)
  exact ⟨p, by rw [rawObject_append, List.map_cons, hp]⟩

/-- What follows the first object of an array begins with a brace and a quote. -/
theorem elements_head {ms : List RawMember} (hne : ms ≠ []) (os : List (List RawMember)) (r : Text) :
    ∃ p, List.intercalate [44] (rawObject ms :: os.map rawObject) ++ r = 123 :: 34 :: p := by
  cases os with
  | nil =>
    rw [List.map_nil, List.intercalate_singleton]
    exact rawObject_head hne r
  | cons ms' os =>
    rw [List.map_cons, intercalate_append]
    exact rawObject_head hne _

theorem readElements_raw : ∀ {os : List (List RawMember)} {n : ℕ} {r : Text}, os ≠ [] →
    (∀ ms ∈ os, Keyed ms ∧ ∀ m ∈ ms, PlainValue m.2) → (∀ ms ∈ os, ms.length + os.length + 1 < n) →
      ∃ vs, readElements n (List.intercalate [44] (os.map rawObject) ++ 93 :: r) = some (vs, r) ∧
        List.Forall₂ ReadsObject vs os
  | [], _, _, h, _, _ => absurd rfl h
  | ms :: _, 0, _, _, _, hn => absurd (hn ms List.mem_cons_self) (Nat.not_lt_zero _)
  | [ms], n + 1, r, _, hos, hn => by
    obtain ⟨hkeyed, hplain⟩ := hos ms List.mem_cons_self
    have hfuel : ms.length + 1 < n := by simpa using hn ms List.mem_cons_self
    obtain ⟨v, hread, hv⟩ := @readValue_object n (93 :: r) ms hkeyed hplain hfuel
    refine ⟨[v], ?_, .cons hv .nil⟩
    rw [List.map_cons, List.map_nil, List.intercalate_singleton, readElements_succ, hread,
      Option.bind_some, skipBlank_of_head (by decide)]
    rfl
  | ms :: ms' :: os, n + 1, r, _, hos, hn => by
    obtain ⟨hkeyed, hplain⟩ := hos ms List.mem_cons_self
    have hfuel : ms.length + 1 < n := by
      have h := hn ms List.mem_cons_self
      simp only [List.length_cons] at h
      omega
    obtain ⟨vs, hrest, hvs⟩ := @readElements_raw (ms' :: os) n r (List.cons_ne_nil _ _)
      (fun ms'' h => hos ms'' (List.mem_cons_of_mem ms h)) fun ms'' h => by
        have h := hn ms'' (List.mem_cons_of_mem ms h)
        simp only [List.length_cons] at h ⊢
        omega
    rw [List.map_cons] at hrest
    set rest := List.intercalate [44] (rawObject ms' :: os.map rawObject) ++ 93 :: r
    obtain ⟨v, hread, hv⟩ := @readValue_object n (44 :: rest) ms hkeyed hplain hfuel
    refine ⟨v :: vs, ?_, .cons hv hvs⟩
    rw [List.map_cons, List.map_cons, intercalate_append, readElements_succ, hread, Option.bind_some,
      skipBlank_of_head (by decide)]
    show (readElements n rest).map _ = _
    rw [hrest]
    rfl

theorem plain_of_readElements : ∀ {os : List (List RawMember)} {n : ℕ} {r r' : Text}
    {vs : List JsonTree}, (∀ ms ∈ os, Keyed ms) → QuoteNext r →
      readElements n (List.intercalate [44] (os.map rawObject) ++ 93 :: r) = some (vs, r') →
        List.Forall₂ ReadsObject vs os → ∀ ms ∈ os, ∀ m ∈ ms, PlainValue m.2
  | [], _, _, _, _, _, _, _, _ => nofun
  | _ :: _, 0, _, _, _, _, _, h, _ => by
    rw [readElements] at h
    cases h
  | [ms], n + 1, r, r', _, hkeyed, hquote, h, .cons hv _ => by
    rw [List.map_cons, List.map_nil, List.intercalate_singleton, readElements_succ] at h
    obtain ⟨⟨x, r₁⟩, hread, htail⟩ := Option.bind_eq_some_iff.mp h
    obtain rfl := Option.some.inj (head_of_elementsTail htail)
    have hplain := (plain_of_readObject (hkeyed ms List.mem_cons_self) (hquote.cons (by decide))
      hread hv).1
    exact fun ms' hms => List.mem_singleton.mp hms ▸ hplain
  | ms :: ms' :: os, n + 1, r, r', _, hkeyed, hquote, h, .cons hv hvs => by
    obtain ⟨hfirst, hkeyed'⟩ := List.forall_mem_cons.mp hkeyed
    rw [List.map_cons, List.map_cons, intercalate_append, readElements_succ] at h
    set rest := List.intercalate [44] (rawObject ms' :: os.map rawObject) ++ 93 :: r with hrest
    obtain ⟨⟨x, r₁⟩, hread, htail⟩ := Option.bind_eq_some_iff.mp h
    obtain rfl := Option.some.inj (head_of_elementsTail htail)
    have hnext : QuoteNext rest := by
      obtain ⟨p, hp⟩ := elements_head (hkeyed' ms' List.mem_cons_self).nonempty os (93 :: r)
      rw [hrest, hp]
      exact (quoteNext_quote p).cons (by decide)
    obtain ⟨hplain, rfl⟩ := plain_of_readObject hfirst (hnext.cons (by decide)) hread hv
    rw [skipBlank_of_head (by decide)] at htail
    obtain ⟨⟨vs', r₂⟩, hread', he⟩ := Option.map_eq_some_iff.mp htail
    obtain ⟨hvs', rfl⟩ := Prod.mk.inj he
    obtain rfl := (List.cons.inj hvs').2
    exact List.forall_mem_cons.mpr ⟨hplain, plain_of_readElements hkeyed' hquote hread' hvs⟩

theorem readValue_bracket (n : ℕ) {b : Byte} (hb : isBlank b = false) (hne : b ≠ 93) (p : Text) :
    readValue (n + 1) (91 :: b :: p) = (readElements n (b :: p)).map fun x => (.array x.1, x.2) := by
  rw [readValue]
  have hskip : skipBlank (91 :: b :: p) = 91 :: b :: p := rfl
  simp only [hskip, skipBlank_of_head hb]
  exact if_neg fun h => hne (Option.some.inj h)

theorem readValue_rawArray {os : List (List RawMember)} (hne : os ≠ []) (hos : ∀ ms ∈ os, ms ≠ [])
    (n : ℕ) : readValue (n + 1) (rawArray os) =
      (readElements n (List.intercalate [44] (os.map rawObject) ++ 93 :: [])).map
        fun x => (.array x.1, x.2) := by
  obtain ⟨ms, os, rfl⟩ := List.exists_cons_of_ne_nil hne
  obtain ⟨p, hp⟩ := elements_head (hos ms List.mem_cons_self) os (93 :: [])
  have htext : rawArray (ms :: os) = 91 :: 123 :: 34 :: p := by
    rw [← hp]
    rfl
  rw [htext, List.map_cons, hp, readValue_bracket n (by decide) (by decide)]

/-- **An array is read back if and only if its strings are plain.** -/
theorem arrayReadsBack_iff {os : List (List RawMember)} (hne : os ≠ []) (hos : ∀ ms ∈ os, Keyed ms) :
    ArrayReadsBack (rawArray os) os ↔ ∀ ms ∈ os, ∀ m ∈ ms, PlainValue m.2 := by
  have hstep := readValue_rawArray hne (fun ms h => (hos ms h).nonempty) (rawArray os).length
  constructor
  · rintro ⟨vs, hparse, hvs⟩
    obtain ⟨⟨x, r⟩, hread, he⟩ := Option.bind_eq_some_iff.mp hparse
    split_ifs at he
    obtain rfl := Option.some.inj he
    rw [hstep] at hread
    obtain ⟨⟨vs', r'⟩, helements, he⟩ := Option.map_eq_some_iff.mp hread
    obtain ⟨hvs', -⟩ := Prod.mk.inj he
    obtain rfl := JsonTree.array.inj hvs'
    exact plain_of_readElements hos quoteNext_nil helements hvs
  · intro hplain
    have hfuel : ∀ ms ∈ os, ms.length + os.length + 1 < (rawArray os).length := by
      intro ms hms
      have h1 := length_lt_rawObject (hos ms hms).nonempty
      have h2 := length_le_intercalate (os.map rawObject) _ (List.mem_map_of_mem hms)
      unfold rawArray
      simp only [List.length_append, List.length_cons, List.length_map, List.length_nil] at h2 ⊢
      omega
    obtain ⟨vs, hread, hvs⟩ := @readElements_raw os (rawArray os).length [] hne
      (fun ms h => ⟨hos ms h, hplain ms h⟩) hfuel
    refine ⟨vs, ?_, hvs⟩
    rw [parse, hstep, hread]
    rfl

end MqttFieldBridge.Json
