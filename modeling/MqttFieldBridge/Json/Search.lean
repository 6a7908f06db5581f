import MqttFieldBridge.Json.Value

/-! # Searching the text of an object for a key

A quoted key stands in the text of an object where the key is a member, where a string is the key,
and where a key or a string ends in a quote followed by it, since that quote is escaped with a
backslash before it. Nowhere else (`passes_member`), so a search finds the member unless one of the
members before it is of that kind (`strstr_stringify`). -/

namespace MqttFieldBridge.Json

open MqttFieldBridge.CLib

/-- A digit, an underscore or a small letter. -/
def KeyByte (c : Byte) : Prop :=
  (48 ≤ c.toNat ∧ c.toNat ≤ 57) ∨ (95 ≤ c.toNat ∧ c.toNat ≤ 122)

instance (c : Byte) : Decidable (KeyByte c) := by unfold KeyByte; infer_instance

theorem KeyByte.printable {c : Byte} (h : KeyByte c) : 32 ≤ c.toNat := by
  unfold KeyByte at h
  omega

/-- A key of such bytes. -/
structure KeyText (k : Text) : Prop where
  nonempty : k ≠ []
  letters : ∀ c ∈ k, KeyByte c

instance (k : Text) : Decidable (KeyText k) :=
  decidable_of_iff (k ≠ [] ∧ k.all (fun c => KeyByte c))
    ⟨fun h => ⟨h.1, by simpa using h.2⟩, fun h => ⟨h.nonempty, by simpa using h.letters⟩⟩

/-- The string ends in a quote followed by the key. -/
def EndsInKey (k : Text) (s : JsonString) : Prop := (.byte 34 :: plain k) <:+ s

/-- The text of the member holds the quoted key inside a string. -/
def Shadows (k : Text) (m : Member) : Prop :=
  EndsInKey k m.1 ∨ ∃ s, m.2 = .string s ∧ EndsInKey k s

/-- One of the members does. -/
def Shadowed (k : Text) (ms : List Member) : Prop := ∃ m ∈ ms, Shadows k m

instance (k : Text) (s : JsonString) : Decidable (EndsInKey k s) := by
  unfold EndsInKey; infer_instance

instance (k : Text) (m : Member) : Decidable (Shadows k m) :=
  match hm : m.2 with
  | .string s => decidable_of_iff (EndsInKey k m.1 ∨ EndsInKey k s) (by simp [Shadows, hm])
  | .null => decidable_of_iff (EndsInKey k m.1) (by simp [Shadows, hm])
  | .bool _ => decidable_of_iff (EndsInKey k m.1) (by simp [Shadows, hm])
  | .number _ => decidable_of_iff (EndsInKey k m.1) (by simp [Shadows, hm])

instance (k : Text) (ms : List Member) : Decidable (Shadowed k ms) := by
  unfold Shadowed; infer_instance

/-! ### Texts without the needle -/

/-- The needle starts nowhere in `a`, if the text goes on with `b`. -/
def Passes (needle a b : Text) : Prop := ∀ p q, a = p ++ q → q ≠ [] → ¬ needle <+: q ++ b

variable {needle a a' b k t : Text}

theorem strstr_of_passes (h : Passes needle a b) : strstr (a ++ b) needle = strstr b needle :=
  strstr_append h

theorem passes_nil : Passes needle [] b := fun _ _ e hq =>
  absurd (List.append_eq_nil_iff.mp e.symm).2 hq

theorem passes_cons {c : Byte} (hc : ¬ needle <+: c :: (a ++ b)) (h : Passes needle a b) :
    Passes needle (c :: a) b := by
  intro p q e hq
  cases p with
  | nil =>
    rw [List.nil_append] at e
    subst e
    exact hc
  | cons d p =>
    rw [List.cons_append] at e
    exact h p q (List.cons.inj e).2 hq

theorem passes_append (h : Passes needle a (a' ++ b)) (h' : Passes needle a' b) :
    Passes needle (a ++ a') b := by
  induction a with
  | nil => exact h'
  | cons c a ih =>
    have hc : ¬ needle <+: c :: (a ++ (a' ++ b)) := by
      simpa using h [] (c :: a) rfl (by simp)
    have ha : Passes needle a (a' ++ b) := fun p q e hq => h (c :: p) q (by rw [e]; rfl) hq
    rw [List.cons_append]
    refine passes_cons ?_ (ih ha)
    rwa [List.append_assoc]

/-- The needle does not start where there is no quote. -/
theorem passes_of_notMem (h : 34 ∉ a) : Passes (34 :: t) a b := by
  induction a with
  | nil => exact passes_nil
  | cons c a ih =>
    rw [List.mem_cons, not_or] at h
    refine passes_cons (fun hp => ?_) (ih h.2)
    exact h.1 (List.cons_prefix_cons.mp hp).1

/-! ### Quoted keys in strings -/

theorem escape_cons (u : JsonChar) (s : JsonString) :
    escape (u :: s) = escapeChar u ++ escape s := rfl

/-- A unit is written as itself, or its text begins with a backslash. -/
theorem escapeChar_cases (u : JsonChar) :
    (∃ c, u = .byte c ∧ escapeChar u = [c] ∧ c ≠ 34) ∨
      ∃ r, escapeChar u = 92 :: r ∧ ∀ c, KeyByte c → u ≠ .byte c := by
  have hesc := escaped_escapeChar u
  generalize he : escapeChar u = e at hesc
  cases hesc with
  | @raw c hquote => exact Or.inl ⟨c, rfl, rfl, hquote⟩
  | quote =>
    refine Or.inr ⟨_, rfl, fun c hc e => ?_⟩
    obtain rfl := JsonChar.byte.inj e
    exact absurd hc (by decide)
  | backslash =>
    refine Or.inr ⟨_, rfl, fun c hc e => ?_⟩
    obtain rfl := JsonChar.byte.inj e
    exact absurd hc (by decide)
  | coded hu =>
    refine Or.inr ⟨_, rfl, fun c hc e => ?_⟩
    have hlow := hu c e
    have hprint := hc.printable
    omega

/-- A text begins with a quote that is not escaped only if its string is over. -/
theorem quote_prefix_iff {s : JsonString} : [34] <+: escape s ++ 34 :: b ↔ s = [] := by
  cases s with
  | nil => exact ⟨fun _ => rfl, fun _ => ⟨b, rfl⟩⟩
  | cons u s =>
    refine ⟨fun h => ?_, fun h => (by cases h)⟩
    rw [escape_cons] at h
    rcases escapeChar_cases u with ⟨c, -, hraw, hquote⟩ | ⟨r, hback, -⟩
    · rw [hraw] at h
      exact absurd (List.cons_prefix_cons.mp h).1.symm hquote
    · rw [hback] at h
      exact absurd (List.cons_prefix_cons.mp h).1 (by decide)

/-- A text begins with a byte of a key only if its string does. -/
theorem keyByte_prefix_iff {x : Byte} (hx : KeyByte x) {s : JsonString} :
    x :: k <+: escape s ++ 34 :: b ↔ ∃ s', s = .byte x :: s' ∧ k <+: escape s' ++ 34 :: b := by
  have hx34 : x ≠ 34 := fun e => by rw [e] at hx; exact absurd hx (by decide)
  have hx92 : x ≠ 92 := fun e => by rw [e] at hx; exact absurd hx (by decide)
  cases s with
  | nil => exact ⟨fun h => absurd (List.cons_prefix_cons.mp h).1 hx34, fun ⟨_, h, _⟩ => (by cases h)⟩
  | cons u s =>
    rw [escape_cons]
    rcases escapeChar_cases u with ⟨c, rfl, hraw, -⟩ | ⟨r, hback, hu⟩
    · rw [hraw]
      constructor
      · intro h
        obtain ⟨rfl, hrest⟩ := List.cons_prefix_cons.mp h
        exact ⟨s, rfl, hrest⟩
      · rintro ⟨s', h, hrest⟩
        obtain ⟨hc, rfl⟩ := List.cons.inj h
        exact List.cons_prefix_cons.mpr ⟨(JsonChar.byte.inj hc).symm, hrest⟩
    · rw [hback]
      constructor
      · exact fun h => absurd (List.cons_prefix_cons.mp h).1 hx92
      · rintro ⟨s', h, -⟩
        exact absurd (List.cons.inj h).1 (hu x hx)

/-- What stands before a quote that is not escaped is the key only if the string is. -/
theorem key_prefix_iff (hk : ∀ c ∈ k, KeyByte c) : ∀ s : JsonString,
    k ++ [34] <+: escape s ++ 34 :: b ↔ s = plain k := by
  induction k with
  | nil => exact fun s => quote_prefix_iff
  | cons x k ih =>
    intro s
    have hrest := ih fun c hc => hk c (List.mem_cons_of_mem x hc)
    rw [List.cons_append, keyByte_prefix_iff (hk x List.mem_cons_self)]
    constructor
    · rintro ⟨s', rfl, h⟩
      rw [(hrest s').mp h]
      rfl
    · rintro rfl
      exact ⟨plain k, rfl, (hrest _).mpr rfl⟩

/-- The text does not go on with a letter. -/
def Ends (b : Text) : Prop := b.head? = some 58 ∨ b.head? = some 44 ∨ b.head? = some 125

theorem not_key_prefix_of_ends (hk : KeyText k) (hb : Ends b) : ¬ k ++ [34] <+: b := by
  intro h
  obtain ⟨x, k', rfl⟩ := List.exists_cons_of_ne_nil hk.nonempty
  have hx := hk.letters x List.mem_cons_self
  cases b with
  | nil => rcases hb with hb | hb | hb <;> cases hb
  | cons c b =>
    obtain rfl := (List.cons_prefix_cons.mp h).1
    rcases hb with hb | hb | hb <;>
      · obtain rfl := Option.some.inj hb
        exact absurd hx (by decide)

theorem escape_plain {k : Text} (hk : ∀ c ∈ k, KeyByte c) : escape (plain k) = k := by
  induction k with
  | nil => rfl
  | cons x k ih =>
    have hrest := ih fun c hc => hk c (List.mem_cons_of_mem x hc)
    have hcons : plain (x :: k) = .byte x :: plain k := rfl
    rw [hcons, escape_cons, hrest]
    rcases escapeChar_cases (.byte x) with ⟨c, hc, hraw, -⟩ | ⟨r, -, hu⟩
    · rw [hraw, JsonChar.byte.inj hc]
      rfl
    · exact absurd rfl (hu x (hk x List.mem_cons_self))

/-- A unit is passed over, unless it is the quote before the key at the end. -/
theorem passes_escapeChar (hk : KeyText k) {u : JsonChar} {s : JsonString}
    (h : u = .byte 34 → s ≠ plain k) :
    Passes (34 :: (k ++ [34])) (escapeChar u) (escape s ++ 34 :: b) := by
  have hesc := escaped_escapeChar u
  generalize he : escapeChar u = e at hesc
  cases hesc with
  | raw hquote => exact passes_of_notMem (by simpa using hquote.symm)
  | quote =>
    refine passes_cons (fun hp => ?_) (passes_cons (fun hp => ?_) passes_nil)
    · exact absurd (List.cons_prefix_cons.mp hp).1 (by decide)
    · have hkey : k ++ [34] <+: escape s ++ 34 :: b := (List.cons_prefix_cons.mp hp).2
      exact h rfl ((key_prefix_iff hk.letters s).mp hkey)
  | backslash => exact passes_of_notMem (by decide)
  | coded hu hr =>
    refine passes_of_notMem fun hmem => ?_
    rcases List.mem_cons.mp hmem with hmem | hmem
    · exact absurd hmem (by decide)
    · exact absurd (hr 34 hmem) (by decide)

theorem passes_escape (hk : KeyText k) (hb : Ends b) : ∀ s : JsonString, ¬ EndsInKey k s →
    Passes (34 :: (k ++ [34])) (escape s ++ [34]) b
  | [], _ => by
    refine passes_cons (fun h => ?_) passes_nil
    exact not_key_prefix_of_ends hk hb (List.cons_prefix_cons.mp h).2
  | u :: s, h => by
    have hrest := passes_escape hk hb s fun hs => h (hs.trans (List.suffix_cons u s))
    have hunit : Passes (34 :: (k ++ [34])) (escapeChar u) (escape s ++ 34 :: b) := by
      refine passes_escapeChar hk fun hu hs => h ?_
      rw [hu, hs]
      exact List.suffix_refl _
    rw [escape_cons, List.append_assoc]
    refine passes_append ?_ hrest
    rwa [List.append_assoc, List.singleton_append]

/-- In a string that ends in a quote and the key, the quoted key is found at the end. -/
theorem strstr_escape (hk : KeyText k) : ∀ s : JsonString, EndsInKey k s →
    strstr (escape s ++ 34 :: b) (34 :: (k ++ [34])) = some (34 :: (k ++ [34]) ++ b)
  | [], h => absurd (List.suffix_nil.mp h) (List.cons_ne_nil _ _)
  | u :: s, h => by
    rw [escape_cons, List.append_assoc]
    rcases List.suffix_cons_iff.mp h with he | hs
    · obtain ⟨rfl, rfl⟩ := List.cons.inj he
      have htext : escapeChar (.byte 34) ++ (escape (plain k) ++ 34 :: b) =
          [92] ++ (34 :: (k ++ [34]) ++ b) := by
        rw [escape_plain hk.letters]
        simp [escapeChar, escapeByte, escapeLetter]
      rw [htext, strstr_of_passes (passes_of_notMem (by decide))]
      exact strstr_of_prefix (List.prefix_append _ _)
    · have hne : s ≠ plain k := by
        intro e
        have hlen := hs.length_le
        rw [e, List.length_cons] at hlen
        omega
      rw [strstr_of_passes (passes_escapeChar hk fun _ => hne)]
      exact strstr_escape hk s hs

/-- A string that is the key or ends in a quote and the key has the quoted key at its end. -/
theorem strstr_quoted (hk : KeyText k) {s : JsonString} (h : s = plain k ∨ EndsInKey k s) :
    strstr (quoted s ++ b) (34 :: (k ++ [34])) = some (34 :: (k ++ [34]) ++ b) := by
  have htext : quoted s ++ b = 34 :: (escape s ++ 34 :: b) := by simp [quoted]
  rw [htext]
  by_cases hs : s = plain k
  · rw [hs, escape_plain hk.letters]
    have hneedle : 34 :: (k ++ 34 :: b) = 34 :: (k ++ [34]) ++ b := by simp
    rw [hneedle]
    exact strstr_of_prefix (List.prefix_append _ _)
  · have hopen : Passes (34 :: (k ++ [34])) [34] (escape s ++ 34 :: b) := by
      refine passes_cons (fun hp => hs ?_) passes_nil
      exact (key_prefix_iff hk.letters s).mp (List.cons_prefix_cons.mp hp).2
    exact (strstr_of_passes hopen).trans (strstr_escape hk s (h.resolve_left hs))

theorem passes_quoted (hk : KeyText k) (hb : Ends b) {s : JsonString} (hs : s ≠ plain k)
    (h : ¬ EndsInKey k s) : Passes (34 :: (k ++ [34])) (quoted s) b := by
  have hopen : ¬ 34 :: (k ++ [34]) <+: 34 :: ((escape s ++ [34]) ++ b) := fun hp => by
    have hkey := (List.cons_prefix_cons.mp hp).2
    rw [List.append_assoc, List.singleton_append, key_prefix_iff hk.letters] at hkey
    exact hs hkey
  exact passes_cons hopen (passes_escape hk hb s h)

theorem passes_value (hk : KeyText k) (hb : Ends b) {v : JsonValue} (hv : v ≠ .string (plain k))
    (h : ∀ s, v = .string s → ¬ EndsInKey k s) : Passes (34 :: (k ++ [34])) (valueText v) b := by
  cases v with
  | null => exact passes_of_notMem (by decide)
  | bool b =>
    cases b with
    | true => exact passes_of_notMem (by decide)
    | false => exact passes_of_notMem (by decide)
  | number x => exact passes_of_notMem (quote_notMem_text x)
  | string s => exact passes_quoted hk hb (fun e => hv (e ▸ rfl)) (h s rfl)

/-- A member with another key, and its comma. -/
theorem passes_member (hk : KeyText k) {m : Member} (hkey : m.1 ≠ plain k)
    (hvalue : m.2 ≠ .string (plain k)) (h : ¬ Shadows k m) :
    Passes (34 :: (k ++ [34])) (memberText m ++ [44]) b := by
  rw [Shadows, not_or] at h
  have hcomma : Passes (34 :: (k ++ [34])) [44] b := passes_of_notMem (by decide)
  have hval : Passes (34 :: (k ++ [34])) (valueText m.2) ([44] ++ b) :=
    passes_value hk (Or.inr (Or.inl rfl)) hvalue fun s hs he => h.2 ⟨s, hs, he⟩
  have hcolon : Passes (34 :: (k ++ [34])) (58 :: valueText m.2) ([44] ++ b) :=
    passes_cons (fun hp => absurd (List.cons_prefix_cons.mp hp).1 (by decide)) hval
  have hname : Passes (34 :: (k ++ [34])) (quoted m.1) (58 :: valueText m.2 ++ ([44] ++ b)) :=
    passes_quoted hk (Or.inl rfl) hkey h.1
  exact passes_append (passes_append hname hcolon) hcomma

/-! ### Searching an object -/

/-- Texts with commas between them, from one of them on: the texts before it and the text after it. -/
theorem intercalate_split (t : Text) (after : List Text) : ∀ before : List Text,
    ∃ rest, List.intercalate [44] (before ++ t :: after) ++ [125] =
      before.flatMap (· ++ [44]) ++ (t ++ rest) ∧
        (rest.head? = some 44 ∨ rest.head? = some 125)
  | [] => by
    cases after with
    | nil => exact ⟨[125], by simp, Or.inr rfl⟩
    | cons t' after =>
      refine ⟨44 :: List.intercalate [44] (t' :: after) ++ [125], ?_, Or.inl rfl⟩
      simp [List.intercalate]
  | t' :: before => by
    obtain ⟨rest, h, hrest⟩ := intercalate_split t after before
    refine ⟨rest, ?_, hrest⟩
    have hne : before ++ t :: after ≠ [] := List.append_ne_nil_of_right_ne_nil before nofun
    rw [List.cons_append, List.intercalate_cons_of_ne_nil hne, List.append_assoc, h,
      List.flatMap_cons, List.append_assoc]
    simp

theorem membersText_eq : ∀ ms : List Member,
    membersText ms = List.intercalate [44] (ms.map memberText)
  | [] => rfl
  | [m] => by simp [membersText]
  | m :: m' :: ms => by
    have hcons : membersText (m :: m' :: ms) = memberText m ++ 44 :: membersText (m' :: ms) := rfl
    rw [hcons, membersText_eq (m' :: ms)]
    simp only [List.map_cons, List.intercalate_cons_cons, List.append_assoc, List.singleton_append]

/-- The text of the members from one of them on. -/
theorem membersText_split (m : Member) (after before : List Member) :
    ∃ rest, membersText (before ++ m :: after) ++ [125] =
      before.flatMap (fun m => memberText m ++ [44]) ++ (memberText m ++ rest) ∧
        (rest.head? = some 44 ∨ rest.head? = some 125) := by
  obtain ⟨rest, h, hrest⟩ := intercalate_split (memberText m) (after.map memberText)
    (before.map memberText)
  refine ⟨rest, ?_, hrest⟩
  rw [membersText_eq, List.map_append, List.map_cons, h, List.flatMap_map]

/-- **A search finds the member**, unless a member before it holds the quoted key in a string. -/
theorem strstr_stringify (hk : KeyText k) {o : JsonObject} {before after : List Member}
    {v : JsonValue} (hsplit : o.members = before ++ (plain k, v) :: after)
    (hforeign : ∀ m ∈ before, m.2 ≠ .string (plain k)) (hclean : ¬ Shadowed k before) :
    ∃ rest, strstr (stringify o) (34 :: (k ++ [34])) =
      some (34 :: (k ++ [34]) ++ 58 :: (valueText v ++ rest)) ∧
        (rest.head? = some 44 ∨ rest.head? = some 125) := by
  obtain ⟨rest, htext, hrest⟩ := membersText_split (plain k, v) after before
  refine ⟨rest, ?_, hrest⟩
  have hmember : memberText (plain k, v) ++ rest =
      34 :: (k ++ [34]) ++ 58 :: (valueText v ++ rest) := by
    simp [memberText, quoted, escape_plain hk.letters]
  have hkeys : ∀ m ∈ before, m.1 ≠ plain k := by
    intro m hm e
    have hnodup := o.distinct
    rw [hsplit, List.map_append, List.map_cons] at hnodup
    exact (List.nodup_append.mp hnodup).2.2 m.1 (List.mem_map_of_mem hm) (plain k)
      List.mem_cons_self e
  have hbefore : ∀ ms : List Member, (∀ m ∈ ms, m ∈ before) → ∀ b,
      Passes (34 :: (k ++ [34])) (ms.flatMap fun m => memberText m ++ [44]) b := by
    intro ms
    induction ms with
    | nil => exact fun _ b => passes_nil
    | cons m ms ih =>
      intro hms b
      have hm := hms m List.mem_cons_self
      rw [List.flatMap_cons]
      exact passes_append (passes_member hk (hkeys m hm) (hforeign m hm) fun h => hclean ⟨m, hm, h⟩)
        (ih (fun m' hm' => hms m' (List.mem_cons_of_mem m hm')) b)
  have hopen : Passes (34 :: (k ++ [34]))
      (123 :: before.flatMap fun m => memberText m ++ [44]) (memberText (plain k, v) ++ rest) :=
    passes_cons (fun hp => absurd (List.cons_prefix_cons.mp hp).1 (by decide))
      (hbefore before (fun _ h => h) _)
  have hobject : stringify o = (123 :: before.flatMap fun m => memberText m ++ [44]) ++
      (memberText (plain k, v) ++ rest) := by
    rw [stringify, hsplit, List.cons_append, htext, List.cons_append]
  rw [hobject, strstr_of_passes hopen, hmember]
  exact strstr_of_prefix ⟨_, rfl⟩

end MqttFieldBridge.Json
