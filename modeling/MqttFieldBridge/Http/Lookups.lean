import MqttFieldBridge.Http.Exact

/-! # What a lookup finds

A reader of a key goes to the first quoted key in the text and from there to the next colon. In the
text of a flat object the quoted key stands at a member, and at each string that is the key or ends in
a quote and the key. So the text a reader decodes can be read off the members (`landing`), and a
lookup is right unless a string hides the member or feigns one (`lookup_iff`). -/

namespace MqttFieldBridge.Http

open MqttFieldBridge.CLib MqttFieldBridge.Config MqttFieldBridge.Json MqttFieldBridge.Runtime

variable {longBits : ℕ} {body key p : Text} {o : JsonObject} {v : JsonValue}

/-! ### Where a lookup lands -/

/-- The quoted key stands at the end of the string's text. -/
def Decoy (key : Text) (s : JsonString) : Prop := s = plain key ∨ EndsInKey key s

instance (key : Text) (s : JsonString) : Decidable (Decoy key s) := by unfold Decoy; infer_instance

def DecoyValue (key : Text) (v : JsonValue) : Prop := ∃ s, v = .string s ∧ Decoy key s

instance (key : Text) (v : JsonValue) : Decidable (DecoyValue key v) :=
  match v with
  | .string s => decidable_of_iff (Decoy key s) (by simp [DecoyValue])
  | .null => isFalse fun ⟨_, h, _⟩ => (by cases h)
  | .bool _ => isFalse fun ⟨_, h, _⟩ => (by cases h)
  | .number _ => isFalse fun ⟨_, h, _⟩ => (by cases h)

/-- What follows a member, with these members after it. -/
def tailText : List Member → Text
  | [] => [125]
  | m :: ms => 44 :: (membersText (m :: ms) ++ [125])

/-- The text behind the first colon after the first quoted key, if there is one. -/
def landing (key : Text) : List Member → Option Text
  | [] => none
  | m :: ms =>
    if Decoy key m.1 then some (valueText m.2 ++ tailText ms)
    else if DecoyValue key m.2 then afterChr (tailText ms) colon
    else landing key ms

theorem ends_tailText : ∀ ms : List Member, Ends (tailText ms)
  | [] => Or.inr (Or.inr rfl)
  | _ :: _ => Or.inr (Or.inl rfl)

theorem membersText_cons (m : Member) (ms : List Member) : membersText (m :: ms) ++ [125] =
    quoted m.1 ++ 58 :: (valueText m.2 ++ tailText ms) := by
  cases ms with
  | nil => simp [membersText, memberText, tailText]
  | cons m' ms => simp [membersText, memberText, tailText]

theorem afterChr_needle (hk : KeyText key) (b : Text) :
    afterChr (34 :: (key ++ [34]) ++ b) colon = afterChr b colon := by
  unfold afterChr
  rw [strchr_append (colon_notMem_needle (colon_notMem_key hk))]

/-- The search over the members, one by one. -/
theorem landing_eq (hk : KeyText key) : ∀ ms : List Member,
    (strstr (membersText ms ++ [125]) (34 :: (key ++ [34]))).bind (fun q => afterChr q colon) =
      landing key ms
  | [] => by
    have hpass : Passes (34 :: (key ++ [34])) [125] [] := passes_of_notMem (by decide)
    have hnone : strstr ([125] ++ []) (34 :: (key ++ [34])) = none := by
      rw [strstr_of_passes hpass]
      rfl
    exact congrArg (fun r => Option.bind r fun q => afterChr q colon) hnone
  | m :: ms => by
    rw [membersText_cons, landing]
    by_cases hkey : Decoy key m.1
    · rw [if_pos hkey, strstr_quoted hk hkey, Option.bind_some]
      exact afterChr_append (colon_notMem_needle (colon_notMem_key hk)) _
    rw [if_neg hkey]
    have hname : Passes (34 :: (key ++ [34])) (quoted m.1) (58 :: (valueText m.2 ++ tailText ms)) :=
      passes_quoted hk (Or.inl rfl) (fun h => hkey (Or.inl h)) fun h => hkey (Or.inr h)
    have hcolon : Passes (34 :: (key ++ [34])) [58] (valueText m.2 ++ tailText ms) :=
      passes_of_notMem (by decide)
    rw [strstr_of_passes hname]
    have hskip := strstr_of_passes hcolon
    rw [List.singleton_append] at hskip
    rw [hskip]
    by_cases hvalue : DecoyValue key m.2
    · rw [if_pos hvalue]
      obtain ⟨s, hs, hdecoy⟩ := hvalue
      rw [hs]
      show (strstr (quoted s ++ tailText ms) _).bind _ = _
      rw [strstr_quoted hk hdecoy, Option.bind_some]
      exact afterChr_needle hk _
    · rw [if_neg hvalue]
      have hval : Passes (34 :: (key ++ [34])) (valueText m.2) (tailText ms) :=
        passes_value hk (ends_tailText ms) (fun h => hvalue ⟨_, h, Or.inl rfl⟩)
          fun s hs h => hvalue ⟨s, hs, Or.inr h⟩
      rw [strstr_of_passes hval, ← landing_eq hk ms]
      cases ms with
      | nil => rfl
      | cons m' ms =>
        have hcomma : Passes (34 :: (key ++ [34])) [44] (membersText (m' :: ms) ++ [125]) :=
          passes_of_notMem (by decide)
        exact congrArg (fun r => Option.bind r fun q => afterChr q colon) (strstr_of_passes hcomma)

/-- **A reader decodes the text where the lookup lands.** -/
theorem found_iff (hk : KeyText key) (hlen : key.length ≤ 61) :
    Found (stringify o) key p ↔ landing key o.members = some p := by
  have hbrace : Passes (34 :: (key ++ [34])) [123] (membersText o.members ++ [125]) :=
    passes_of_notMem (by decide)
  have hfind : jsonFindKey (stringify o) key =
      strstr (membersText o.members ++ [125]) (34 :: (key ++ [34])) := by
    rw [jsonFindKey, needle_eq hlen]
    exact strstr_of_passes hbrace
  rw [← landing_eq hk, ← hfind]
  unfold Found
  rw [Option.bind_eq_some_iff]

/-- A string of these members, other than a key that is the key, has the quoted key at its end. -/
def Hidden (key : Text) (ms : List Member) : Prop :=
  ∃ m ∈ ms, EndsInKey key m.1 ∨ DecoyValue key m.2

instance (key : Text) (ms : List Member) : Decidable (Hidden key ms) := by
  unfold Hidden; infer_instance

/-- With no such string before the member, the lookup lands at its value. -/
theorem landing_of_clean (hk : KeyText key) (hlen : key.length ≤ 61) {before after : List Member}
    (hsplit : o.members = before ++ (plain key, v) :: after) (h : ¬ Hidden key before) :
    ∃ rest, landing key o.members = some (valueText v ++ rest) ∧ NoDigit rest := by
  have hforeign : ∀ m ∈ before, m.2 ≠ .string (plain key) := fun m hm he =>
    h ⟨m, hm, Or.inr ⟨_, he, Or.inl rfl⟩⟩
  have hclean : ¬ Shadowed key before := by
    rintro ⟨m, hm, hname | ⟨s, hs, he⟩⟩
    · exact h ⟨m, hm, Or.inl hname⟩
    · exact h ⟨m, hm, Or.inr ⟨s, hs, Or.inr he⟩⟩
  obtain ⟨rest, hfound, hrest⟩ := found_stringify hk hlen hsplit hforeign hclean
  exact ⟨rest, (found_iff hk hlen).mp hfound, noDigit_rest hrest⟩

/-- Without the member it lands only behind such a string. -/
theorem hidden_of_landing : ∀ {ms : List Member}, (∀ m ∈ ms, m.1 ≠ plain key) →
    landing key ms = some p → Hidden key ms
  | [], _, h => by cases h
  | m :: ms, habsent, h => by
    unfold landing at h
    split_ifs at h with hkey hvalue
    · exact ⟨m, List.mem_cons_self, Or.inl (hkey.resolve_left (habsent m List.mem_cons_self))⟩
    · exact ⟨m, List.mem_cons_self, Or.inr hvalue⟩
    · obtain ⟨m', hm', hhid⟩ := hidden_of_landing
        (fun m' hm' => habsent m' (List.mem_cons_of_mem m hm')) h
      exact ⟨m', List.mem_cons_of_mem m hm', hhid⟩

/-! ### What the readers return -/

/-- The three readers; the first stores into `n` bytes. -/
inductive Reader where
  | string (n : ℕ)
  | u16
  | boolish

/-- How `json_get_boolish` decodes a text. -/
def FlagText (longBits : ℕ) (p : Text) (b : UInt8) : Prop :=
  if str "true" <+: p then b = 1
  else if str "false" <+: p then b = 0
  else b ≤ 1 ∧ strtol longBits p = b.toNat

namespace Reader

/-- The value has the type of the reader and fits. -/
def Fits (v : JsonValue) : Reader → Prop
  | .string n => ∃ t, v = .string (plain t) ∧ (0 : Byte) ∉ t ∧ t.length < n
  | .u16 => ∃ n : UInt16, n ≠ 0 ∧ IsNumber v n.toNat
  | .boolish => ∃ b, IsFlag v b

/-- The reader of the key returns the value. -/
def Returns (longBits : ℕ) (body key : Text) (v : JsonValue) : Reader → Prop
  | .string n => ∀ out : CharArray n, (jsonGetString body key out).1 = .ok ∧
    v = .string (plain (jsonGetString body key out).2.text)
  | .u16 => ∃ n, jsonGetU16 longBits body key = some n ∧ IsNumber v n.toNat
  | .boolish => ∃ b, jsonGetBoolish longBits body key = some b ∧ IsFlag v b

/-- The reader of the key returns -1 and leaves the output as it was. -/
def Fails (longBits : ℕ) (body key : Text) : Reader → Prop
  | .string n => ∀ out : CharArray n, jsonGetString body key out = (.err, out)
  | .u16 => jsonGetU16 longBits body key = none
  | .boolish => jsonGetBoolish longBits body key = none

/-- The text behind a colon is read as the value. -/
def Decodes (longBits : ℕ) (p : Text) (v : JsonValue) : Reader → Prop
  | .string n => ∃ t q, v = .string (plain t) ∧ skipSpace p = quote :: q ∧
    (copyLoop (n - 1) q).2.head? = some quote ∧ cstr (copyLoop (n - 1) q).1 = t
  | .u16 => ∃ n : UInt16, IsNumber v n.toNat ∧ n ≠ 0 ∧ strtol longBits p = n.toNat
  | .boolish => ∃ b, IsFlag v b ∧ FlagText longBits (skipSpace p) b

/-- The text behind a colon is read as nothing. -/
def Rejects (longBits : ℕ) (p : Text) : Reader → Prop
  | .string n => n = 0 ∨ (skipSpace p).head? ≠ some quote
  | .u16 => strtol longBits p ≤ 0 ∨ strtol longBits p > 65535
  | .boolish => ∀ b, ¬ FlagText longBits (skipSpace p) b

end Reader

theorem jsonGetU16_eq_some_iff (h : Found body key p) {n : UInt16} :
    jsonGetU16 longBits body key = some n ↔ n ≠ 0 ∧ strtol longBits p = n.toNat := by
  rw [jsonGetU16_of_found h]
  have hlt : n.toNat < 65536 := n.toNat_lt
  have hzero : n = 0 ↔ n.toNat = 0 := UInt16.toNat_inj.symm
  split_ifs with hrange
  · refine iff_of_false (by simp) fun ⟨hn, hval⟩ => ?_
    rw [ne_eq, hzero] at hn
    omega
  · rw [Option.some.injEq, ← UInt16.toNat_inj, UInt16.toNat_ofNat', ne_eq, hzero]
    omega

theorem jsonGetBoolish_eq_some_iff (h : Found body key p) {b : UInt8} :
    jsonGetBoolish longBits body key = some b ↔ FlagText longBits (skipSpace p) b := by
  rw [jsonGetBoolish_of_found h]
  unfold FlagText
  have hle : b ≤ 1 ↔ b.toNat ≤ 1 := UInt8.le_iff_toNat_le
  split_ifs with htrue hfalse hrange
  · rw [Option.some.injEq, eq_comm]
  · rw [Option.some.injEq, eq_comm]
  · refine iff_of_false (by simp) fun ⟨hb, hval⟩ => ?_
    rw [hle] at hb
    omega
  · rw [Option.some.injEq, ← UInt8.toNat_inj, UInt8.toNat_ofNat', hle]
    omega

/-- A string reader fails where no string begins. -/
theorem jsonGetString_of_not_quote {n : ℕ} {out : CharArray n} (h : Found body key p)
    (hq : n = 0 ∨ (skipSpace p).head? ≠ some quote) : jsonGetString body key out = (.err, out) := by
  obtain ⟨r, hr, hp⟩ := h
  unfold jsonGetString
  simp only [hr, hp, Option.map_some]
  split_ifs with hn
  · rfl
  · have hhead := hq.resolve_left hn
    cases hskip : skipSpace p with
    | nil => rfl
    | cons c q =>
      rw [hskip, List.head?_cons, ne_eq, Option.some.injEq] at hhead
      exact if_neg hhead

theorem head_quote_iff : (skipSpace p).head? = some quote ↔ ∃ q, skipSpace p = quote :: q :=
  List.head?_eq_some_iff

/-- What a string reader returns does not depend on what the array held. -/
theorem jsonGetString_returns_iff {n : ℕ} {t : Text} (h : Found body key p) (hn : 0 < n) :
    (∀ out : CharArray n, (jsonGetString body key out).1 = .ok ∧
        (jsonGetString body key out).2.text = t) ↔
      ∃ q, skipSpace p = quote :: q ∧ (copyLoop (n - 1) q).2.head? = some quote ∧
        cstr (copyLoop (n - 1) q).1 = t := by
  by_cases hq : ∃ q, skipSpace p = quote :: q
  · obtain ⟨q, hq⟩ := hq
    have htext : ∀ out : CharArray n, (jsonGetString body key out).2.text =
        cstr (copyLoop (n - 1) q).1 := fun out => text_jsonGetString_of_found h hq hn
    have hrc : ∀ out : CharArray n, (jsonGetString body key out).1 = .ok ↔
        (copyLoop (n - 1) q).2.head? = some quote := fun out => by
      rw [jsonGetString_of_found h hq hn]
      simp
    constructor
    · intro hret
      obtain ⟨hok, hval⟩ := hret (.zero n)
      rw [htext] at hval
      exact ⟨q, hq, (hrc _).mp hok, hval⟩
    · rintro ⟨q', hq', hend, hcopy⟩ out
      obtain rfl := (List.cons.inj (hq.symm.trans hq')).2
      rw [htext]
      exact ⟨(hrc out).mpr hend, hcopy⟩
  · refine iff_of_false (fun hret => ?_) fun ⟨q, hq', _⟩ => hq ⟨q, hq'⟩
    have hok := (hret (.zero n)).1
    rw [jsonGetString_of_not_quote h (Or.inr (mt head_quote_iff.mp hq))] at hok
    cases hok

/-- A string reader leaves every array as it was only where no string begins: one that it copies into
holds the copy. -/
theorem jsonGetString_fails_iff {n : ℕ} (h : Found body key p) :
    (∀ out : CharArray n, jsonGetString body key out = (.err, out)) ↔
      n = 0 ∨ (skipSpace p).head? ≠ some quote := by
  constructor
  · intro hfail
    by_contra hrej
    rw [not_or, not_not] at hrej
    obtain ⟨hn, hhead⟩ := hrej
    obtain ⟨q, hq⟩ := head_quote_iff.mp hhead
    have htext : ∀ out : CharArray n, out.text = cstr (copyLoop (n - 1) q).1 := by
      intro out
      have hout := congrArg (fun r => r.2.text) (hfail out)
      exact hout.symm.trans (text_jsonGetString_of_found h hq (Nat.pos_of_ne_zero hn))
    -- so an array of ones is as empty as one of zeros
    obtain ⟨k, rfl⟩ := Nat.exists_eq_succ_of_ne_zero hn
    have hzero : (CharArray.zero (k + 1)).text = [] := CharArray.text_eq_nil_iff.mpr rfl
    have hone := (htext ⟨List.replicate (k + 1) 1, List.length_replicate⟩).trans
      ((htext (.zero (k + 1))).symm.trans hzero)
    rw [CharArray.text_eq_nil_iff] at hone
    cases hone
  · intro hrej out
    exact jsonGetString_of_not_quote h hrej

variable {r : Reader}

theorem Reader.returns_iff (h : Found body key p) (hv : r.Fits v) :
    r.Returns longBits body key v ↔ r.Decodes longBits p v := by
  cases r with
  | string n =>
    obtain ⟨t, rfl, -, hlen⟩ := hv
    have hn : 0 < n := by omega
    unfold Reader.Returns Reader.Decodes
    simp only [JsonValue.string.injEq, plain_inj]
    refine Iff.trans (forall_congr' fun out => and_congr_right' eq_comm)
      ((jsonGetString_returns_iff h hn).trans ?_)
    constructor
    · rintro ⟨q, hq, hend, hcopy⟩
      exact ⟨t, q, rfl, hq, hend, hcopy⟩
    · rintro ⟨t', q, rfl, hq, hend, hcopy⟩
      exact ⟨q, hq, hend, hcopy⟩
  | u16 =>
    unfold Reader.Returns Reader.Decodes
    refine exists_congr fun n => ?_
    rw [jsonGetU16_eq_some_iff h, and_comm]
  | boolish =>
    unfold Reader.Returns Reader.Decodes
    refine exists_congr fun b => ?_
    rw [jsonGetBoolish_eq_some_iff h, and_comm]

theorem Reader.fails_iff (h : Found body key p) :
    r.Fails longBits body key ↔ r.Rejects longBits p := by
  cases r with
  | string n => exact jsonGetString_fails_iff h
  | u16 =>
    unfold Reader.Fails Reader.Rejects
    rw [jsonGetU16_of_found h]
    split_ifs with hrange
    · exact iff_of_true rfl hrange
    · exact iff_of_false (by simp) hrange
  | boolish =>
    refine Option.eq_none_iff_forall_ne_some.trans (forall_congr' fun b => not_congr ?_)
    exact jsonGetBoolish_eq_some_iff h

/-- Where nothing is found every reader fails. -/
theorem Reader.fails_of_not_found (h : ∀ p, ¬ Found body key p) : r.Fails longBits body key := by
  have hnone : ∀ q, jsonFindKey body key = some q → afterChr q colon = none := fun q hq =>
    Option.eq_none_iff_forall_ne_some.mpr fun p hp => h p ⟨q, hq, hp⟩
  cases r with
  | string n =>
    intro out
    unfold jsonGetString
    cases hq : jsonFindKey body key with
    | none => rfl
    | some q =>
      simp only [hnone q hq, Option.map_none]
      split_ifs <;> rfl
  | u16 =>
    unfold Reader.Fails jsonGetU16
    cases hq : jsonFindKey body key with
    | none => rfl
    | some q => simp only [hnone q hq]
  | boolish =>
    unfold Reader.Fails jsonGetBoolish
    cases hq : jsonFindKey body key with
    | none => rfl
    | some q => simp only [hnone q hq, Option.map_none]

/-- A reader that fails returns no value. -/
theorem Reader.not_returns (h : r.Fails longBits body key) : ¬ r.Returns longBits body key v := by
  cases r with
  | string n =>
    intro hret
    have hok := (hret (.zero n)).1
    rw [h (.zero n)] at hok
    cases hok
  | u16 =>
    rintro ⟨n, hn, -⟩
    rw [show jsonGetU16 longBits body key = none from h] at hn
    cases hn
  | boolish =>
    rintro ⟨b, hb, -⟩
    rw [show jsonGetBoolish longBits body key = none from h] at hb
    cases hb

/-- At its own value a reader returns it, unless it is a string with a control character. -/
theorem Reader.returns_iff_printable {rest : Text} (hv : r.Fits v) (hbits : 32 ≤ longBits)
    (hrest : NoDigit rest) (h : Found body key (valueText v ++ rest)) :
    r.Returns longBits body key v ↔ Printable v := by
  cases r with
  | string n =>
    obtain ⟨t, rfl, -, hlen⟩ := hv
    have hread := fun out : CharArray n => @text_jsonGetString_iff body key rest n out t h hlen
    rw [printable_string]
    constructor
    · intro hret
      have hval := (hret (.zero n)).2
      rw [JsonValue.string.injEq, plain_inj] at hval
      exact (hread _).mp hval.symm
    · intro hprint out
      refine ⟨jsonGetString_printable h hlen hprint, ?_⟩
      rw [(hread out).mpr hprint]
  | u16 =>
    obtain ⟨n, hn, hnum⟩ := hv
    refine iff_of_true ⟨n, ?_, hnum⟩ (printable_number hnum)
    exact jsonGetU16_number hnum hn hbits hrest h
  | boolish =>
    obtain ⟨b, hflag⟩ := hv
    refine iff_of_true ⟨b, ?_, hflag⟩ (printable_flag hflag)
    exact jsonGetBoolish_flag hflag hbits hrest h

/-! ### When a lookup is right -/

/-- The keys that the routes look up, each with its reader. -/
def lookups : List (Text × Reader) :=
  [(str "device_name", .string fieldBridgeNameMax), (str "device_ip", .string fieldBridgeHostMax),
    (str "gateway", .string fieldBridgeHostMax), (str "netmask", .string fieldBridgeHostMax),
    (str "dns", .string fieldBridgeHostMax), (str "broker_ip", .string fieldBridgeHostMax),
    (str "site_id", .string fieldBridgeSiteMax), (str "topic_prefix", .string fieldBridgeTopicMax),
    (str "mode", .string 16), (str "dhcp_enabled", .boolish), (str "broker_enabled", .boolish),
    (str "bridge_enabled", .boolish), (str "mesh_enabled", .boolish), (str "mqtt_port", .u16),
    (str "fallback_port", .u16), (str "p2p_port", .u16), (str "name", .string fieldBridgeNameMax),
    (str "host", .string fieldBridgeHostMax), (str "enabled", .boolish),
    (str "topic", .string fieldBridgeTopicFullMax), (str "payload", .string fieldBridgePayloadMax),
    (str "retain", .boolish)]

theorem searchable_lookups : ∀ l ∈ lookups, KeyText l.1 ∧ l.1.length ≤ 61 := by
  decide

/-- The reader returns the value of the member if that has its type and fits, and fails if there is
no such member. -/
structure LookupRight (longBits : ℕ) (o : JsonObject) (key : Text) (r : Reader) : Prop where
  member : ∀ m ∈ o.members, m.1 = plain key → r.Fits m.2 →
    r.Returns longBits (stringify o) key m.2
  absent : (∀ m ∈ o.members, m.1 ≠ plain key) → r.Fails longBits (stringify o) key

/-- No string before the member ends in the quoted key, and the member is no string with a control
character; and without the member no string does. Where one does, the text at which the lookup lands
then must happen to be read as the value, or as nothing. -/
structure LookupClear (longBits : ℕ) (o : JsonObject) (key : Text) (r : Reader) : Prop where
  member : ∀ before m after, o.members = before ++ m :: after → m.1 = plain key → r.Fits m.2 →
    if Hidden key before then ∃ p, landing key o.members = some p ∧ r.Decodes longBits p m.2
    else Printable m.2
  absent : (∀ m ∈ o.members, m.1 ≠ plain key) → Hidden key o.members →
    ∀ p, landing key o.members = some p → r.Rejects longBits p

variable {r : Reader}

theorem fails_of_no_landing (hk : KeyText key) (hlen : key.length ≤ 61)
    (hland : landing key o.members = none) : r.Fails longBits (stringify o) key := by
  refine Reader.fails_of_not_found fun p hp => ?_
  rw [found_iff hk hlen, hland] at hp
  cases hp

/-- The reader of a hidden member returns what it decodes where it lands. -/
theorem returns_iff_landing (hk : KeyText key) (hlen : key.length ≤ 61) (hv : r.Fits v) :
    r.Returns longBits (stringify o) key v ↔
      ∃ p, landing key o.members = some p ∧ r.Decodes longBits p v := by
  cases hland : landing key o.members with
  | none =>
    refine iff_of_false (Reader.not_returns (fails_of_no_landing hk hlen hland)) ?_
    rintro ⟨p, hp, -⟩
    cases hp
  | some p =>
    rw [Reader.returns_iff ((found_iff hk hlen).mpr hland) hv]
    constructor
    · intro h
      exact ⟨p, rfl, h⟩
    · rintro ⟨p', hp', h⟩
      rwa [Option.some.inj hp']

theorem fails_iff_landing (hk : KeyText key) (hlen : key.length ≤ 61) :
    r.Fails longBits (stringify o) key ↔
      ∀ p, landing key o.members = some p → r.Rejects longBits p := by
  cases hland : landing key o.members with
  | none =>
    exact iff_of_true (fails_of_no_landing hk hlen hland) fun p hp => by cases hp
  | some p =>
    rw [Reader.fails_iff ((found_iff hk hlen).mpr hland)]
    constructor
    · intro h p' hp'
      rwa [← Option.some.inj hp']
    · intro h
      exact h p rfl

/-- **When a lookup is right**: the member is not hidden and is printable, or where it is hidden, or
feigned by a string, the lookup lands at a text that is read alike. -/
theorem lookup_iff (w : World) (o : JsonObject) : ∀ l ∈ lookups,
    LookupRight w.longBits o l.1 l.2 ↔ LookupClear w.longBits o l.1 l.2 := by
  rintro ⟨key, r⟩ hl
  obtain ⟨hk, hlen⟩ := searchable_lookups _ hl
  have hmember : ∀ before m after, o.members = before ++ m :: after → m.1 = plain key →
      r.Fits m.2 → (r.Returns w.longBits (stringify o) key m.2 ↔
        if Hidden key before then
          ∃ p, landing key o.members = some p ∧ r.Decodes w.longBits p m.2
        else Printable m.2) := by
    rintro before ⟨k, v⟩ after hsplit rfl hv
    split_ifs with hhidden
    · exact returns_iff_landing hk hlen hv
    · obtain ⟨rest, hland, hrest⟩ := landing_of_clean hk hlen hsplit hhidden
      exact Reader.returns_iff_printable hv w.longBits_ge hrest ((found_iff hk hlen).mpr hland)
  constructor
  · intro h
    refine ⟨fun before m after hsplit hm hv => ?_, fun habsent _ => ?_⟩
    · have hmem : m ∈ o.members := by
        rw [hsplit]
        exact List.mem_append_right _ List.mem_cons_self
      exact (hmember before m after hsplit hm hv).mp (h.member m hmem hm hv)
    · exact (fails_iff_landing hk hlen).mp (h.absent habsent)
  · intro h
    refine ⟨fun m hmem hm hv => ?_, fun habsent => ?_⟩
    · obtain ⟨before, after, hsplit⟩ := List.append_of_mem hmem
      exact (hmember before m after hsplit hm hv).mpr (h.member before m after hsplit hm hv)
    · refine (fails_iff_landing hk hlen).mpr fun p hp => ?_
      exact h.absent habsent (hidden_of_landing habsent hp) p hp

/-- The lookup of the only member is right. -/
theorem lookup_iff_portBody : LookupRight 32 portBody (str "mqtt_port") .u16 := by
  refine (lookup_iff .good portBody (str "mqtt_port", .u16) (by simp [lookups])).mpr ⟨?_, ?_⟩
  · intro before m after hsplit hm hv
    have hlen := congrArg List.length hsplit
    rw [List.length_append, List.length_cons] at hlen
    have hone : portBody.members.length = 1 := rfl
    obtain rfl : before = [] := List.eq_nil_of_length_eq_zero (by omega)
    obtain ⟨n, -, hnum⟩ := hv
    rw [if_neg (by simp [Hidden])]
    exact printable_number hnum
  · intro habsent
    exact absurd rfl (habsent _ (List.mem_singleton_self _))

/-- `{"device_name":"mqtt_port","p2p_port":4885}` -/
def namedPortBody : JsonObject where
  members := [(plain (str "device_name"), .string (plain (str "mqtt_port"))),
    (plain (str "p2p_port"), .number ⟨false, 4885, 0, by decide⟩)]
  distinct := by decide

/-- A device that is named after a key feigns the member. -/
theorem lookup_named : (str "mqtt_port", Reader.u16) ∈ lookups ∧
    ¬ LookupRight 32 namedPortBody (str "mqtt_port") .u16 := by
  refine ⟨by simp [lookups], fun h => ?_⟩
  have hfail : jsonGetU16 32 (stringify namedPortBody) (str "mqtt_port") = none :=
    h.absent (by decide)
  exact absurd hfail (by decide)

end MqttFieldBridge.Http
