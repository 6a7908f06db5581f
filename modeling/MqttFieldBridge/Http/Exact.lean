import MqttFieldBridge.Http.Fragments
import MqttFieldBridge.Http.Members

/-! # When a body is applied exactly

A POST should answer 200 only if the record holds what the body says for each recognised key, and
400, with nothing changed, if one of the values cannot be held at all (`AppliedExactly`). The
appliers ignore what their readers could not read, so this depends on the members
(`post_appliedExactly_iff`): either the request fails one of the checks it has to pass, or each
recognised member is one that its reader stores (`ReadExactly`). -/

namespace MqttFieldBridge.Http

open MqttFieldBridge.CLib MqttFieldBridge.Config MqttFieldBridge.Json MqttFieldBridge.Runtime

variable {σ : Type}

/-! ### The recognised keys -/

/-- The value is a string that names this mode. -/
def IsMode (v : JsonValue) (m : UInt8) : Prop :=
  ∃ t, v = .string (plain t) ∧ productConfigNetworkModeFromName t = some m

/-- Where the value of a key goes, and how it is read. A port that is still `0` becomes `unset`. -/
inductive Slot (σ : Type) where
  | text {n : ℕ} (get : σ → CharArray n)
  | port (unset : UInt16) (get : σ → UInt16)
  | flag (get : σ → UInt8)
  | mode (get : σ → UInt8)

namespace Slot

/-- The record holds the value. -/
def Stores (x : σ) (v : JsonValue) : Slot σ → Prop
  | .text get => v = .string (plain (get x).text)
  | .port _ get => IsNumber v (get x).toNat
  | .flag get => IsFlag v (get x)
  | .mode get => IsMode v (get x)

/-- A record can hold the value. -/
def Storable (v : JsonValue) : Slot σ → Prop
  | @Slot.text _ n _ => ∃ t, v = .string (plain t) ∧ (0 : Byte) ∉ t ∧ t.length < n
  | .port _ _ => ∃ p : UInt16, p ≠ 0 ∧ IsNumber v p.toNat
  | .flag _ => ∃ b, IsFlag v b
  | .mode _ => ∃ m, IsMode v m

/-- The reader of the key leaves the value in the record. -/
def Reads (longBits : ℕ) (body key : Text) (x : σ) (v : JsonValue) : Slot σ → Prop
  | .text get => v = .string (plain (jsonGetString body key (get x)).2.text)
  | .port unset get =>
    let p := (jsonGetU16 longBits body key).getD (get x)
    IsNumber v (if p = 0 then unset else p).toNat
  | .flag get => IsFlag v ((jsonGetBoolish longBits body key).getD (get x))
  | .mode get =>
    let r := jsonGetString body key (.zero 16)
    IsMode v (if r.1 = .ok then (productConfigNetworkModeFromName r.2.text).getD (get x) else get x)

end Slot

structure Field (σ : Type) where
  key : Text
  slot : Slot σ

/-- The keys of `apply_config_json`. -/
def configFields : List (Field FieldBridgeSettings) :=
  [⟨str "device_name", .text fun s => s.system.deviceName⟩,
    ⟨str "device_ip", .text fun s => s.network.deviceIp⟩,
    ⟨str "gateway", .text fun s => s.network.gateway⟩,
    ⟨str "netmask", .text fun s => s.network.netmask⟩,
    ⟨str "dns", .text fun s => s.network.dns⟩,
    ⟨str "broker_ip", .text fun s => s.broker.brokerIp⟩,
    ⟨str "site_id", .text fun s => s.broker.siteId⟩,
    ⟨str "topic_prefix", .text fun s => s.broker.topicPrefix⟩,
    ⟨str "mode", .mode fun s => s.network.mode⟩,
    ⟨str "dhcp_enabled", .flag fun s => s.network.dhcpEnabled⟩,
    ⟨str "broker_enabled", .flag fun s => s.broker.brokerEnabled⟩,
    ⟨str "bridge_enabled", .flag fun s => s.broker.bridgeEnabled⟩,
    ⟨str "mesh_enabled", .flag fun s => s.broker.meshEnabled⟩,
    ⟨str "mqtt_port", .port 0 fun s => s.broker.mqttPort⟩,
    ⟨str "fallback_port", .port 0 fun s => s.broker.fallbackPort⟩,
    ⟨str "p2p_port", .port 0 fun s => s.broker.p2pPort⟩]

/-- The keys of `apply_peer_json`. -/
def peerFields : List (Field FieldBridgePeer) :=
  [⟨str "name", .text fun p => p.name⟩,
    ⟨str "host", .text fun p => p.host⟩,
    ⟨str "mqtt_port", .port 0 fun p => p.mqttPort⟩,
    ⟨str "p2p_port", .port 4884 fun p => p.p2pPort⟩,
    ⟨str "enabled", .flag fun p => p.enabled⟩]

/-- The keys can be searched for. -/
def Searchable (fields : List (Field σ)) : Prop :=
  ∀ f ∈ fields, KeyText f.key ∧ f.key.length ≤ 61

theorem searchable_configFields : Searchable configFields := by
  unfold Searchable
  decide

theorem searchable_peerFields : Searchable peerFields := by
  unfold Searchable
  decide

variable {longBits : ℕ} {body : Text} {v : JsonValue}

theorem unset_zero (p : UInt16) : (if p = 0 then 0 else p) = p := by
  split_ifs with h
  · exact h.symm
  · rfl

/-- What the candidate holds is what the readers leave. -/
theorem stores_newSettings_iff {s : FieldBridgeSettings} : ∀ f ∈ configFields,
    (f.slot.Stores (newSettings longBits body s) v ↔ f.slot.Reads longBits body f.key s v) := by
  simp only [configFields, List.forall_mem_cons, Slot.Stores, Slot.Reads, newSettings, readMode,
    unset_zero]
  simp only [true_and, List.not_mem_nil, false_implies, implies_true, and_true]
  exact Iff.rfl

theorem stores_peerCandidate_iff {p : FieldBridgePeer} : ∀ f ∈ peerFields,
    (f.slot.Stores (peerCandidate longBits body p) v ↔ f.slot.Reads longBits body f.key p v) := by
  simp only [peerFields, List.forall_mem_cons, Slot.Stores, Slot.Reads, peerCandidate,
    copyIfPresent, unset_zero]
  simp

/-! ### A reader at its member -/

/-- The value is no string with a control character. -/
def Printable (v : JsonValue) : Prop := ∀ t, v = .string (plain t) → Above 32 t

theorem plain_inj {t t' : Text} : plain t = plain t' ↔ t = t' :=
  (List.map_injective_iff.mpr fun _ _ h => JsonChar.byte.inj h).eq_iff

theorem printable_string {t : Text} :
    Printable (.string (plain t)) ↔ Above 32 t := by
  constructor
  · exact fun h => h t rfl
  · intro h t' ht'
    rw [JsonValue.string.injEq, plain_inj] at ht'
    exact ht' ▸ h

theorem printable_number {n : ℕ} (h : IsNumber v n) : Printable v := by
  obtain ⟨x, rfl, -⟩ := h
  exact fun t ht => (by cases ht)

theorem printable_flag {b : UInt8} (h : IsFlag v b) : Printable v := by
  obtain ⟨-, rfl | h⟩ := h
  · exact fun t ht => (by cases ht)
  · exact printable_number h

/-- The names of the modes fit the buffer and have no control characters. -/
theorem modeName_printable {t : Text} {m : UInt8} (h : productConfigNetworkModeFromName t = some m) :
    t.length < 16 ∧ Above 32 t := by
  unfold productConfigNetworkModeFromName at h
  split_ifs at h with h1 h2
  · subst h1
    decide
  · rcases h2 with rfl | rfl
    · decide
    · decide

/-- A reader that begins at the value leaves it, except for a string with a control character. -/
theorem Slot.reads_iff_printable {slot : Slot σ} {x : σ} {key rest : Text}
    (hv : slot.Storable v) (hbits : 32 ≤ longBits) (hrest : NoDigit rest)
    (h : Found body key (valueText v ++ rest)) :
    slot.Reads longBits body key x v ↔ Printable v := by
  cases slot with
  | text get =>
    obtain ⟨t, rfl, -, hlen⟩ := hv
    have hread := @text_jsonGetString_iff body key rest _ (get x) t h hlen
    rw [printable_string, ← hread]
    show JsonValue.string (plain t) = .string (plain _) ↔ _
    rw [JsonValue.string.injEq, plain_inj]
    exact eq_comm
  | port unset get =>
    obtain ⟨p, hp, hnum⟩ := hv
    have hread := jsonGetU16_number hnum hp hbits hrest h
    refine ⟨fun _ => printable_number hnum, fun _ => ?_⟩
    unfold Slot.Reads
    dsimp only
    rw [hread, Option.getD_some, if_neg hp]
    exact hnum
  | flag get =>
    obtain ⟨b, hflag⟩ := hv
    have hread := jsonGetBoolish_flag hflag hbits hrest h
    refine ⟨fun _ => printable_flag hflag, fun _ => ?_⟩
    unfold Slot.Reads
    rw [hread]
    exact hflag
  | mode get =>
    obtain ⟨m, t, rfl, hname⟩ := hv
    obtain ⟨hlen, hprint⟩ := modeName_printable hname
    have hok := @jsonGetString_printable body key rest 16 (.zero 16) t h hlen hprint
    have htext := (@text_jsonGetString_iff body key rest 16 (.zero 16) t h hlen).mpr hprint
    refine ⟨fun _ => printable_string.mpr hprint, fun _ => ⟨t, rfl, ?_⟩⟩
    rw [if_pos hok, htext, hname]
    rfl

/-! ### Exact application -/

variable {fields : List (Field σ)} {o : JsonObject} {x : σ}

/-- No string of the object is a recognised key. -/
def Foreign (fields : List (Field σ)) (o : JsonObject) : Prop :=
  ∀ m ∈ o.members, ∀ f ∈ fields, m.2 ≠ .string (plain f.key)

/-- The answer says 200 only if each recognised member is in the record, and it says 400, with
settings and peers as they were, if one of them cannot be. -/
structure AppliedExactly (fields : List (Field σ)) (o : JsonObject) (a : App) (r : Answer) (x : σ) :
    Prop where
  stored : r.response.status = 200 →
    ∀ m ∈ o.members, ∀ f ∈ fields, m.1 = plain f.key → f.slot.Stores x m.2
  refused : (∃ m ∈ o.members, ∃ f ∈ fields, m.1 = plain f.key ∧ ¬ f.slot.Storable m.2) →
    r.response.status = 400 ∧ r.app.config.settings = a.config.settings ∧
      r.app.config.peers = a.config.peers

/-- Each recognised member has a value that can be stored and that its reader stores: if a member
before it hides it from the search, whatever the reader reads there must leave the value, and if
not, the value must be free of control characters. -/
def ReadExactly (longBits : ℕ) (fields : List (Field σ)) (o : JsonObject) (x : σ) : Prop :=
  ∀ before m after, o.members = before ++ m :: after → ∀ f ∈ fields, m.1 = plain f.key →
    f.slot.Storable m.2 ∧
      if Shadowed f.key before then f.slot.Reads longBits (stringify o) f.key x m.2
      else Printable m.2

theorem readExactly_iff (hfields : Searchable fields) (hforeign : Foreign fields o)
    (hbits : 32 ≤ longBits) : ReadExactly longBits fields o x ↔
      ∀ m ∈ o.members, ∀ f ∈ fields, m.1 = plain f.key →
        f.slot.Storable m.2 ∧ f.slot.Reads longBits (stringify o) f.key x m.2 := by
  have hclean : ∀ before m after, o.members = before ++ m :: after → ∀ f ∈ fields,
      m.1 = plain f.key → f.slot.Storable m.2 → ¬ Shadowed f.key before →
        (f.slot.Reads longBits (stringify o) f.key x m.2 ↔ Printable m.2) := by
    rintro before ⟨k, v⟩ after hsplit f hf rfl hv hshadow
    obtain ⟨hkey, hlen⟩ := hfields f hf
    have hbefore : ∀ m ∈ before, m.2 ≠ .string (plain f.key) := fun m hm =>
      hforeign m (by rw [hsplit]; exact List.mem_append_left _ hm) f hf
    obtain ⟨rest, hfound, hrest⟩ := found_stringify hkey hlen hsplit hbefore hshadow
    exact Slot.reads_iff_printable hv hbits (noDigit_rest hrest) hfound
  constructor
  · intro h m hm f hf hk
    obtain ⟨before, after, hsplit⟩ := List.append_of_mem hm
    obtain ⟨hv, hread⟩ := h before m after hsplit f hf hk
    refine ⟨hv, ?_⟩
    by_cases hshadow : Shadowed f.key before
    · rwa [if_pos hshadow] at hread
    · rw [if_neg hshadow] at hread
      exact (hclean before m after hsplit f hf hk hv hshadow).mpr hread
  · intro h before m after hsplit f hf hk
    have hm : m ∈ o.members := by
      rw [hsplit]
      exact List.mem_append_right _ List.mem_cons_self
    obtain ⟨hv, hread⟩ := h m hm f hf hk
    refine ⟨hv, ?_⟩
    split_ifs with hshadow
    · exact hread
    · exact (hclean before m after hsplit f hf hk hv hshadow).mp hread

variable {w : World} {a : App} {r : Answer}

theorem appliedExactly_of_unharmed (h : Unharmed a r) : AppliedExactly fields o a r x where
  stored hok := absurd hok (by rw [h.1]; decide)
  refused _ := ⟨h.1, h.2.settings, h.2.peers⟩

theorem appliedExactly_iff_of_ok (h : r.response.status = 200) :
    AppliedExactly fields o a r x ↔ ∀ m ∈ o.members, ∀ f ∈ fields, m.1 = plain f.key →
      f.slot.Storable m.2 ∧ f.slot.Stores x m.2 := by
  constructor
  · intro happ m hm f hf hk
    refine ⟨?_, happ.stored h m hm f hf hk⟩
    by_contra hv
    have hbad := (happ.refused ⟨m, hm, f, hf, hk, hv⟩).1
    rw [h] at hbad
    exact absurd hbad (by decide)
  · intro hall
    refine ⟨fun _ m hm f hf hk => (hall m hm f hf hk).2, ?_⟩
    rintro ⟨m, hm, f, hf, hk, hv⟩
    exact absurd (hall m hm f hf hk).1 hv

/-! ### The checks -/

/-- A body for `/config` fails a check: its mode is a string that names no mode, no key is seen, or
the settings it asks for are not the current ones and are not valid. -/
def ConfigRefused (longBits : ℕ) (body : Text) (s : FieldBridgeSettings) : Prop :=
  ModeUnknown body ∨ ¬ configSeen longBits body s ∨
    (newSettings longBits body s ≠ s ∧ ¬ SettingsValid (newSettings longBits body s))

/-- A body for a peer slot asks for a peer that is not valid. -/
def PeerRefused (longBits : ℕ) (body : Text) (p : FieldBridgePeer) : Prop :=
  ¬ PeerValid (peerCandidate longBits body p)

theorem postConfig_of_refused (h : ConfigRefused w.longBits body a.config.settings) :
    Unharmed a (postConfig w body a) := by
  rw [postConfig_eq]
  refine (@actConfig_unharmed_iff w [] a _).mpr fun n hn => ?_
  obtain ⟨hmode, hseen, rfl⟩ := configCandidate_eq_some.mp hn
  rcases h with h | h | h
  · exact absurd h hmode
  · exact absurd hseen h
  · exact h

theorem postConfig_of_accepted (hsave : SavesAll w.store)
    (h : ¬ ConfigRefused w.longBits body a.config.settings) :
    (postConfig w body a).response.status = 200 ∧
      (postConfig w body a).app.config.settings = newSettings w.longBits body a.config.settings := by
  rw [ConfigRefused, not_or, not_or, not_not] at h
  obtain ⟨hmode, hseen, hvalid⟩ := h
  have hcand := configCandidate_eq_some.mpr ⟨hmode, hseen, rfl⟩
  rw [postConfig_eq, hcand]
  by_cases hsame : newSettings w.longBits body a.config.settings = a.config.settings
  · rw [hsame, actConfig_of_same]
    exact ⟨rfl, rfl⟩
  · have hv : SettingsValid (newSettings w.longBits body a.config.settings) := by
      by_contra hv
      exact hvalid ⟨hsame, hv⟩
    obtain ⟨hset, hresp⟩ := @actConfig_of_valid w a _ hsame hv
    refine ⟨?_, hset⟩
    rw [hresp, if_pos hsave.2]

section Peers

variable {i : Fin fieldBridgePeerMax}

theorem peerIndex_natCast : peerIndex (i : ℕ) = some i := by
  have hi : (0 : ℤ) ≤ (i : ℕ) ∧ ((i : ℕ) : ℤ) < fieldBridgePeerMax := by
    have := i.isLt
    omega
  rw [peerIndex, dif_pos hi]
  rfl

theorem pathIndex_slot : pathIndex w (peersPath ++ decimal i) = (i : ℕ) := by
  have hdrop : (peersPath ++ decimal i).drop 7 = decimal i := List.drop_left' rfl
  have hvalue : numeralValue (decimal i) = i := numeralValue_decimal
  have hlt : (i : ℕ) < 2 ^ 31 := i.isLt.trans (by decide)
  rw [pathIndex, hdrop, atoi_of_numeral numeral_decimal w.longBits_ge (hvalue.symm ▸ hlt), hvalue]

theorem postRoute_slot : postRoute w (peersPath ++ decimal i) body a =
    actPeer w (peersPath ++ decimal i) a
      (some (peerCandidate w.longBits body (a.config.peers i))) := by
  have hconfig : peersPath ++ decimal i ≠ str "/config" := fun h => by
    have hhead := congrArg (fun l => l.take 2) h
    rw [List.take_append_of_le_length (by decide)] at hhead
    exact absurd hhead (by decide)
  have hget : productConfigGetPeer (pathIndex w (peersPath ++ decimal i)) a.config =
      some (a.config.peers i) := by
    rw [pathIndex_slot, productConfigGetPeer, peerIndex_natCast]
    rfl
  rw [postRoute, if_neg hconfig, if_pos (List.prefix_append _ _)]
  exact postPeer_eq.trans (by rw [hget]; rfl)

theorem postSlot_of_refused (h : PeerRefused w.longBits body (a.config.peers i)) :
    Unharmed a (postRoute w (peersPath ++ decimal i) body a) := by
  rw [postRoute_slot, actPeer_of_invalid fun _ _ => h]
  exact ⟨rfl, Kept.refl a⟩

theorem postSlot_of_accepted (hsave : SavesAll w.store)
    (h : ¬ PeerRefused w.longBits body (a.config.peers i)) :
    (postRoute w (peersPath ++ decimal i) body a).response.status = 200 ∧
      (postRoute w (peersPath ++ decimal i) body a).app.config.peers i =
        peerCandidate w.longBits body (a.config.peers i) := by
  have hi : peerIndex (pathIndex w (peersPath ++ decimal i)) = some i := by
    rw [pathIndex_slot]
    exact peerIndex_natCast
  obtain ⟨hpeers, -, -, hstatus⟩ := @actPeer_of_valid w _ a _ i hi (not_not.mp h)
  have hok : w.store.save (peerKey i) = .ok := hsave.1 i (List.mem_finRange i)
  rw [postRoute_slot]
  refine ⟨by rw [hstatus, if_pos hok], ?_⟩
  rw [hpeers, Function.update_self]

end Peers

/-- **When a POST is applied exactly.** The body fails a check of the route, or each recognised
member of it is read exactly. -/
theorem post_appliedExactly_iff (hsave : SavesAll w.store) :
    (Foreign configFields o →
      let r := postRoute w (str "/config") (stringify o) a
      AppliedExactly configFields o a r r.app.config.settings ↔
        ConfigRefused w.longBits (stringify o) a.config.settings ∨
          ReadExactly w.longBits configFields o a.config.settings) ∧
    ∀ i : Fin fieldBridgePeerMax, Foreign peerFields o →
      let r := postRoute w (peersPath ++ decimal i) (stringify o) a
      AppliedExactly peerFields o a r (r.app.config.peers i) ↔
        PeerRefused w.longBits (stringify o) (a.config.peers i) ∨
          ReadExactly w.longBits peerFields o (a.config.peers i) := by
  constructor
  · intro hforeign
    have hroute : postRoute w (str "/config") (stringify o) a = postConfig w (stringify o) a :=
      if_pos rfl
    rw [hroute]
    by_cases href : ConfigRefused w.longBits (stringify o) a.config.settings
    · exact iff_of_true (appliedExactly_of_unharmed (postConfig_of_refused href)) (Or.inl href)
    · obtain ⟨hstatus, hset⟩ := postConfig_of_accepted hsave href
      dsimp only
      rw [appliedExactly_iff_of_ok hstatus, hset, or_iff_right href,
        readExactly_iff searchable_configFields hforeign w.longBits_ge]
      refine forall₂_congr fun m _ => forall₂_congr fun f hf => ?_
      rw [stores_newSettings_iff f hf]
  · intro i hforeign
    dsimp only
    by_cases href : PeerRefused w.longBits (stringify o) (a.config.peers i)
    · exact iff_of_true (appliedExactly_of_unharmed (postSlot_of_refused href)) (Or.inl href)
    · obtain ⟨hstatus, hpeer⟩ := postSlot_of_accepted hsave href
      rw [appliedExactly_iff_of_ok hstatus, hpeer, or_iff_right href,
        readExactly_iff searchable_peerFields hforeign w.longBits_ge]
      refine forall₂_congr fun m _ => forall₂_congr fun f hf => ?_
      rw [stores_peerCandidate_iff f hf]

/-- What the firmware hands the route is the text of the object, if it fits the buffer. -/
theorem zephyrPost_stringify {path : Text} {j : Fin zephyrHttpBufferSlots} {z : ZephyrState}
    (hlen : (stringify o).length < reqBufSize) :
    (zephyrPost w path (stringify o) j z).response =
        some (postRoute w path (stringify o) z.app).response ∧
      (zephyrPost w path (stringify o) j z).state.app =
        (postRoute w path (stringify o) z.app).app := by
  have hroute := @postRoute_eq w path z.app (stringify o) (not_le.mpr hlen)
  rw [cstr_stringify] at hroute
  rw [hroute]
  exact zephyrPost_eq

/-! ### Two bodies -/

/-- `{"mqtt_port":1885}` -/
def portBody : JsonObject where
  members := [(plain (str "mqtt_port"), .number ⟨false, 1885, 0, by decide⟩)]
  distinct := List.nodup_singleton _

theorem readExactly_portBody {unset : UInt16} {get : σ → UInt16}
    (hport : fields.filter (fun f => f.key = str "mqtt_port") =
      [⟨str "mqtt_port", .port unset get⟩]) : ReadExactly longBits fields portBody x := by
  intro before m after hsplit f hf hk
  have hlen := congrArg List.length hsplit
  rw [List.length_append, List.length_cons] at hlen
  have hone : portBody.members.length = 1 := rfl
  obtain rfl : before = [] := List.eq_nil_of_length_eq_zero (by omega)
  obtain ⟨rfl, -⟩ := List.cons.inj hsplit
  have hnum : IsNumber (.number ⟨false, 1885, 0, by decide⟩) (1885 : UInt16).toNat :=
    ⟨_, rfl, by simp [JsonNumber.value]⟩
  have hmem : f ∈ fields.filter fun f => f.key = str "mqtt_port" :=
    List.mem_filter.mpr ⟨hf, decide_eq_true (plain_inj.mp hk).symm⟩
  rw [hport] at hmem
  obtain rfl := List.mem_singleton.mp hmem
  rw [if_neg (by simp [Shadowed])]
  exact ⟨⟨1885, by decide, hnum⟩, printable_number hnum⟩

/-- A body with a port is applied exactly, by both routes. -/
theorem post_portBody_applied :
    let r := postRoute .good (str "/config") (stringify portBody) freshApp
    let r' := postRoute .good (peersPath ++ decimal 0) (stringify portBody) freshApp
    AppliedExactly configFields portBody freshApp r r.app.config.settings ∧
      AppliedExactly peerFields portBody freshApp r' (r'.app.config.peers 0) := by
  obtain ⟨hconfig, hpeer⟩ := @post_appliedExactly_iff portBody .good freshApp (by decide)
  have hforeign : Foreign configFields portBody ∧ Foreign peerFields portBody := by
    unfold Foreign
    decide
  exact ⟨(hconfig hforeign.1).mpr (Or.inr (readExactly_portBody rfl)),
    (hpeer 0 hforeign.2).mpr (Or.inr (readExactly_portBody rfl))⟩

/-- `{"device_name":"x","mqtt_port":"1885"}` -/
def quotedPortBody : JsonObject where
  members := [(plain (str "device_name"), .string (plain (str "x"))),
    (plain (str "mqtt_port"), .string (plain (str "1885")))]
  distinct := by decide

/-- A port between quotes is ignored, and the answer is 200 all the same. -/
theorem post_ignores_quotedPort :
    let r := postRoute .good (str "/config") (stringify quotedPortBody) freshApp
    SavesAll World.good.store ∧ Foreign configFields quotedPortBody ∧
      ¬ AppliedExactly configFields quotedPortBody freshApp r r.app.config.settings := by
  dsimp only
  refine ⟨by decide, ?_, fun happ => ?_⟩
  · unfold Foreign
    decide
  · have hstatus : (postRoute .good (str "/config") (stringify quotedPortBody)
        freshApp).response.status = 200 := by decide
    have hbad := (happ.refused ⟨(plain (str "mqtt_port"), .string (plain (str "1885"))),
      by simp [quotedPortBody], ⟨str "mqtt_port", .port 0 fun s => s.broker.mqttPort⟩,
      by simp [configFields], rfl, fun ⟨_, _, _, h, _⟩ => (by cases h)⟩).1
    rw [hstatus] at hbad
    exact absurd hbad (by decide)

end MqttFieldBridge.Http
