import MqttFieldBridge.Http.Echo
import MqttFieldBridge.Http.Repost
import MqttFieldBridge.Runtime.Seeds

/-! # Documents that another device reads

What a device shows of its settings and of a peer can be posted to any other device, as long as no
string has a quote or a backslash or is itself one of the keys that are looked up. Each string is then
printed over the other device's string, and each number and each flag is set
(`configCandidate_shown`); of a slot that is not in use, a port of 0 is not taken over
(`peerCandidate_shown`). -/

namespace MqttFieldBridge.Http

open MqttFieldBridge.CLib MqttFieldBridge.Config MqttFieldBridge.Runtime MqttFieldBridge.Json

variable {σ : Type} {longBits : ℕ} {body key rest : Text} {x y : σ}

/-! ### An object that shows a record -/

/-- The members show the record to the readers of the fields. -/
structure Shows (fields : List (Field σ)) (ms : List RawMember) (x : σ) : Prop where
  members : ∀ f ∈ fields, (f.key, f.slot.printedValue x) ∈ ms
  distinct : (ms.map Prod.fst).Nodup
  names : ∀ m ∈ ms, 34 ∉ m.1
  strings : ∀ m ∈ ms, ∀ t, m.2 = .string t → 34 ∉ t ∧ ∀ f ∈ fields, t ≠ f.key

/-- The reader of a field gets to its member. -/
theorem Shows.found {fields : List (Field σ)} {ms : List RawMember} (h : Shows fields ms x)
    (hfields : Searchable fields) {f : Field σ} (hf : f ∈ fields) : ∃ rest, NoDigit rest ∧
      Found (rawObject ms) f.key ((f.slot.printedValue x).text ++ rest) := by
  obtain ⟨hkey, hlen⟩ := hfields f hf
  obtain ⟨before, after, hsplit⟩ := List.append_of_mem (h.members f hf)
  have hbefore : ∀ m ∈ before, Apart f.key m := by
    intro m hm
    have hin : m ∈ ms := by
      rw [hsplit]
      exact List.mem_append_left _ hm
    have hne : m.1 ≠ f.key := by
      have hnodup := h.distinct
      rw [hsplit, List.map_append, List.map_cons, List.nodup_append] at hnodup
      exact hnodup.2.2 m.1 (List.mem_map_of_mem hm) f.key List.mem_cons_self
    refine ⟨hne, h.names m hin, fun t ht => ?_⟩
    obtain ⟨hquote, hforeign⟩ := h.strings m hin t ht
    exact ⟨hforeign f hf, hquote⟩
  obtain ⟨rest, hfind, hrest⟩ := @strstr_rawObject f.key hkey before after _ hbefore
  rw [← hsplit] at hfind
  exact ⟨rest, noDigit_rest hrest, found_of_strstr (colon_notMem_key hkey) hlen hfind⟩

/-- What the reader of a field makes of a record `y` if the object shows `x`. -/
def Slot.Takes (longBits : ℕ) (body key : Text) (x y : σ) : Slot σ → Prop
  | .text get => jsonGetString body key (get y) = (.ok, (get y).write ((get x).text ++ [0]))
  | .port _ get => jsonGetU16 longBits body key = if get x = 0 then none else some (get x)
  | .flag get => jsonGetBoolish longBits body key = some (get x)
  | .mode get =>
    let r := jsonGetString body key (.zero 16)
    r.1 = .ok ∧ productConfigNetworkModeFromName r.2.text = some (get x)

/-- `%s` and `%u` print the value of the slot as its readers read it. -/
def Slot.Plain (x : σ) : Slot σ → Prop
  | .text get => (get x).Terminated ∧ 34 ∉ (get x).text ∧ 92 ∉ (get x).text
  | .port _ _ => True
  | .flag get => get x ≤ 1
  | .mode get => get x = networkModeAuto ∨ get x = networkModeEth

/-- A port of 0 is not read. -/
theorem jsonGetU16_printed {n : UInt16} (hbits : 32 ≤ longBits) (hrest : NoDigit rest)
    (h : Found body key (decimal n.toNat ++ rest)) :
    jsonGetU16 longBits body key = if n = 0 then none else some n := by
  split_ifs with hzero
  · have hval := strtol_natural hbits hrest (n.toNat_lt.trans (by decide))
    rw [jsonGetU16_of_found h, hval, hzero]
    exact if_pos (Or.inl le_rfl)
  · exact jsonGetU16_decimal hzero hbits hrest h

theorem Slot.takes_of_found {slot : Slot σ} (hslot : slot.Plain x) (hbits : 32 ≤ longBits)
    (hrest : NoDigit rest) (h : Found body key ((slot.printedValue x).text ++ rest)) (y : σ) :
    slot.Takes longBits body key x y := by
  cases slot with
  | text get =>
    obtain ⟨hterm, hquote, hback⟩ := hslot
    exact jsonGetString_raw h (CharArray.length_text_lt hterm) hquote hback
  | port unset get => exact jsonGetU16_printed hbits hrest h
  | flag get => exact jsonGetBoolish_decimal hslot hbits hrest h
  | mode get =>
    obtain ⟨hlen, hquote, hback, h0, hname⟩ := modeName_inverse hslot
    have hread := @jsonGetString_raw _ _ _ 16 (.zero 16) _ h hlen hquote hback
    refine ⟨by rw [hread], ?_⟩
    rw [hread, CharArray.text_write h0 hlen]
    exact hname

/-- **Every field of the object is read**, whatever the record of before. -/
theorem Shows.takes {fields : List (Field σ)} {ms : List RawMember} (h : Shows fields ms x)
    (hfields : Searchable fields) (hslots : ∀ f ∈ fields, f.slot.Plain x)
    (hbits : 32 ≤ longBits) (y : σ) :
    ∀ f ∈ fields, f.slot.Takes longBits (rawObject ms) f.key x y := by
  intro f hf
  obtain ⟨rest, hrest, hfound⟩ := h.found hfields hf
  exact Slot.takes_of_found (hslots f hf) hbits hrest hfound y

/-! ### The settings -/

variable {s t : FieldBridgeSettings}

/-- The settings `t` with the fields of `s`: the strings are printed over those of `t`. -/
def restoredSettings (s t : FieldBridgeSettings) : FieldBridgeSettings where
  system :=
    { deviceName := t.system.deviceName.write (s.system.deviceName.text ++ [0]) }
  network :=
    { s.network with
      deviceIp := t.network.deviceIp.write (s.network.deviceIp.text ++ [0])
      gateway := t.network.gateway.write (s.network.gateway.text ++ [0])
      netmask := t.network.netmask.write (s.network.netmask.text ++ [0])
      dns := t.network.dns.write (s.network.dns.text ++ [0]) }
  broker :=
    { s.broker with
      brokerIp := t.broker.brokerIp.write (s.broker.brokerIp.text ++ [0])
      siteId := t.broker.siteId.write (s.broker.siteId.text ++ [0])
      topicPrefix := t.broker.topicPrefix.write (s.broker.topicPrefix.text ++ [0]) }

/-- A string that is printed over another is read back. -/
theorem text_restored {n : ℕ} {a b : CharArray n} (h : a.Terminated) :
    (b.write (a.text ++ [0])).text = a.text :=
  CharArray.text_write a.zero_notMem_text (CharArray.length_text_lt h)

/-- A string that is printed over itself. -/
theorem write_text {n : ℕ} {a : CharArray n} (h : a.Terminated) : a.write (a.text ++ [0]) = a :=
  (CharArray.write_eq_self_iff a.zero_notMem_text (CharArray.length_text_lt h)).mpr ⟨h, rfl⟩

theorem restoredSettings_self (h : SettingsTerminated s) : restoredSettings s s = s := by
  unfold restoredSettings
  rw [write_text h.deviceName, write_text h.network.deviceIp, write_text h.network.gateway,
    write_text h.network.netmask, write_text h.network.dns, write_text h.brokerIp, write_text h.siteId,
    write_text h.topicPrefix]

theorem sameFields_restored (h : SettingsTerminated s) : SameFields s (restoredSettings s t) where
  deviceName := (text_restored h.deviceName).symm
  deviceIp := (text_restored h.network.deviceIp).symm
  gateway := (text_restored h.network.gateway).symm
  netmask := (text_restored h.network.netmask).symm
  dns := (text_restored h.network.dns).symm
  dhcpEnabled := rfl
  mode := rfl
  brokerIp := (text_restored h.brokerIp).symm
  siteId := (text_restored h.siteId).symm
  topicPrefix := (text_restored h.topicPrefix).symm
  mqttPort := rfl
  p2pPort := rfl
  fallbackPort := rfl
  brokerEnabled := rfl
  bridgeEnabled := rfl
  meshEnabled := rfl

/-- A string is empty if its text is. -/
theorem first_congr {n : ℕ} {a b : CharArray n} (h : a.text = b.text) (ha : a.first ≠ 0) :
    b.first ≠ 0 := by
  rw [ne_eq, ← CharArray.text_eq_nil_iff] at ha ⊢
  rw [← h]
  exact ha

theorem SameFields.symm (h : SameFields s t) : SameFields t s :=
  ⟨h.deviceName.symm, h.deviceIp.symm, h.gateway.symm, h.netmask.symm, h.dns.symm, h.dhcpEnabled.symm,
    h.mode.symm, h.brokerIp.symm, h.siteId.symm, h.topicPrefix.symm, h.mqttPort.symm, h.p2pPort.symm,
    h.fallbackPort.symm, h.brokerEnabled.symm, h.bridgeEnabled.symm, h.meshEnabled.symm⟩

/-- The checks look at the fields only. -/
theorem SameFields.valid (h : SameFields s t) (hv : SettingsValid s) : SettingsValid t where
  v1 :=
    { deviceName := first_congr h.deviceName hv.v1.deviceName
      deviceIp := first_congr h.deviceIp hv.v1.deviceIp
      gateway := first_congr h.gateway hv.v1.gateway
      netmask := first_congr h.netmask hv.v1.netmask
      dns := first_congr h.dns hv.v1.dns
      dhcpEnabled := h.dhcpEnabled ▸ hv.v1.dhcpEnabled
      mode := h.mode ▸ hv.v1.mode
      brokerIp := first_congr h.brokerIp hv.v1.brokerIp
      siteId := first_congr h.siteId hv.v1.siteId
      topicPrefix := first_congr h.topicPrefix hv.v1.topicPrefix
      mqttPort := fun h0 => hv.v1.mqttPort (h.mqttPort.trans h0)
      p2pPort := fun h0 => hv.v1.p2pPort (h.p2pPort.trans h0)
      brokerEnabled := h.brokerEnabled.symm.trans_le hv.v1.brokerEnabled
      bridgeEnabled := h.bridgeEnabled.symm.trans_le hv.v1.bridgeEnabled
      meshEnabled := h.meshEnabled.symm.trans_le hv.v1.meshEnabled }
  fallbackPort := h.fallbackPort ▸ hv.fallbackPort
  ne_mqttPort := h.fallbackPort ▸ h.mqttPort ▸ hv.ne_mqttPort
  ne_p2pPort := h.fallbackPort ▸ h.p2pPort ▸ hv.ne_p2pPort
  ne_http := h.fallbackPort ▸ hv.ne_http

/-- The document shows the fields only. -/
theorem SameFields.members (h : SameFields s t) : configMembers t = configMembers s := by
  unfold configMembers
  rw [h.deviceName, h.mode, h.deviceIp, h.gateway, h.netmask, h.dns, h.dhcpEnabled, h.brokerIp,
    h.siteId, h.topicPrefix, h.mqttPort, h.fallbackPort, h.p2pPort, h.brokerEnabled, h.bridgeEnabled,
    h.meshEnabled]

theorem shows_configMembers (htexts : ∀ t ∈ settingsTexts s, Harmless t) :
    Shows configFields (configMembers s) s where
  members := mem_configMembers
  distinct := configMembers_distinct
  names := by
    simp only [configMembers, List.forall_mem_cons]
    decide
  strings m hm t ht := by
    have h := harmless_configMembers htexts m hm t ht
    exact ⟨h.quote, h.key⟩

/-- **What is shown of settings, asked of any other settings**, whether they pass the check or not. -/
theorem configCandidate_shown (hbits : 32 ≤ longBits)
    (hreadable : ∀ f ∈ configFields, f.slot.Readable s) (htexts : ∀ t ∈ settingsTexts s, Harmless t)
    (t : FieldBridgeSettings) :
    configCandidate longBits (rawObject (configMembers s)) t = some (restoredSettings s t) := by
  have hslots : ∀ f ∈ configFields, f.slot.Plain s := by
    intro f hf
    have hslot := hreadable f hf
    rcases hs : f.slot with get | ⟨unset, get⟩ | get | get
    all_goals rw [hs] at hslot
    · exact hslot
    · trivial
    · exact hslot
    · exact hslot
  have htakes := (shows_configMembers htexts).takes searchable_configFields hslots hbits t
  simp only [configFields, List.forall_mem_cons, Slot.Takes] at htakes
  obtain ⟨h1, h2, h3, h4, h5, h6, h7, h8, ⟨hok, hmode⟩, h10, h11, h12, h13, h14, h15, h16, -⟩ := htakes
  simp only [configFields, List.forall_mem_cons, Slot.Readable] at hreadable
  obtain ⟨-, -, -, -, -, -, -, -, -, -, -, -, -, hmqtt, hfallback, hp2p, -⟩ := hreadable
  rw [if_neg hmqtt] at h14
  rw [if_neg hfallback] at h15
  rw [if_neg hp2p] at h16
  refine configCandidate_eq_some.mpr ⟨fun hu => ?_, Or.inl (by rw [h1]), ?_⟩
  · have hnone := hu.2
    rw [readMode, hmode] at hnone
    cases hnone
  · simp only [newSettings, readMode, h1, h2, h3, h4, h5, h6, h7, h8, hok, hmode, h10, h11, h12, h13,
      h14, h15, h16, if_true, Option.getD_some]
    rfl

/-! ### A peer -/

variable {p q : FieldBridgePeer}

/-- The strings of the peer have no quotes and backslashes, and are no keys of `apply_peer_json`. -/
def HarmlessPeer (p : FieldBridgePeer) : Prop :=
  ∀ t ∈ [p.name.text, p.host.text], 34 ∉ t ∧ 92 ∉ t ∧ ∀ f ∈ peerFields, t ≠ f.key

instance (p : FieldBridgePeer) : Decidable (HarmlessPeer p) := by unfold HarmlessPeer; infer_instance

/-- The peer `q` with the fields of `p`. A port of 0 is not set. -/
def restoredPeer (p q : FieldBridgePeer) : FieldBridgePeer :=
  let p2pPort := if p.p2pPort = 0 then q.p2pPort else p.p2pPort
  { name := q.name.write (p.name.text ++ [0])
    host := q.host.write (p.host.text ++ [0])
    mqttPort := if p.mqttPort = 0 then q.mqttPort else p.mqttPort
    p2pPort := if p2pPort = 0 then 4884 else p2pPort
    enabled := p.enabled }

/-- The peer `q` is `p` but for ports that `p` has not set. -/
structure SamePeer (p q : FieldBridgePeer) : Prop where
  name : p.name.text = q.name.text
  host : p.host.text = q.host.text
  enabled : p.enabled = q.enabled
  mqttPort : p.mqttPort ≠ 0 → p.mqttPort = q.mqttPort
  p2pPort : p.p2pPort ≠ 0 → p.p2pPort = q.p2pPort

theorem samePeer_restored (h : PeerTerminated p) : SamePeer p (restoredPeer p q) where
  name := (text_restored h.name).symm
  host := (text_restored h.host).symm
  enabled := rfl
  mqttPort hp := (if_neg hp).symm
  p2pPort hp := by
    unfold restoredPeer
    dsimp only
    rw [if_neg hp, if_neg hp]

theorem SamePeer.valid (h : SamePeer p q) (hv : PeerValid p) : PeerValid q where
  enabled := h.enabled.symm.trans_le hv.enabled
  usable hq := by
    obtain ⟨hhost, hmqtt, hp2p⟩ := hv.usable fun h0 => hq (h.enabled.symm.trans h0)
    refine ⟨first_congr h.host hhost, ?_, ?_⟩
    · rw [← h.mqttPort hmqtt]
      exact hmqtt
    · rw [← h.p2pPort hp2p]
      exact hp2p

/-- Both ask for the same seed. -/
theorem SamePeer.seed (h : SamePeer p q) (hv : PeerValid p) (lib : SeedLib) :
    seedOf lib q = seedOf lib p := by
  unfold seedOf
  by_cases henabled : p.enabled = 0
  · have hq : q.enabled = 0 := h.enabled.symm.trans henabled
    rw [if_pos (Or.inl hq), if_pos (Or.inl henabled)]
  · obtain ⟨hhost, hmqtt, hp2p⟩ := hv.usable henabled
    obtain ⟨hhost', hmqtt', hp2p'⟩ := (h.valid hv).usable (by rwa [← h.enabled])
    rw [← h.enabled, if_neg (by simp [henabled, hhost', hmqtt', hp2p']),
      if_neg (by simp [henabled, hhost, hmqtt, hp2p]), h.host, h.p2pPort hp2p]

theorem shows_peerMembers (hp : HarmlessPeer p) (i : ℕ) : Shows peerFields (peerMembers i p) p where
  members := by
    simp only [peerFields, List.forall_mem_cons, Slot.printedValue, peerMembers]
    simp
  distinct := by
    simp only [peerMembers, List.map_cons, List.map_nil]
    decide
  names := by
    simp only [peerMembers, List.forall_mem_cons]
    decide
  strings := by
    simp only [HarmlessPeer, List.forall_mem_cons] at hp
    obtain ⟨hname, hhost, -⟩ := hp
    simp only [peerMembers, List.forall_mem_cons]
    exact ⟨RawValue.of_number, RawValue.of_string ⟨hname.1, hname.2.2⟩,
      RawValue.of_string ⟨hhost.1, hhost.2.2⟩, RawValue.of_number, RawValue.of_number,
      RawValue.of_number, List.forall_mem_nil _⟩

/-- **What an object shows of a peer, asked of any other peer.** -/
theorem peerCandidate_shown {ms : List RawMember} (hbits : 32 ≤ longBits)
    (hshows : Shows peerFields ms p) (henabled : p.enabled ≤ 1) (hterm : PeerTerminated p)
    (hp : HarmlessPeer p) (q : FieldBridgePeer) :
    peerCandidate longBits (rawObject ms) q = restoredPeer p q := by
  have hslots : ∀ f ∈ peerFields, f.slot.Plain p := by
    simp only [HarmlessPeer, List.forall_mem_cons] at hp
    obtain ⟨hname, hhost, -⟩ := hp
    simp only [peerFields, List.forall_mem_cons, Slot.Plain]
    exact ⟨⟨hterm.name, hname.1, hname.2.1⟩, ⟨hterm.host, hhost.1, hhost.2.1⟩, trivial, trivial,
      henabled, List.forall_mem_nil _⟩
  have htakes := hshows.takes searchable_peerFields hslots hbits q
  simp only [peerFields, List.forall_mem_cons, Slot.Takes] at htakes
  obtain ⟨h1, h2, h3, h4, h5, -⟩ := htakes
  have hget : ∀ n m : UInt16, (if n = 0 then none else some n : Option UInt16).getD m =
      if n = 0 then m else n := by
    intro n m
    split_ifs
    · rfl
    · rfl
  unfold peerCandidate copyIfPresent restoredPeer
  rw [h1, h2, h3, h4, h5, hget, hget]
  rfl

theorem peerCandidate_restored (hbits : 32 ≤ longBits) (hvalid : PeerValid p)
    (hterm : PeerTerminated p) (hp : HarmlessPeer p) (i : ℕ) (q : FieldBridgePeer) :
    peerCandidate longBits (rawObject (peerMembers i p)) q = restoredPeer p q :=
  peerCandidate_shown hbits (shows_peerMembers hp i) hvalid.enabled hterm hp q

/-! ### They fit the buffer of a request -/

theorem length_rawObject_sum (ms : List RawMember) : (rawObject ms).length ≤
    (ms.map fun m => m.1.length + m.2.text.length + 4).sum + 2 := by
  have hmembers := length_intercalate_le (ms.map rawMemberText)
  have hsum : ((ms.map rawMemberText).map fun t => t.length + 1) =
      ms.map fun m => m.1.length + m.2.text.length + 4 := by
    rw [List.map_map]
    refine List.map_congr_left fun m _ => ?_
    simp only [Function.comp_apply, rawMemberText, List.length_append, List.length_cons,
      List.length_nil]
    omega
  rw [hsum] at hmembers
  unfold rawObject
  simp only [List.length_append, List.length_cons, List.length_nil]
  omega

theorem length_flag {b : UInt8} (h : b ≤ 1) : (RawValue.number b.toNat).text.length ≤ 1 := by
  have hle : b.toNat ≤ 1 := UInt8.le_iff_toNat_le.mp h
  exact length_decimal_le (by decide) (by omega)

/-- **What a device shows of its settings can be posted**, to the firmware as well. -/
theorem length_configMembers (hreadable : ∀ f ∈ configFields, f.slot.Readable s)
    (ht : SettingsTerminated s) : (rawObject (configMembers s)).length < reqBufSize := by
  simp only [configFields, List.forall_mem_cons, Slot.Readable] at hreadable
  obtain ⟨-, -, -, -, -, -, -, -, -, hdhcp, hbroker, hbridge, hmesh, -⟩ := hreadable
  have hsum := length_rawObject_sum (configMembers s)
  have h1 := length_chars ht.deviceName
  have h2 := length_version
  have h3 := length_modeName s.network.mode
  have h4 := length_chars ht.network.deviceIp
  have h5 := length_chars ht.network.gateway
  have h6 := length_chars ht.network.netmask
  have h7 := length_chars ht.network.dns
  have h8 := length_chars ht.brokerIp
  have h9 := length_chars ht.siteId
  have h10 := length_chars ht.topicPrefix
  have h11 := length_flag hdhcp
  have h12 : (RawValue.number s.broker.brokerEnabled.toNat).text.length ≤ 1 := length_flag hbroker
  have h13 : (RawValue.number s.broker.bridgeEnabled.toNat).text.length ≤ 1 := length_flag hbridge
  have h14 : (RawValue.number s.broker.meshEnabled.toNat).text.length ≤ 1 := length_flag hmesh
  have h15 := length_u16 s.broker.mqttPort
  have h16 := length_u16 s.broker.fallbackPort
  have h17 := length_u16 s.broker.p2pPort
  have h18 : (RawValue.number fieldBridgeConfigVersion.toNat).text.length ≤ 1 := by decide
  have hkeys : (configMembers s).map (fun m => m.1.length) =
      [11, 16, 14, 4, 9, 7, 7, 3, 12, 9, 7, 12, 9, 13, 8, 14, 14, 12] := by
    simp only [configMembers, List.map_cons, List.map_nil]
    decide
  generalize (rawObject (configMembers s)).length = size at hsum ⊢
  simp only [configMembers, List.map_cons, List.map_nil, List.cons.injEq, and_true] at hkeys
  simp only [configMembers, List.map_cons, List.map_nil, List.sum_cons, List.sum_nil] at hsum
  simp only [fieldBridgeNameMax, fieldBridgeHostMax, fieldBridgeSiteMax, fieldBridgeTopicMax]
    at h1 h4 h5 h6 h7 h8 h9 h10
  simp only [reqBufSize]
  omega

theorem length_peerMembers (h : PeerTerminated p) (i : Fin fieldBridgePeerMax) :
    (rawObject (peerMembers i p)).length < reqBufSize := by
  have hindex : (i : ℕ) < 10 ^ 1 := by
    have hlt : (i : ℕ) < 2 := i.isLt
    omega
  have hkeys : ∀ m ∈ peerMembers i p, m.1.length ≤ 9 := by
    simp only [peerMembers, List.forall_mem_cons]
    decide
  have hvalues : ∀ m ∈ peerMembers i p, m.2.text.length ≤ 65 := by
    simp only [peerMembers, List.forall_mem_cons]
    exact ⟨(length_decimal_le (by decide) hindex).trans (by decide),
      (length_chars h.name).trans (by decide), length_chars h.host, (length_u16 _).trans (by decide),
      (length_u16 _).trans (by decide), (length_u8 _).trans (by decide), List.forall_mem_nil _⟩
  exact (length_rawObject_le hkeys hvalues).trans_lt (show 6 * (9 + 65 + 4) + 2 < 768 by decide)

end MqttFieldBridge.Http
