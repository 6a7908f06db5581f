import MqttFieldBridge.Web.Entry

/-! # What the page shows

The rows that `L` writes mean what the device holds, if no text has a character with which a reference
begins in an attribute (`typed_shown`, `peerTyped_shown`). So the assignments of `s` to what nobody has
edited leave the object as it is (`collect_shown`). A port of 0 is shown as the one that the script
takes for it: with a save of its row the peer is `filled`. -/

namespace MqttFieldBridge.Web

open MqttFieldBridge.CLib MqttFieldBridge.Config MqttFieldBridge.Http MqttFieldBridge.Json

/-! ### Inputs -/

/-- A text that stands for itself in an attribute. -/
structure AttributeText (t : Text) : Prop where
  plain : PlainText t
  reference : 38 ∉ t

/-- The browser reads numerals of ports, and attributes whose texts stand for themselves. -/
structure Browser.Reads (B : Browser) : Prop where
  numeral : ∀ n : UInt16, B.toNumber (plain (decimal n.toNat)) = .finite (.ofNat n.toNat)
  inputs : ∀ t, AttributeText t → B.inputValue (plain t) = plain t

variable {B : Browser} {s : FieldBridgeSettings} {p : FieldBridgePeer} {t : Text} {n d : UInt16}

theorem attributeText_decimal (k : ℕ) : AttributeText (decimal k) := by
  have hbyte : ∀ b ∈ decimal k, 48 ≤ b.toNat ∧ b.toNat ≤ 57 := fun b hb =>
    isdigit_bounds (isdigit_decimal b hb)
  refine ⟨PrintableAscii.plain fun b hb => ?_, fun h => ?_⟩
  · have h := hbyte b hb
    refine ⟨by omega, by omega, ?_, ?_⟩
    · rintro rfl
      exact absurd h.1 (by decide)
    · rintro rfl
      exact absurd h.2 (by decide)
  · exact absurd (hbyte 38 h).1 (by decide)

/-- The input for a text. -/
theorem inputValue_text (hB : B.Reads) (ht : AttributeText t) :
    B.inputValue (concat (orElse (some (RawValue.string t).value) (.string []))) = plain t := by
  have hvalue : concat (orElse (some (RawValue.string t).value) (.string [])) = plain t := by
    cases t with
    | nil => rfl
    | cons b bs => rfl
  rw [hvalue, hB.inputs t ht]

/-- A port, or the one that the script takes for a missing one. -/
def portOr (n d : UInt16) : UInt16 := if n = 0 then d else n

theorem portOr_ne_zero (hd : d ≠ 0) : portOr n d ≠ 0 := by
  unfold portOr
  split_ifs with hn
  · exact hd
  · exact hn

theorem portOr_of_ne (hn : n ≠ 0) : portOr n d = n := if_neg hn

theorem portOr_idem : portOr (portOr n d) d = portOr n d := by
  by_cases hn : n = 0
  · have hd : portOr n d = d := if_pos hn
    rw [hd]
    unfold portOr
    split_ifs
    · rfl
    · rfl
  · rw [portOr_of_ne hn, portOr_of_ne hn]

theorem orElse_port : orElse (some (RawValue.number n.toNat).value) (.number (.ofNat d.toNat)) =
    .number (.ofNat (portOr n d).toNat) := by
  have hzero : (JsonNumber.ofNat n.toNat).digits = 0 ↔ n = 0 := by
    rw [JsonNumber.digits_ofNat, ← UInt16.toNat_inj]
    rfl
  unfold orElse truthy RawValue.value portOr
  dsimp only
  by_cases hn : n = 0
  · rw [if_pos hn, if_neg (by simpa using hzero.mpr hn)]
  · rw [if_neg hn, if_pos (by simpa using fun h => hn (hzero.mp h))]

/-- The input for a number. -/
theorem inputValue_number (hB : B.Reads) (n : UInt16) :
    B.inputValue (concat (.number (.ofNat n.toNat))) = plain (decimal n.toNat) := by
  have hvalue : concat (.number (.ofNat n.toNat)) = plain (decimal n.toNat) :=
    congrArg plain (JsonNumber.text_ofNat (u16_lt n))
  rw [hvalue, hB.inputs _ (attributeText_decimal _)]

/-- The number that the script makes of it. -/
theorem plusOr_decimal (hB : B.Reads) (hn : n ≠ 0) (k : ℕ) :
    plusOr B (some (.string (plain (decimal n.toNat)))) k = .number (.ofNat n.toNat) :=
  plusOr_natural (fun h => hn (UInt16.toNat_inj.mp h)) (hB.numeral n)

theorem truthy_flag (b : UInt8) :
    (some (RawValue.number b.toNat).value).any truthy = decide (b ≠ 0) := by
  have hzero : (JsonNumber.ofNat b.toNat).digits = 0 ↔ b = 0 := by
    rw [JsonNumber.digits_ofNat, ← UInt8.toNat_inj]
    rfl
  show decide _ = _
  exact decide_eq_decide.mpr (not_congr hzero)

theorem flag_eq {b : UInt8} (hb : b ≤ 1) : (if decide (b ≠ 0) then 1 else 0 : UInt8) = b := by
  by_cases h0 : b = 0
  · subst h0
    rfl
  · have hle : b.toNat ≤ 1 := UInt8.le_iff_toNat_le.mp hb
    have hne : b.toNat ≠ 0 := fun h => h0 (UInt8.toNat_inj.mp h)
    rw [if_pos (decide_eq_true h0), ← UInt8.toNat_inj]
    show 1 = b.toNat
    omega

/-! ### The settings -/

/-- The entry that the page shows for settings. -/
def shownEntry (s : FieldBridgeSettings) : Entry where
  mode := s.network.mode
  dhcpEnabled := s.network.dhcpEnabled ≠ 0
  deviceIp := s.network.deviceIp.text
  gateway := s.network.gateway.text
  netmask := s.network.netmask.text
  dns := s.network.dns.text
  brokerIp := s.broker.brokerIp.text
  topicPrefix := s.broker.topicPrefix.text
  mqttPort := s.broker.mqttPort
  fallbackPort := s.broker.fallbackPort
  p2pPort := s.broker.p2pPort

theorem texts_shownEntry : (shownEntry s).texts =
    [(str "device_ip", s.network.deviceIp.text), (str "gateway", s.network.gateway.text),
      (str "netmask", s.network.netmask.text), (str "dns", s.network.dns.text),
      (str "broker_ip", s.broker.brokerIp.text), (str "topic_prefix", s.broker.topicPrefix.text)] := rfl

theorem ports_shownEntry : (shownEntry s).ports =
    [(str "mqtt_port", 1883, s.broker.mqttPort), (str "fallback_port", 1884, s.broker.fallbackPort),
      (str "p2p_port", 4884, s.broker.p2pPort)] := rfl

theorem get?_configObject {k : Text} {v : RawValue} (h : (k, v) ∈ configMembers s) :
    (configObject s).get? (plain k) = some v.value :=
  @JsonObject.get?_ofRaw (configMembers s) configMembers_distinct (k, v) h

theorem sound_shownEntry (hs : Postable s) : (shownEntry s).Sound := by
  obtain ⟨hreadable, hterm, htexts⟩ := hs
  simp only [configFields, List.forall_mem_cons, Slot.Readable] at hreadable
  obtain ⟨-, -, -, -, -, -, -, -, hmode, -, -, -, -, hmqtt, hfallback, hp2p, -⟩ := hreadable
  simp only [settingsTexts, List.forall_mem_cons] at htexts
  obtain ⟨-, h1, h2, h3, h4, h5, -, h6, -⟩ := htexts
  refine ⟨hmode, ?_, ?_⟩
  · rw [texts_shownEntry]
    simp only [List.forall_mem_cons]
    exact ⟨⟨h1, CharArray.length_text_lt hterm.network.deviceIp⟩,
      ⟨h2, CharArray.length_text_lt hterm.network.gateway⟩,
      ⟨h3, CharArray.length_text_lt hterm.network.netmask⟩,
      ⟨h4, CharArray.length_text_lt hterm.network.dns⟩, ⟨h5, CharArray.length_text_lt hterm.brokerIp⟩,
      ⟨h6, CharArray.length_text_lt hterm.topicPrefix⟩, List.forall_mem_nil _⟩
  · rw [ports_shownEntry]
    simp only [List.forall_mem_cons]
    exact ⟨hmqtt, hfallback, hp2p, List.forall_mem_nil _⟩

theorem mode_settingsForm (C : JsonObject) : (settingsForm B C).mode =
    if C.get? (plain (str "mode")) = some (.string (key "eth")) then key "eth" else key "auto" := rfl

theorem dhcpEnabled_settingsForm (C : JsonObject) :
    (settingsForm B C).dhcpEnabled = (C.get? (plain (str "dhcp_enabled"))).any truthy := rfl

theorem input_settingsForm (C : JsonObject) (k : Text) : (settingsForm B C).input k =
    B.inputValue (concat (orElse (C.get? (plain k)) (.string []))) := rfl

/-- The input for a text of the settings. -/
theorem input_text (hB : B.Reads) {k : Text} (hk : (k, RawValue.string t) ∈ configMembers s)
    (ht : AttributeText t) : (settingsForm B (configObject s)).input k = plain t := by
  rw [input_settingsForm, get?_configObject hk, inputValue_text hB ht]

/-- The input for a port of the settings. -/
theorem input_port (hB : B.Reads) {k : Text} (hk : (k, RawValue.number n.toNat) ∈ configMembers s)
    (hn : n ≠ 0) : (settingsForm B (configObject s)).input k = plain (decimal n.toNat) := by
  have htruthy : truthy (RawValue.number n.toNat).value = true :=
    decide_eq_true fun h => hn (UInt16.toNat_inj.mp (JsonNumber.digits_ofNat.mp h))
  rw [input_settingsForm, get?_configObject hk, orElse, if_pos htruthy]
  exact inputValue_number hB n

/-- The mode that is selected. -/
theorem selected_mode (h : s.network.mode = networkModeAuto ∨ s.network.mode = networkModeEth) :
    (settingsForm B (configObject s)).mode = plain (productConfigNetworkModeName s.network.mode) := by
  have hmem : (str "mode", RawValue.string (productConfigNetworkModeName s.network.mode)) ∈
      configMembers s := by simp only [configMembers, List.mem_cons, true_or, or_true]
  rw [mode_settingsForm, get?_configObject hmem]
  rcases h with hmode | hmode
  · rw [hmode]
    rfl
  · rw [hmode]
    rfl

/-- **The rows of the settings mean what the device holds.** -/
theorem typed_shown (hB : B.Reads) (hs : Postable s)
    (ht : ∀ q ∈ (shownEntry s).texts, AttributeText q.2) :
    Typed B (settingsForm B (configObject s)) (shownEntry s) := by
  have hsound := sound_shownEntry hs
  have hports := hsound.ports
  rw [texts_shownEntry] at ht
  rw [ports_shownEntry] at hports
  simp only [List.forall_mem_cons] at ht hports
  obtain ⟨h1, h2, h3, h4, h5, h6, -⟩ := ht
  obtain ⟨hmqtt, hfallback, hp2p, -⟩ := hports
  have hdhcp : (str "dhcp_enabled", RawValue.number s.network.dhcpEnabled.toNat) ∈ configMembers s := by
    simp only [configMembers, List.mem_cons, true_or, or_true]
  refine ⟨selected_mode hsound.mode, ?_, ?_, ?_⟩
  · rw [dhcpEnabled_settingsForm, get?_configObject hdhcp, truthy_flag]
    rfl
  · rw [texts_shownEntry]
    simp only [List.forall_mem_cons]
    refine ⟨input_text hB ?_ h1, input_text hB ?_ h2, input_text hB ?_ h3, input_text hB ?_ h4,
      input_text hB ?_ h5, input_text hB ?_ h6, List.forall_mem_nil _⟩
    all_goals simp only [configMembers, List.mem_cons, true_or, or_true]
  · rw [ports_shownEntry]
    simp only [List.forall_mem_cons]
    rw [input_port hB ?_ hmqtt, input_port hB ?_ hfallback, input_port hB ?_ hp2p]
    · exact ⟨plusOr_decimal hB hmqtt _, plusOr_decimal hB hfallback _, plusOr_decimal hB hp2p _,
        List.forall_mem_nil _⟩
    all_goals simp only [configMembers, List.mem_cons, true_or, or_true]

/-- What is shown of settings is what is shown of them with their own entry. -/
theorem configMembers_shownEntry (hs : Postable s) :
    configMembers ((shownEntry s).onto s) = configMembers s := by
  have hreadable := hs.readable
  simp only [configFields, List.forall_mem_cons, Slot.Readable] at hreadable
  obtain ⟨-, -, -, -, -, -, -, -, -, hdhcp, -⟩ := hreadable
  have htexts := (sound_shownEntry hs).texts
  simp only [Entry.texts, List.forall_mem_cons] at htexts
  obtain ⟨h1, h2, h3, h4, h5, h6, -⟩ := htexts
  simp only [configMembers, List.cons.injEq, Prod.mk.injEq, RawValue.string.injEq, true_and, and_true]
  exact ⟨rfl, rfl, text_typedArray h1.1.plain h1.2, text_typedArray h2.1.plain h2.2,
    text_typedArray h3.1.plain h3.2, text_typedArray h4.1.plain h4.2,
    congrArg (fun b : UInt8 => RawValue.number b.toNat) (flag_eq hdhcp),
    text_typedArray h5.1.plain h5.2, rfl, text_typedArray h6.1.plain h6.2, rfl, rfl, rfl, rfl, rfl, rfl⟩

/-- **What nobody has edited is posted as it was read.** -/
theorem collect_shown (hB : B.Reads) (hs : Postable s)
    (ht : ∀ q ∈ (shownEntry s).texts, AttributeText q.2) :
    collect B (settingsForm B (configObject s)) (configObject s) = configObject s := by
  rw [collect_typed (typed_shown hB hs ht) (sound_shownEntry hs)]
  unfold configObject
  rw [configMembers_shownEntry hs]

/-! ### Peers -/

/-- The peer that is stored with a save of the row that shows it. -/
def filled (p : FieldBridgePeer) : FieldBridgePeer :=
  { p with mqttPort := portOr p.mqttPort 1883, p2pPort := portOr p.p2pPort 4884 }

/-- The entry that the page shows for a peer. -/
def shownPeer (p : FieldBridgePeer) : PeerEntry where
  enabled := p.enabled ≠ 0
  name := p.name.text
  host := p.host.text
  mqttPort := (filled p).mqttPort
  p2pPort := (filled p).p2pPort

/-- A peer that is filled already is shown alike. -/
theorem shownPeer_filled (p : FieldBridgePeer) : shownPeer (filled p) = shownPeer p := by
  have hmqtt := @portOr_idem p.mqttPort 1883
  have hp2p := @portOr_idem p.p2pPort 4884
  unfold shownPeer filled
  dsimp only
  rw [hmqtt, hp2p]

/-- The strings of the peer stand for themselves in attributes, and are no keys of `apply_peer_json`. -/
def PresentablePeer (p : FieldBridgePeer) : Prop :=
  ∀ t ∈ [p.name.text, p.host.text], AttributeText t ∧ ∀ f ∈ peerFields, t ≠ f.key

theorem sound_shownPeer (hp : PresentablePeer p) (hterm : PeerTerminated p) : (shownPeer p).Sound := by
  simp only [PresentablePeer, List.forall_mem_cons] at hp
  obtain ⟨⟨hname, hnameKey⟩, ⟨hhost, hhostKey⟩, -⟩ := hp
  exact ⟨⟨hname.plain, hnameKey, CharArray.length_text_lt hterm.name⟩,
    ⟨hhost.plain, hhostKey, CharArray.length_text_lt hterm.host⟩, portOr_ne_zero (by decide),
    portOr_ne_zero (by decide)⟩

/-- The script reads a member. -/
theorem treeGet?_reads {x : JsonTree} {ms : List RawMember} {k : String} {v : RawValue}
    (hx : ReadsObject x ms) (hm : (str k, v) ∈ ms) : treeGet? x k = some v.value := by
  obtain ⟨o, rfl, hreads⟩ := hx
  obtain ⟨⟨q, hq, hkey⟩, hread⟩ := hreads _ hm
  unfold treeGet?
  dsimp only
  rcases hf : o.reverse.find? fun q => utf8 q.1 = str k with _ | q'
  · exact absurd (decide_eq_true hkey) (List.find?_eq_none.mp hf q (List.mem_reverse.mpr hq))
  · have hkey' : utf8 q'.1 = str k := by simpa using List.find?_some hf
    have hmem := List.mem_reverse.mp (List.mem_of_find?_eq_some hf)
    rw [hf, Option.bind_some]
    exact scalar_of_raw (hread q' hmem hkey')

/-- **The row of a peer means what the device holds**, with its ports filled. -/
theorem peerTyped_shown (hB : B.Reads) (hp : PresentablePeer p) {i : ℕ} {x : JsonTree}
    (hx : ReadsObject x (peerMembers i p)) : PeerTyped B (peerForm B x) (shownPeer p) := by
  simp only [PresentablePeer, List.forall_mem_cons] at hp
  obtain ⟨⟨hname, -⟩, ⟨hhost, -⟩, -⟩ := hp
  have hport : ∀ {k : String} {n d : UInt16}, (str k, RawValue.number n.toNat) ∈ peerMembers i p →
      d ≠ 0 → plusOr B (some (.string (B.inputValue (concat (orElse (treeGet? x k)
        (.number (.ofNat d.toNat))))))) d.toNat = .number (.ofNat (portOr n d).toNat) := by
    intro k n d hmem hd
    rw [treeGet?_reads hx hmem, orElse_port, inputValue_number hB,
      plusOr_decimal hB (portOr_ne_zero hd)]
  refine ⟨?_, ?_, ?_, ?_, ?_⟩
  · show (treeGet? x "enabled").any truthy = decide (p.enabled ≠ 0)
    rw [treeGet?_reads (v := .number p.enabled.toNat) hx (by simp [peerMembers]), truthy_flag]
  · show B.inputValue (concat (orElse (treeGet? x "name") (.string []))) = _
    rw [treeGet?_reads (v := .string p.name.text) hx (by simp [peerMembers]), inputValue_text hB hname]
    rfl
  · show B.inputValue (concat (orElse (treeGet? x "host") (.string []))) = _
    rw [treeGet?_reads (v := .string p.host.text) hx (by simp [peerMembers]), inputValue_text hB hhost]
    rfl
  · exact hport (by simp [peerMembers]) (show (1883 : UInt16) ≠ 0 by decide)
  · exact hport (by simp [peerMembers]) (show (4884 : UInt16) ≠ 0 by decide)

/-- The members that show a peer stay those of its entry. -/
theorem restoredPeer_shown (hp : PresentablePeer p) (hv : PeerSound p) {q : FieldBridgePeer}
    (hq : q = p ∨ q = filled p) : restoredPeer (shownPeer p).peer q = filled p := by
  have hsound := sound_shownPeer hp hv.terminated
  have hsame : q.name = p.name ∧ q.host = p.host := by
    rcases hq with rfl | rfl
    · exact ⟨rfl, rfl⟩
    · exact ⟨rfl, rfl⟩
  have hmqtt : (filled p).mqttPort ≠ 0 := portOr_ne_zero (by decide)
  have hp2p : (filled p).p2pPort ≠ 0 := portOr_ne_zero (by decide)
  have hports : (shownPeer p).peer.mqttPort = (filled p).mqttPort ∧
      (shownPeer p).peer.p2pPort = (filled p).p2pPort := ⟨rfl, rfl⟩
  unfold restoredPeer
  rw [hsound.texts.1, hsound.texts.2, hsame.1, hsame.2]
  show FieldBridgePeer.mk (p.name.write (p.name.text ++ [0])) (p.host.write (p.host.text ++ [0])) _ _ _ = _
  rw [write_text hv.terminated.name, write_text hv.terminated.host, hports.1, hports.2, if_neg hmqtt,
    if_neg hp2p, if_neg hp2p]
  exact congrArg (FieldBridgePeer.mk _ _ _ _) (flag_eq hv.valid.enabled)

end MqttFieldBridge.Web
