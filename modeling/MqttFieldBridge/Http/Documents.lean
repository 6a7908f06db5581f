import MqttFieldBridge.Http.Zephyr
import MqttFieldBridge.Json.Raw

/-! # The documents that the builders print

Each builder prints an object, or an array of objects, whose members are listed here. The strings they
hold fit their arrays, so each document fits the smaller of the two response buffers and is printed as
a whole (`buildConfigJson_built` and the like). -/

namespace MqttFieldBridge.Http

open MqttFieldBridge.CLib MqttFieldBridge.Config MqttFieldBridge.Runtime MqttFieldBridge.Json

/-- The members of `build_status_json`. -/
def statusMembers (status : FieldBridgeRuntimeStatus) (topic : Text) : List RawMember :=
  [(str "status", .string (str "ok")),
    (str "firmware_version", .string fieldBridgeFirmwareVersion),
    (str "config_version", .number fieldBridgeConfigVersion.toNat),
    (str "network_state", .string status.networkState.val),
    (str "ip_addr", .string status.ipAddr.val),
    (str "broker_state", .string status.brokerState.val),
    (str "p2p_role", .string status.p2pRole.val),
    (str "connected_peers", .number status.connectedPeers.toNat),
    (str "remote_subscriptions", .number status.remoteSubscriptions.toNat),
    (str "test_topic", .string topic),
    (str "last_error", .string status.lastError.val)]

/-- The members of `build_config_json`. -/
def configMembers (s : FieldBridgeSettings) : List RawMember :=
  [(str "device_name", .string s.system.deviceName.text),
    (str "firmware_version", .string fieldBridgeFirmwareVersion),
    (str "config_version", .number fieldBridgeConfigVersion.toNat),
    (str "mode", .string (productConfigNetworkModeName s.network.mode)),
    (str "device_ip", .string s.network.deviceIp.text),
    (str "gateway", .string s.network.gateway.text),
    (str "netmask", .string s.network.netmask.text),
    (str "dns", .string s.network.dns.text),
    (str "dhcp_enabled", .number s.network.dhcpEnabled.toNat),
    (str "broker_ip", .string s.broker.brokerIp.text),
    (str "site_id", .string s.broker.siteId.text),
    (str "topic_prefix", .string s.broker.topicPrefix.text),
    (str "mqtt_port", .number s.broker.mqttPort.toNat),
    (str "fallback_port", .number s.broker.fallbackPort.toNat),
    (str "p2p_port", .number s.broker.p2pPort.toNat),
    (str "broker_enabled", .number s.broker.brokerEnabled.toNat),
    (str "bridge_enabled", .number s.broker.bridgeEnabled.toNat),
    (str "mesh_enabled", .number s.broker.meshEnabled.toNat)]

/-- The strings of the settings. -/
def settingsTexts (s : FieldBridgeSettings) : List Text :=
  [s.system.deviceName.text, s.network.deviceIp.text, s.network.gateway.text, s.network.netmask.text,
    s.network.dns.text, s.broker.brokerIp.text, s.broker.siteId.text, s.broker.topicPrefix.text]

/-- The members of a slot in `build_peers_json`. -/
def peerMembers (i : ℕ) (p : FieldBridgePeer) : List RawMember :=
  [(str "index", .number i),
    (str "name", .string p.name.text),
    (str "host", .string p.host.text),
    (str "mqtt_port", .number p.mqttPort.toNat),
    (str "p2p_port", .number p.p2pPort.toNat),
    (str "enabled", .number p.enabled.toNat)]

/-- The members of a slot in `build_peer_status_json`. -/
def peerStatusMembers (p : FieldBridgePeerStatus) : List RawMember :=
  [(str "index", .number p.index.toNat),
    (str "name", .string p.name.val),
    (str "host", .string p.host.val),
    (str "p2p_port", .number p.p2pPort.toNat),
    (str "enabled", .number p.enabled.toNat),
    (str "state", .string p.state.val),
    (str "last_error", .string p.lastError.val)]

/-! ### The builders print them -/

theorem stringMember_eq (key value : Text) :
    stringMember key value = rawMemberText (key, .string value) := by
  have h : str "\"" = [34] ∧ str "\":\"" = [34, 58, 34] := by decide
  simp [stringMember, rawMemberText, RawValue.text, h]

theorem numberMember_eq (key : Text) (n : ℕ) :
    numberMember key n = rawMemberText (key, .number n) := by
  have h : str "\"" = [34] ∧ str "\":" = [34, 58] := by decide
  simp [numberMember, rawMemberText, RawValue.text, h]

theorem object_eq (ms : List RawMember) : object (ms.map rawMemberText) = rawObject ms := by
  have h : str "\x7b" = [123] ∧ str "\x7d" = [125] ∧ str "," = [44] := by decide
  simp [object, rawObject, h]

theorem buildConfigJson_eq (cap : ℕ) (c : ConfigState) :
    buildConfigJson cap c = printed cap (rawObject (configMembers c.settings)) := by
  rw [← object_eq]
  simp only [buildConfigJson, productConfigGetSettings, stringMember_eq, numberMember_eq]
  rfl

theorem buildStatusJson_eq (w : World) (cap : ℕ) (a : App) (topic : Text)
    (h : productTopicBuild a.config.settings (str "test") fieldBridgeTopicFullMax = some topic) :
    (buildStatusJson w cap a).1 = printed cap (rawObject (statusMembers
      (productRuntimeGetStatus w.p2p a.runtime).runtimeStatus topic)) := by
  rw [← object_eq]
  simp only [buildStatusJson, h, stringMember_eq, numberMember_eq]
  rfl

theorem mapIdx_const {α β : Type} (g : α → β) : ∀ l : List α, (l.mapIdx fun _ => g) = l.map g
  | [] => rfl
  | a :: l => by rw [List.mapIdx_cons, mapIdx_const g l, List.map_cons]

/-- The pieces of an array together. -/
theorem flatten_arrayPieces (elements : List Text) : (arrayPieces elements).flatten =
    91 :: List.intercalate [44] elements ++ [93] := by
  have h : str "[" = [91] ∧ str "]" = [93] ∧ str "," = [44] := by decide
  have htail : ∀ l : List Text, (l.mapIdx fun i e => if i + 1 = 0 then e else str "," ++ e) =
      l.map ([44] ++ ·) := fun l => by
    simp only [Nat.add_eq_zero_iff, one_ne_zero, and_false, if_false, h]
    exact mapIdx_const _ l
  have hjoin : ∀ (t : Text) (l : List Text),
      List.intercalate [44] (t :: l) = t ++ (l.map ([44] ++ ·)).flatten := by
    intro t l
    induction l generalizing t with
    | nil => simp
    | cons t' l ih =>
      rw [List.intercalate_cons_cons, ih]
      simp
  unfold arrayPieces
  cases elements with
  | nil => simp [h]
  | cons e es =>
    rw [List.mapIdx_cons, if_pos rfl, htail, hjoin, h.1, h.2.1]
    simp

/-- Pieces that fit are printed as a whole. -/
theorem appendPieces_of_fits {cap : ℕ} : ∀ (ts : List Text) (out : Text),
    (out ++ ts.flatten).length < cap → appendPieces cap ts out = ⟨true, some (out ++ ts.flatten)⟩
  | [], out, _ => by simp [appendPieces]
  | t :: ts, out, h => by
    rw [List.flatten_cons, ← List.append_assoc] at h ⊢
    have hfits : ¬ t.length ≥ cap - out.length := by
      simp only [List.length_append] at h
      omega
    rw [appendPieces, if_neg hfits]
    exact appendPieces_of_fits ts (out ++ t) h

theorem appendPieces_rawArray {cap : ℕ} {os : List (List RawMember)}
    (h : (rawArray os).length < cap) :
    appendPieces cap (arrayPieces (os.map rawObject)) [] = ⟨true, some (rawArray os)⟩ := by
  have hflat : (arrayPieces (os.map rawObject)).flatten = rawArray os := flatten_arrayPieces _
  rw [appendPieces_of_fits _ [] (by rw [hflat]; exact h), hflat]
  rfl

/-- The objects of `build_peers_json`. -/
def peerObjects (c : ConfigState) : List (List RawMember) := (peerList c).mapIdx peerMembers

theorem buildPeersJson_eq {cap : ℕ} {c : ConfigState} (h : (rawArray (peerObjects c)).length < cap) :
    buildPeersJson cap c = ⟨true, some (rawArray (peerObjects c))⟩ := by
  rw [← appendPieces_rawArray h, peerObjects, ← mapIdx_const, List.mapIdx_mapIdx]
  simp only [buildPeersJson, stringMember_eq, numberMember_eq]
  rfl

/-- The objects of `build_peer_status_json`. -/
def peerStatusObjects (p2p : P2p) (a : App) : List (List RawMember) :=
  ((peerList a.config).mapIdx (peerStatus p2p a.runtime)).map peerStatusMembers

theorem buildPeerStatusJson_eq {w : World} {cap : ℕ} {a : App}
    (h : (rawArray (peerStatusObjects w.p2p a)).length < cap) :
    buildPeerStatusJson w cap a = ⟨true, some (rawArray (peerStatusObjects w.p2p a))⟩ := by
  have hall : productRuntimeGetPeerStatuses w.p2p a.runtime (peerList a.config)
      fieldBridgePeerMax = some ((peerList a.config).mapIdx (peerStatus w.p2p a.runtime)) := by
    unfold productRuntimeGetPeerStatuses
    rw [if_neg (by decide)]
    rw [List.take_of_length_le (by simp [peerList])]
  rw [← appendPieces_rawArray h, peerStatusObjects, List.map_map]
  simp only [buildPeerStatusJson, hall, stringMember_eq, numberMember_eq]
  rfl

/-! ### They fit -/

theorem length_u8 (n : UInt8) : (RawValue.number n.toNat).text.length ≤ 3 :=
  length_decimal_le (by decide) (n.toNat_lt.trans (by decide))

theorem length_u16 (n : UInt16) : (RawValue.number n.toNat).text.length ≤ 5 :=
  length_decimal_le (by decide) (n.toNat_lt.trans (by decide))

theorem length_chars {n : ℕ} {a : CharArray n} (h : a.Terminated) :
    (RawValue.string a.text).text.length ≤ n + 1 := by
  rw [length_string]
  exact Nat.succ_le_succ (CharArray.length_text_lt h)

theorem length_cstr {n : ℕ} (t : CStr n) : (RawValue.string t.val).text.length ≤ n + 1 := by
  rw [length_string]
  exact Nat.succ_le_succ t.length_lt

theorem length_version : (RawValue.string fieldBridgeFirmwareVersion).text.length ≤ 20 := by
  decide

theorem length_modeName (mode : UInt8) :
    (RawValue.string (productConfigNetworkModeName mode)).text.length ≤ 9 := by
  unfold productConfigNetworkModeName
  split_ifs
  · decide
  · decide
  · decide

theorem configMembers_fits {s : FieldBridgeSettings} (h : SettingsTerminated s) :
    (rawObject (configMembers s)).length < respBufSize := by
  have hkeys : ∀ m ∈ configMembers s, m.1.length ≤ 16 := by
    simp only [configMembers, List.forall_mem_cons]
    decide
  have hvalues : ∀ m ∈ configMembers s, m.2.text.length ≤ 65 := by
    have hu8 : ∀ n : UInt8, (RawValue.number n.toNat).text.length ≤ 65 := fun n =>
      (length_u8 n).trans (by decide)
    have hu16 : ∀ n : UInt16, (RawValue.number n.toNat).text.length ≤ 65 := fun n =>
      (length_u16 n).trans (by decide)
    simp only [configMembers, List.forall_mem_cons]
    exact ⟨(length_chars h.deviceName).trans (by decide), length_version.trans (by decide), hu16 _,
      (length_modeName _).trans (by decide), length_chars h.network.deviceIp,
      length_chars h.network.gateway, length_chars h.network.netmask, length_chars h.network.dns,
      hu8 _, length_chars h.brokerIp, (length_chars h.siteId).trans (by decide),
      length_chars h.topicPrefix, hu16 _, hu16 _, hu16 _, hu8 _, hu8 _, hu8 _,
      List.forall_mem_nil _⟩
  exact (length_rawObject_le hkeys hvalues).trans_lt (show 18 * (16 + 65 + 4) + 2 < 2304 by decide)

/-- The topic that is built has room for its NUL. -/
theorem statusMembers_fits {settings : FieldBridgeSettings} {stream topic : Text}
    (h : productTopicBuild settings stream fieldBridgeTopicFullMax = some topic)
    (status : FieldBridgeRuntimeStatus) :
    (rawObject (statusMembers status topic)).length < respBufSize := by
  have hkeys : ∀ m ∈ statusMembers status topic, m.1.length ≤ 20 := by
    simp only [statusMembers, List.forall_mem_cons]
    decide
  have hvalues : ∀ m ∈ statusMembers status topic, m.2.text.length ≤ 129 := by
    have hstate : ∀ t : CStr fieldBridgeStateMax, (RawValue.string t.val).text.length ≤ 129 :=
      fun t => (length_cstr t).trans (by decide)
    have htopic : (RawValue.string topic).text.length ≤ 129 := by
      have hlen := length_topicBuild h
      have hcap : fieldBridgeTopicFullMax = 128 := rfl
      rw [length_string]
      omega
    simp only [statusMembers, List.forall_mem_cons]
    exact ⟨by decide, length_version.trans (by decide), (length_u16 _).trans (by decide),
      hstate _, (length_cstr _).trans (by decide), hstate _, hstate _,
      (length_u8 _).trans (by decide), (length_u16 _).trans (by decide), htopic,
      (length_cstr _).trans (by decide), List.forall_mem_nil _⟩
  exact (length_rawObject_le hkeys hvalues).trans_lt (show 11 * (20 + 129 + 4) + 2 < 2304 by decide)

theorem peerObjects_fits {c : ConfigState} (h : ∀ i, PeerTerminated (c.peers i)) :
    (rawArray (peerObjects c)).length < respBufSize := by
  have hobject : ∀ ms ∈ peerObjects c, (rawObject ms).length ≤ 500 := by
    intro ms hms
    obtain ⟨i, hi, rfl⟩ := List.mem_mapIdx.mp hms
    obtain ⟨j, hj⟩ : ∃ j, (peerList c)[i] = c.peers j := ⟨_, List.getElem_map ..⟩
    rw [hj]
    have hindex : i < 10 ^ 1 := by
      have hlen : (peerList c).length = fieldBridgePeerMax := by simp [peerList]
      have hmax : fieldBridgePeerMax = 2 := rfl
      omega
    have hkeys : ∀ m ∈ peerMembers i (c.peers j), m.1.length ≤ 9 := by
      simp only [peerMembers, List.forall_mem_cons]
      decide
    have hvalues : ∀ m ∈ peerMembers i (c.peers j), m.2.text.length ≤ 65 := by
      simp only [peerMembers, List.forall_mem_cons]
      exact ⟨(length_decimal_le (by decide) hindex).trans (by decide),
        (length_chars (h j).name).trans (by decide), length_chars (h j).host,
        (length_u16 _).trans (by decide), (length_u16 _).trans (by decide),
        (length_u8 _).trans (by decide), List.forall_mem_nil _⟩
    exact (length_rawObject_le hkeys hvalues).trans (show 6 * (9 + 65 + 4) + 2 ≤ 500 by decide)
  have hcount : (peerObjects c).length = fieldBridgePeerMax := by simp [peerObjects, peerList]
  have hsize := length_rawArray_le hobject
  rw [hcount] at hsize
  exact hsize.trans_lt (by decide)

theorem peerStatusObjects_fits (p2p : P2p) (a : App) :
    (rawArray (peerStatusObjects p2p a)).length < respBufSize := by
  have hobject : ∀ ms ∈ peerStatusObjects p2p a, (rawObject ms).length ≤ 800 := by
    intro ms hms
    obtain ⟨p, -, rfl⟩ := List.mem_map.mp hms
    have hkeys : ∀ m ∈ peerStatusMembers p, m.1.length ≤ 10 := by
      simp only [peerStatusMembers, List.forall_mem_cons]
      decide
    have hvalues : ∀ m ∈ peerStatusMembers p, m.2.text.length ≤ 97 := by
      simp only [peerStatusMembers, List.forall_mem_cons]
      exact ⟨(length_u8 _).trans (by decide), (length_cstr _).trans (by decide),
        (length_cstr _).trans (by decide), (length_u16 _).trans (by decide),
        (length_u8 _).trans (by decide), (length_cstr _).trans (by decide), length_cstr _,
        List.forall_mem_nil _⟩
    exact (length_rawObject_le hkeys hvalues).trans (show 7 * (10 + 97 + 4) + 2 ≤ 800 by decide)
  have hcount : (peerStatusObjects p2p a).length = fieldBridgePeerMax := by
    simp [peerStatusObjects, peerList]
  have hsize := length_rawArray_le hobject
  rw [hcount] at hsize
  exact hsize.trans_lt (by decide)

/-! ### They are C strings -/

theorem configMembers_nulFree {s : FieldBridgeSettings} : ∀ m ∈ configMembers s, NulFree m := by
  have hkeys : ∀ m ∈ configMembers s, 0 ∉ m.1 := by
    simp only [configMembers, List.forall_mem_cons]
    decide
  have hchars : ∀ {n : ℕ} (a : CharArray n), ∀ t, RawValue.string a.text = .string t → 0 ∉ t :=
    fun a => RawValue.of_string a.zero_notMem_text
  have hmode : 0 ∉ productConfigNetworkModeName s.network.mode := by
    unfold productConfigNetworkModeName
    split_ifs
    · decide
    · decide
    · decide
  have hvalues : ∀ m ∈ configMembers s, ∀ t, m.2 = .string t → 0 ∉ t := by
    simp only [configMembers, List.forall_mem_cons]
    exact ⟨hchars _, RawValue.of_string (by decide), RawValue.of_number, RawValue.of_string hmode,
      hchars _, hchars _, hchars _, hchars _, RawValue.of_number, hchars _, hchars _, hchars _,
      RawValue.of_number, RawValue.of_number, RawValue.of_number, RawValue.of_number,
      RawValue.of_number, RawValue.of_number, List.forall_mem_nil _⟩
  exact fun m hm => ⟨hkeys m hm, hvalues m hm⟩

theorem statusMembers_nulFree {status : FieldBridgeRuntimeStatus} {topic : Text} (h : 0 ∉ topic) :
    ∀ m ∈ statusMembers status topic, NulFree m := by
  have hkeys : ∀ m ∈ statusMembers status topic, 0 ∉ m.1 := by
    simp only [statusMembers, List.forall_mem_cons]
    decide
  have hcstr : ∀ {n : ℕ} (s : CStr n), ∀ t, RawValue.string s.val = .string t → 0 ∉ t :=
    fun s => RawValue.of_string s.notMem
  have hvalues : ∀ m ∈ statusMembers status topic, ∀ t, m.2 = .string t → 0 ∉ t := by
    simp only [statusMembers, List.forall_mem_cons]
    exact ⟨RawValue.of_string (by decide), RawValue.of_string (by decide), RawValue.of_number,
      hcstr _, hcstr _, hcstr _, hcstr _, RawValue.of_number, RawValue.of_number,
      RawValue.of_string h, hcstr _, List.forall_mem_nil _⟩
  exact fun m hm => ⟨hkeys m hm, hvalues m hm⟩

theorem peerMembers_nulFree {i : ℕ} {p : FieldBridgePeer} : ∀ m ∈ peerMembers i p, NulFree m := by
  have hkeys : ∀ m ∈ peerMembers i p, 0 ∉ m.1 := by
    simp only [peerMembers, List.forall_mem_cons]
    decide
  have hvalues : ∀ m ∈ peerMembers i p, ∀ t, m.2 = .string t → 0 ∉ t := by
    simp only [peerMembers, List.forall_mem_cons]
    exact ⟨RawValue.of_number, RawValue.of_string p.name.zero_notMem_text,
      RawValue.of_string p.host.zero_notMem_text, RawValue.of_number, RawValue.of_number,
      RawValue.of_number, List.forall_mem_nil _⟩
  exact fun m hm => ⟨hkeys m hm, hvalues m hm⟩

theorem peerStatusMembers_nulFree {p : FieldBridgePeerStatus} :
    ∀ m ∈ peerStatusMembers p, NulFree m := by
  have hkeys : ∀ m ∈ peerStatusMembers p, 0 ∉ m.1 := by
    simp only [peerStatusMembers, List.forall_mem_cons]
    decide
  have hvalues : ∀ m ∈ peerStatusMembers p, ∀ t, m.2 = .string t → 0 ∉ t := by
    simp only [peerStatusMembers, List.forall_mem_cons]
    exact ⟨RawValue.of_number, RawValue.of_string p.name.notMem, RawValue.of_string p.host.notMem,
      RawValue.of_number, RawValue.of_number, RawValue.of_string p.state.notMem,
      RawValue.of_string p.lastError.notMem, List.forall_mem_nil _⟩
  exact fun m hm => ⟨hkeys m hm, hvalues m hm⟩

/-! ### What the builders leave in a buffer that is large enough -/

section Built

variable {w : World} {cap : ℕ} {a : App}

theorem printed_of_fits {t : Text} (h : t.length < cap) : printed cap t = ⟨true, some t⟩ := by
  unfold printed
  rw [List.take_of_length_le (by omega)]

theorem buildConfigJson_built (hcap : respBufSize ≤ cap) {c : ConfigState}
    (h : SettingsTerminated c.settings) :
    buildConfigJson cap c = ⟨true, some (rawObject (configMembers c.settings))⟩ := by
  rw [buildConfigJson_eq, printed_of_fits ((configMembers_fits h).trans_le hcap)]

theorem buildStatusJson_built (hcap : respBufSize ≤ cap) {topic : Text}
    (h : productTopicBuild a.config.settings (str "test") fieldBridgeTopicFullMax = some topic) :
    (buildStatusJson w cap a).1 = ⟨true, some (rawObject (statusMembers
      (productRuntimeGetStatus w.p2p a.runtime).runtimeStatus topic))⟩ := by
  rw [buildStatusJson_eq w cap a topic h, printed_of_fits ((statusMembers_fits h _).trans_le hcap)]

theorem buildPeersJson_built (hcap : respBufSize ≤ cap) {c : ConfigState}
    (h : ∀ i, PeerTerminated (c.peers i)) :
    buildPeersJson cap c = ⟨true, some (rawArray (peerObjects c))⟩ :=
  buildPeersJson_eq ((peerObjects_fits h).trans_le hcap)

theorem buildPeerStatusJson_built (hcap : respBufSize ≤ cap) :
    buildPeerStatusJson w cap a = ⟨true, some (rawArray (peerStatusObjects w.p2p a))⟩ :=
  buildPeerStatusJson_eq ((peerStatusObjects_fits w.p2p a).trans_le hcap)

end Built

end MqttFieldBridge.Http
