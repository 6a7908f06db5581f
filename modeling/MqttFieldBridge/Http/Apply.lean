import MqttFieldBridge.Http.Build
import MqttFieldBridge.Http.Reader

/-! # What the POST routes do

The appliers of `provisioning_http.c` and the POST routes. Each route first decodes the body against
the current configuration (`configCandidate`, `peerCandidate`, `publishCandidate`) and then acts; it
reads nothing else of the body. `postRoute` is the table of the routes. The two handlers of the source
spell each of them out on their own; `zephyrPost_route` and `hostPost_route` compare them with it. -/

namespace MqttFieldBridge.Http

open MqttFieldBridge.CLib MqttFieldBridge.Config MqttFieldBridge.Runtime

/-- What is sent: the page of the source, or a JSON text. -/
inductive Body where
  | indexHtml
  | json (t : Text)
deriving DecidableEq

/-- A status code and a body. -/
structure Response where
  status : ℕ
  body : Body
deriving DecidableEq

/-- The answer of a request, the state it leaves, and whether it asks for a reboot. -/
structure Answer where
  response : Response
  app : App
  reboot : Bool

/-! ### POST /config -/

/-- The local variable `mode` of `apply_config_json`, and whether it was read. -/
def readMode (body : Text) : Rc × CharArray 16 := jsonGetString body (str "mode") (.zero 16)

/-- The local variable `new_settings` after all members have been looked up. -/
def newSettings (longBits : ℕ) (body : Text) (s : FieldBridgeSettings) : FieldBridgeSettings where
  system :=
    { deviceName := (jsonGetString body (str "device_name") s.system.deviceName).2 }
  network :=
    { deviceIp := (jsonGetString body (str "device_ip") s.network.deviceIp).2
      gateway := (jsonGetString body (str "gateway") s.network.gateway).2
      netmask := (jsonGetString body (str "netmask") s.network.netmask).2
      dns := (jsonGetString body (str "dns") s.network.dns).2
      dhcpEnabled :=
        (jsonGetBoolish longBits body (str "dhcp_enabled")).getD s.network.dhcpEnabled
      mode :=
        if (readMode body).1 = .ok then
          (productConfigNetworkModeFromName (readMode body).2.text).getD s.network.mode
        else s.network.mode }
  broker :=
    { brokerIp := (jsonGetString body (str "broker_ip") s.broker.brokerIp).2
      siteId := (jsonGetString body (str "site_id") s.broker.siteId).2
      topicPrefix := (jsonGetString body (str "topic_prefix") s.broker.topicPrefix).2
      mqttPort := (jsonGetU16 longBits body (str "mqtt_port")).getD s.broker.mqttPort
      p2pPort := (jsonGetU16 longBits body (str "p2p_port")).getD s.broker.p2pPort
      fallbackPort := (jsonGetU16 longBits body (str "fallback_port")).getD s.broker.fallbackPort
      brokerEnabled :=
        (jsonGetBoolish longBits body (str "broker_enabled")).getD s.broker.brokerEnabled
      bridgeEnabled :=
        (jsonGetBoolish longBits body (str "bridge_enabled")).getD s.broker.bridgeEnabled
      meshEnabled :=
        (jsonGetBoolish longBits body (str "mesh_enabled")).getD s.broker.meshEnabled }

/-- The variable `seen` at the end. -/
def configSeen (longBits : ℕ) (body : Text) (s : FieldBridgeSettings) : Prop :=
  (jsonGetString body (str "device_name") s.system.deviceName).1 = .ok ∨
  (jsonGetString body (str "device_ip") s.network.deviceIp).1 = .ok ∨
  (jsonGetString body (str "gateway") s.network.gateway).1 = .ok ∨
  (jsonGetString body (str "netmask") s.network.netmask).1 = .ok ∨
  (jsonGetString body (str "dns") s.network.dns).1 = .ok ∨
  (jsonGetString body (str "broker_ip") s.broker.brokerIp).1 = .ok ∨
  (jsonGetString body (str "site_id") s.broker.siteId).1 = .ok ∨
  (jsonGetString body (str "topic_prefix") s.broker.topicPrefix).1 = .ok ∨
  (jsonFindKey body (str "mode")).isSome ∨
  (jsonGetBoolish longBits body (str "dhcp_enabled")).isSome ∨
  (jsonGetBoolish longBits body (str "broker_enabled")).isSome ∨
  (jsonGetBoolish longBits body (str "bridge_enabled")).isSome ∨
  (jsonGetBoolish longBits body (str "mesh_enabled")).isSome ∨
  (jsonGetU16 longBits body (str "mqtt_port")).isSome ∨
  (jsonGetU16 longBits body (str "fallback_port")).isSome ∨
  (jsonGetU16 longBits body (str "p2p_port")).isSome

instance (longBits : ℕ) (body : Text) (s : FieldBridgeSettings) :
    Decidable (configSeen longBits body s) := by unfold configSeen; infer_instance

/-- The mode is a string that names no mode. -/
def ModeUnknown (body : Text) : Prop :=
  (readMode body).1 = .ok ∧ productConfigNetworkModeFromName (readMode body).2.text = none

instance (body : Text) : Decidable (ModeUnknown body) := by unfold ModeUnknown; infer_instance

/-- The settings a body asks for, unless its mode is unknown or no key is seen. -/
def configCandidate (longBits : ℕ) (body : Text) (s : FieldBridgeSettings) :
    Option FieldBridgeSettings :=
  if ModeUnknown body then none
  else if ¬ configSeen longBits body s then none
  else some (newSettings longBits body s)

/-- `apply_config_json`: the value of `reboot_required`, unless it fails. -/
def applyConfigJson (w : World) (body : Text) (c : ConfigState) : Option Bool × ConfigState :=
  let old := productConfigGetSettings c
  match configCandidate w.longBits body old with
  | none => (none, c)
  | some new =>
    if new = old then (some false, c)
    else
      let r := productConfigSetSettings w.store new c
      if r.1 ≠ .ok then (none, r.2) else (some true, r.2)

/-! ### POST /peers/i -/

/-- The local variable `peer` of `apply_peer_json` after all members have been looked up. -/
def peerCandidate (longBits : ℕ) (body : Text) (p : FieldBridgePeer) : FieldBridgePeer :=
  let p2pPort := (jsonGetU16 longBits body (str "p2p_port")).getD p.p2pPort
  { name := copyIfPresent p.name body (str "name")
    host := copyIfPresent p.host body (str "host")
    mqttPort := (jsonGetU16 longBits body (str "mqtt_port")).getD p.mqttPort
    p2pPort := if p2pPort = 0 then 4884 else p2pPort
    enabled := (jsonGetBoolish longBits body (str "enabled")).getD p.enabled }

def applyPeerJson (w : World) (index : ℤ) (body : Text) (a : App) : Rc × App :=
  match productConfigGetPeer index a.config with
  | none => (.err, a)
  | some p =>
    let r := productConfigSetPeer w.store index (peerCandidate w.longBits body p) a.config
    if r.1 ≠ .ok then (.err, { a with config := r.2 })
    else (.ok, (bridgeControlApplyPeers w { a with config := r.2 }).2)

/-! ### The other routes -/

/-- The local variable `test` of the publish route, unless a string is missing. -/
def publishCandidate (longBits : ℕ) (body : Text) : Option FieldBridgePublishTest :=
  let zero := FieldBridgePublishTest.zero
  let topic := jsonGetString body (str "topic") zero.topic
  let payload := jsonGetString body (str "payload") zero.payload
  if topic.1 ≠ .ok ∨ payload.1 ≠ .ok then none
  else
    let qos : UInt8 :=
      match (jsonFindKey body (str "qos")).bind fun p => afterChr p colon with
      | none => zero.qos
      | some p =>
        let qos := strtol longBits p
        if qos ≥ 0 ∧ qos ≤ 2 then UInt8.ofNat qos.toNat else 3
    some
      { topic := topic.2
        payload := payload.2
        qos := qos
        retain := (jsonGetBoolish longBits body (str "retain")).getD zero.retain }

/-- `{"status":"error","error":…}` -/
def errorBody (error : Text) : Text :=
  object [stringMember (str "status") (str "error"), stringMember (str "error") error]

/-- `{"status":…}` -/
def statusBody (status : Text) : Text := object [stringMember (str "status") status]

def rebootRequiredBody (rebootRequired : Bool) : Text :=
  object [stringMember (str "status") (str "ok"),
    str "\"reboot_required\":" ++ if rebootRequired then str "true" else str "false"]

/-- `{"error":"not found"}` -/
def notFoundBody : Text := object [stringMember (str "error") (str "not found")]

def badRequest (error : String) (a : App) : Answer :=
  ⟨⟨400, .json (errorBody (str error))⟩, a, false⟩

def accepted (status : String) (a : App) : Answer :=
  ⟨⟨200, .json (statusBody (str status))⟩, a, false⟩

def postConfig (w : World) (body : Text) (a : App) : Answer :=
  let r := applyConfigJson w body a.config
  match r.1 with
  | none => badRequest "invalid config JSON" { a with config := r.2 }
  | some rebootRequired =>
    ⟨⟨200, .json (rebootRequiredBody rebootRequired)⟩, { a with config := r.2 }, false⟩

def postPeer (w : World) (index : ℤ) (body : Text) (a : App) : Answer :=
  let r := applyPeerJson w index body a
  if r.1 ≠ .ok then badRequest "invalid peer JSON" r.2 else accepted "ok" r.2

def postBrokerControl (w : World) (body : Text) (a : App) : Answer :=
  match jsonGetBoolish w.longBits body (str "enabled") with
  | none => badRequest "invalid broker control" a
  | some enabled =>
    let r := productRuntimeSetBrokerEnabled enabled a.runtime
    if r.1 ≠ .ok then badRequest "invalid broker control" { a with runtime := r.2 }
    else accepted "requested" { a with runtime := r.2 }

def postPublishTest (w : World) (body : Text) (a : App) : Answer :=
  match publishCandidate w.longBits body with
  | none => badRequest "invalid publish test" a
  | some test =>
    let r := productRuntimeRecordPublishTest test a.runtime
    if r.1 ≠ .ok then badRequest "invalid publish test" { a with runtime := r.2 }
    else accepted "recorded" { a with runtime := r.2 }

def postConfigReset (w : World) (a : App) : Answer :=
  let r := productConfigResetAll w.store w.deviceId a.config
  if r.1 ≠ .ok then badRequest "reset failed" { a with config := r.2 }
  else accepted "reset" { a with config := r.2 }

/-- The path prefix of the peer slots. -/
def peersPath : Text := str "/peers/"

/-- What is expected of the POST routes. -/
def postRoute (w : World) (path body : Text) (a : App) : Answer :=
  if path = str "/config" then postConfig w body a
  else if peersPath <+: path then postPeer w (atoi w.longBits (path.drop 7)) body a
  else if path = str "/broker/control" then postBrokerControl w body a
  else if path = str "/publish-test" then postPublishTest w body a
  else if path = str "/config/reset" then postConfigReset w a
  else if path = str "/reboot" then { accepted "rebooting" a with reboot := true }
  else ⟨⟨404, .json notFoundBody⟩, a, false⟩

/-! ### What the appliers do with a candidate -/

variable {w : World} {longBits : ℕ} {body : Text} {c : ConfigState}

theorem applyConfigJson_of_none (h : configCandidate w.longBits body c.settings = none) :
    applyConfigJson w body c = (none, c) := by
  unfold applyConfigJson productConfigGetSettings
  dsimp only
  rw [h]

theorem applyConfigJson_of_same
    (h : configCandidate w.longBits body c.settings = some c.settings) :
    applyConfigJson w body c = (some false, c) := by
  unfold applyConfigJson productConfigGetSettings
  dsimp only
  rw [h]
  exact if_pos rfl

theorem applyConfigJson_of_new {n : FieldBridgeSettings}
    (h : configCandidate w.longBits body c.settings = some n) (hn : n ≠ c.settings) :
    applyConfigJson w body c =
      (if (productConfigSetSettings w.store n c).1 = .ok then some true else none,
        (productConfigSetSettings w.store n c).2) := by
  unfold applyConfigJson productConfigGetSettings
  dsimp only
  rw [h]
  refine (if_neg hn).trans ?_
  by_cases hr : (productConfigSetSettings w.store n c).1 = .ok
  · rw [if_neg (not_not.mpr hr), if_pos hr]
  · rw [if_pos hr, if_neg hr]

/-! ### What a route leaves -/

variable {a : App}

theorem postConfig_app : (postConfig w body a).app =
    { a with config := (applyConfigJson w body a.config).2 } := by
  unfold postConfig
  dsimp only
  split
  · rfl
  · rfl

theorem postPeer_app {index : ℤ} :
    (postPeer w index body a).app = (applyPeerJson w index body a).2 := by
  unfold postPeer
  dsimp only
  split_ifs
  · rfl
  · rfl

theorem postBrokerControl_app : ∃ runtime, RuntimeChange a.runtime runtime ∧
    (postBrokerControl w body a).app = { a with runtime := runtime } := by
  unfold postBrokerControl
  rcases jsonGetBoolish w.longBits body (str "enabled") with _ | enabled
  · exact ⟨a.runtime, .none, rfl⟩
  · refine ⟨(productRuntimeSetBrokerEnabled enabled a.runtime).2, .enabled enabled, ?_⟩
    dsimp only
    split_ifs
    · rfl
    · rfl

theorem postPublishTest_app : ∃ runtime, RuntimeChange a.runtime runtime ∧
    (postPublishTest w body a).app = { a with runtime := runtime } := by
  unfold postPublishTest
  rcases publishCandidate w.longBits body with _ | test
  · exact ⟨a.runtime, .none, rfl⟩
  · refine ⟨(productRuntimeRecordPublishTest test a.runtime).2, .publish test, ?_⟩
    dsimp only
    split_ifs
    · rfl
    · rfl

theorem postConfigReset_app : (postConfigReset w a).app =
    { a with config := (productConfigResetAll w.store w.deviceId a.config).2 } := by
  unfold postConfigReset
  dsimp only
  split_ifs
  · rfl
  · rfl

/-! ### What a body asks for is terminated -/

theorem settingsTerminated_newSettings {s : FieldBridgeSettings} (h : SettingsTerminated s) :
    SettingsTerminated (newSettings longBits body s) where
  deviceName := terminated_jsonGetString h.deviceName
  network := ⟨terminated_jsonGetString h.network.deviceIp, terminated_jsonGetString h.network.gateway,
    terminated_jsonGetString h.network.netmask, terminated_jsonGetString h.network.dns⟩
  brokerIp := terminated_jsonGetString h.brokerIp
  siteId := terminated_jsonGetString h.siteId
  topicPrefix := terminated_jsonGetString h.topicPrefix

theorem configCandidate_eq_some {s n : FieldBridgeSettings} :
    configCandidate longBits body s = some n ↔
      ¬ ModeUnknown body ∧ configSeen longBits body s ∧ n = newSettings longBits body s := by
  unfold configCandidate
  by_cases hm : ModeUnknown body
  · rw [if_pos hm]
    exact ⟨fun h => (by cases h), fun h => absurd hm h.1⟩
  · rw [if_neg hm]
    by_cases hs : configSeen longBits body s
    · rw [if_neg (not_not.mpr hs)]
      exact ⟨fun h => ⟨hm, hs, (Option.some.inj h).symm⟩, fun h => by rw [h.2.2]⟩
    · rw [if_pos hs]
      exact ⟨fun h => (by cases h), fun h => absurd h.2.1 hs⟩

theorem peerTerminated_peerCandidate {p : FieldBridgePeer} (h : PeerTerminated p) :
    PeerTerminated (peerCandidate longBits body p) :=
  ⟨terminated_jsonGetString h.name, terminated_jsonGetString h.host⟩

end MqttFieldBridge.Http
