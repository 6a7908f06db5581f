import MqttFieldBridge.Runtime.Bridge
import MqttFieldBridge.Runtime.Topics

/-! # The JSON answers

The four builders of `provisioning_http.c`. Each prints into a buffer of `cap` bytes: `/status` and
`/config` cut what does not fit, `/peers` and `/peer-status` give up. Strings are printed as they
are. -/

namespace MqttFieldBridge.Http

open MqttFieldBridge.CLib MqttFieldBridge.Config MqttFieldBridge.Runtime

/-- `"key":"value"` -/
def stringMember (key value : Text) : Text :=
  str "\"" ++ key ++ str "\":\"" ++ value ++ str "\""

/-- `"key":n` -/
def numberMember (key : Text) (n : ℕ) : Text := str "\"" ++ key ++ str "\":" ++ decimal n

/-- Members between braces. -/
def object (members : List Text) : Text :=
  str "\x7b" ++ List.intercalate (str ",") members ++ str "\x7d"

/-- Whether a builder returns a positive length, and the string it leaves in its buffer if it has
printed anything. -/
structure Built where
  ok : Bool
  buffer : Option Text

/-- One `snprintf` into a buffer of `cap` bytes. -/
def printed (cap : ℕ) (t : Text) : Built := ⟨true, some (t.take (cap - 1))⟩

/-- A builder that has printed nothing. -/
def notBuilt : Built := ⟨false, none⟩

def buildStatusJson (w : World) (cap : ℕ) (a : App) : Built × App :=
  let a := { a with runtime := productRuntimeGetStatus w.p2p a.runtime }
  match productTopicBuild a.config.settings (str "test") fieldBridgeTopicFullMax with
  | none => (notBuilt, a)
  | some topic =>
    let status := a.runtime.runtimeStatus
    (printed cap (object
      [stringMember (str "status") (str "ok"),
        stringMember (str "firmware_version") fieldBridgeFirmwareVersion,
        numberMember (str "config_version") fieldBridgeConfigVersion.toNat,
        stringMember (str "network_state") status.networkState.val,
        stringMember (str "ip_addr") status.ipAddr.val,
        stringMember (str "broker_state") status.brokerState.val,
        stringMember (str "p2p_role") status.p2pRole.val,
        numberMember (str "connected_peers") status.connectedPeers.toNat,
        numberMember (str "remote_subscriptions") status.remoteSubscriptions.toNat,
        stringMember (str "test_topic") topic,
        stringMember (str "last_error") status.lastError.val]), a)

def buildConfigJson (cap : ℕ) (c : ConfigState) : Built :=
  let s := productConfigGetSettings c
  printed cap (object
    [stringMember (str "device_name") s.system.deviceName.text,
      stringMember (str "firmware_version") fieldBridgeFirmwareVersion,
      numberMember (str "config_version") fieldBridgeConfigVersion.toNat,
      stringMember (str "mode") (productConfigNetworkModeName s.network.mode),
      stringMember (str "device_ip") s.network.deviceIp.text,
      stringMember (str "gateway") s.network.gateway.text,
      stringMember (str "netmask") s.network.netmask.text,
      stringMember (str "dns") s.network.dns.text,
      numberMember (str "dhcp_enabled") s.network.dhcpEnabled.toNat,
      stringMember (str "broker_ip") s.broker.brokerIp.text,
      stringMember (str "site_id") s.broker.siteId.text,
      stringMember (str "topic_prefix") s.broker.topicPrefix.text,
      numberMember (str "mqtt_port") s.broker.mqttPort.toNat,
      numberMember (str "fallback_port") s.broker.fallbackPort.toNat,
      numberMember (str "p2p_port") s.broker.p2pPort.toNat,
      numberMember (str "broker_enabled") s.broker.brokerEnabled.toNat,
      numberMember (str "bridge_enabled") s.broker.bridgeEnabled.toNat,
      numberMember (str "mesh_enabled") s.broker.meshEnabled.toNat])

/-- One piece after another into the buffer, until one is cut. -/
def appendPieces (cap : ℕ) : List Text → Text → Built
  | [], out => ⟨true, some out⟩
  | t :: ts, out =>
    if t.length ≥ cap - out.length then ⟨false, some ((out ++ t).take (cap - 1))⟩
    else appendPieces cap ts (out ++ t)

/-- The pieces of an array: its brackets and its elements, each after the first with a comma. -/
def arrayPieces (elements : List Text) : List Text :=
  str "[" :: elements.mapIdx (fun i e => if i = 0 then e else str "," ++ e) ++ [str "]"]

def buildPeersJson (cap : ℕ) (c : ConfigState) : Built :=
  appendPieces cap (arrayPieces ((peerList c).mapIdx fun i p => object
    [numberMember (str "index") i,
      stringMember (str "name") p.name.text,
      stringMember (str "host") p.host.text,
      numberMember (str "mqtt_port") p.mqttPort.toNat,
      numberMember (str "p2p_port") p.p2pPort.toNat,
      numberMember (str "enabled") p.enabled.toNat])) []

def buildPeerStatusJson (w : World) (cap : ℕ) (a : App) : Built :=
  match productRuntimeGetPeerStatuses w.p2p a.runtime (peerList a.config) fieldBridgePeerMax with
  | none => notBuilt
  | some peers =>
    appendPieces cap (arrayPieces (peers.map fun p => object
      [numberMember (str "index") p.index.toNat,
        stringMember (str "name") p.name.val,
        stringMember (str "host") p.host.val,
        numberMember (str "p2p_port") p.p2pPort.toNat,
        numberMember (str "enabled") p.enabled.toNat,
        stringMember (str "state") p.state.val,
        stringMember (str "last_error") p.lastError.val])) []

/-- What is expected of the GET routes that answer with JSON: which builder prints into the buffer of
the handler. -/
def getRoute (w : World) (cap : ℕ) (path : Text) (a : App) : Built × App :=
  if path = str "/status" then buildStatusJson w cap a
  else if path = str "/config" then (buildConfigJson cap a.config, a)
  else if path = str "/peers" then (buildPeersJson cap a.config, a)
  else if path = str "/peer-status" then (buildPeerStatusJson w cap a, a)
  else (notBuilt, a)

variable {w : World} {cap : ℕ} {a : App}

/-- Only the status route has an effect: it asks for the status. -/
theorem getRoute_state {path : Text} : (getRoute w cap path a).2 =
    if path = str "/status" then { a with runtime := productRuntimeGetStatus w.p2p a.runtime }
    else a := by
  unfold getRoute
  split_ifs
  · unfold buildStatusJson
    dsimp only
    split
    · rfl
    · rfl
  · rfl
  · rfl
  · rfl
  · rfl

/-- A GET changes neither the configuration nor what the runtime was told. -/
theorem getRoute_frame {path : Text} :
    (getRoute w cap path a).2.config = a.config ∧
      (getRoute w cap path a).2.runtime.lastPublish = a.runtime.lastPublish ∧
      (getRoute w cap path a).2.runtime.runtimeStatus.brokerState =
        a.runtime.runtimeStatus.brokerState := by
  rw [getRoute_state]
  split_ifs
  · exact ⟨rfl, getStatus_kept⟩
  · exact ⟨rfl, rfl, rfl⟩

end MqttFieldBridge.Http
