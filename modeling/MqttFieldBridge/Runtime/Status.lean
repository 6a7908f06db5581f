import MqttFieldBridge.Config.Types
import MqttFieldBridge.Config.Validate

/-! # The runtime status

The functions of `product_runtime.c` over its two global variables. A string of the status is only
ever written by `copy_str`, so it is modelled by the C string it holds. The peer-to-peer stack is a
library of its own; `P2p` is what it answers at the time of a call. -/

namespace MqttFieldBridge.Runtime

open MqttFieldBridge.CLib MqttFieldBridge.Config

abbrev fieldBridgeStateMax : ℕ := 16
abbrev fieldBridgeVersionMax : ℕ := 32
abbrev fieldBridgeErrorMax : ℕ := 96
abbrev fieldBridgeTopicFullMax : ℕ := 128
abbrev fieldBridgePayloadMax : ℕ := 256

def fieldBridgeFirmwareVersion : Text := str "bridge-v0.1.20-dev"
abbrev fieldBridgeConfigVersion : UInt16 := 2

structure FieldBridgeRuntimeStatus where
  firmwareVersion : CStr fieldBridgeVersionMax
  configVersion : UInt16
  networkState : CStr fieldBridgeStateMax
  ipAddr : CStr fieldBridgeHostMax
  brokerState : CStr fieldBridgeStateMax
  p2pRole : CStr fieldBridgeStateMax
  connectedPeers : UInt8
  remoteSubscriptions : UInt16
  lastError : CStr fieldBridgeErrorMax
deriving DecidableEq

@[ext] structure FieldBridgePublishTest where
  topic : CharArray fieldBridgeTopicFullMax
  payload : CharArray fieldBridgePayloadMax
  qos : UInt8
  retain : UInt8
deriving DecidableEq

/-- A publish test after `memset`. -/
def FieldBridgePublishTest.zero : FieldBridgePublishTest := ⟨.zero _, .zero _, 0, 0⟩

structure FieldBridgePeerStatus where
  index : UInt8
  name : CStr fieldBridgeNameMax
  host : CStr fieldBridgeHostMax
  p2pPort : UInt16
  enabled : UInt8
  state : CStr fieldBridgeStateMax
  lastError : CStr fieldBridgeErrorMax
deriving DecidableEq

/-- The global variables of `product_runtime.c`. -/
@[ext] structure RuntimeState where
  runtimeStatus : FieldBridgeRuntimeStatus
  lastPublish : FieldBridgePublishTest
deriving DecidableEq

/-- What the peer-to-peer stack and the network library answer: the connected peers, the number of
remote subscriptions unless it is unavailable, and the address a host name spells. -/
structure P2p where
  snapshot : List (UInt32 × UInt16)
  routerStats : Option UInt16
  inetPton : Text → Option UInt32

/-- `copy_str` into an array of `n + 1` bytes. -/
def copyStr {n : ℕ} (src : Text) : CStr (n + 1) where
  val := (cstr src).take n
  notMem h := zero_notMem_cstr src (List.mem_of_mem_take h)
  length_lt := Nat.lt_succ_of_le (List.length_take_le n _)

def productRuntimeInit : RuntimeState where
  runtimeStatus :=
    { firmwareVersion := copyStr fieldBridgeFirmwareVersion
      configVersion := fieldBridgeConfigVersion
      networkState := copyStr (str "init")
      ipAddr := copyStr (str "0.0.0.0")
      brokerState := copyStr (str "stopped")
      p2pRole := copyStr (str "unknown")
      connectedPeers := 0
      remoteSubscriptions := 0
      lastError := .empty }
  lastPublish := .zero

def productRuntimeNetworkStart (settings : FieldBridgeSettings) (r : RuntimeState) :
    RuntimeState :=
  { r with
    runtimeStatus :=
      { r.runtimeStatus with
        networkState := copyStr
          (if settings.network.dhcpEnabled ≠ 0 then str "dhcp" else str "static")
        ipAddr := copyStr
          (if settings.network.deviceIp.first ≠ 0 then settings.network.deviceIp.text
            else str "0.0.0.0")
        lastError := .empty } }

def productRuntimeNetworkReady (r : RuntimeState) : Bool :=
  r.runtimeStatus.networkState.val = str "dhcp" || r.runtimeStatus.networkState.val = str "static"

def productRuntimeBrokerStarted (r : RuntimeState) : RuntimeState :=
  { r with
    runtimeStatus :=
      { r.runtimeStatus with
        brokerState := copyStr (str "running")
        p2pRole := copyStr (str "dynamic")
        lastError := .empty } }

def productRuntimeBrokerFailed (error : Text) (r : RuntimeState) : RuntimeState :=
  { r with
    runtimeStatus :=
      { r.runtimeStatus with
        brokerState := copyStr (str "error")
        lastError := copyStr error } }

def productRuntimeSetBrokerEnabled (enabled : UInt8) (r : RuntimeState) : Rc × RuntimeState :=
  if enabled > 1 then (.err, r)
  else
    (.ok, { r with
      runtimeStatus :=
        { r.runtimeStatus with
          brokerState := copyStr
            (if enabled ≠ 0 then str "requested" else str "stopped") } })

def productRuntimeBrokerStartRequested (r : RuntimeState) : Bool :=
  r.runtimeStatus.brokerState.val = str "requested"

/-- The status that is returned is also the one that is kept. -/
def productRuntimeGetStatus (p2p : P2p) (r : RuntimeState) : RuntimeState :=
  let status :=
    { r.runtimeStatus with
      firmwareVersion := copyStr fieldBridgeFirmwareVersion
      configVersion := fieldBridgeConfigVersion }
  if status.brokerState.val = str "running" ∨ status.brokerState.val = str "requested" then
    { r with
      runtimeStatus :=
        { status with
          connectedPeers := UInt8.ofNat p2p.snapshot.length
          remoteSubscriptions := p2p.routerStats.getD status.remoteSubscriptions } }
  else
    { r with runtimeStatus := { status with connectedPeers := 0, remoteSubscriptions := 0 } }

/-- `none` if the host is no IPv4 address. -/
def snapshotContainsPeer (p2p : P2p) (peer : FieldBridgePeer) : Option Bool :=
  (p2p.inetPton peer.host.text).map fun addr =>
    p2p.snapshot.any fun s => s.1 = addr && s.2 = peer.p2pPort

/-- The state and the error of a slot. -/
def peerState (p2p : P2p) (r : RuntimeState) (peer : FieldBridgePeer) : Text × Text :=
  if peer.enabled = 0 then (str "disabled", [])
  else if peer.host.first = 0 ∨ peer.p2pPort = 0 then
    (str "unknown", str "missing host or p2p port")
  else
    match snapshotContainsPeer p2p peer with
    | some true => (str "connected", [])
    | some false =>
      if r.runtimeStatus.brokerState.val = str "requested" then
        (str "connecting", str "waiting for p2p snapshot")
      else (str "disconnected", str "not present in p2p snapshot")
    | none => (str "unknown", str "host is not an IPv4 snapshot key")

/-- What the loop of `product_runtime_get_peer_statuses` writes for slot `i`. -/
def peerStatus (p2p : P2p) (r : RuntimeState) (i : ℕ) (peer : FieldBridgePeer) :
    FieldBridgePeerStatus where
  index := UInt8.ofNat i
  name := copyStr peer.name.text
  host := copyStr peer.host.text
  p2pPort := peer.p2pPort
  enabled := peer.enabled
  state := copyStr (peerState p2p r peer).1
  lastError := copyStr (peerState p2p r peer).2

/-- The loop stops when the slots or the room in the caller's array end. -/
def productRuntimeGetPeerStatuses (p2p : P2p) (r : RuntimeState) (peers : List FieldBridgePeer)
    (max : ℤ) : Option (List FieldBridgePeerStatus) :=
  if max ≤ 0 then none
  else some ((peers.take max.toNat).mapIdx (peerStatus p2p r))

def productRuntimeRecordPublishTest (test : FieldBridgePublishTest) (r : RuntimeState) :
    Rc × RuntimeState :=
  if test.topic.first = 0 ∨ test.payload.first = 0 ∨ test.qos > 2 ∨ test.retain > 1 then (.err, r)
  else (.ok, { r with lastPublish := test })

def productRuntimeGetLastPublishTest (r : RuntimeState) : FieldBridgePublishTest := r.lastPublish

/-! ### What a call does -/

variable {r : RuntimeState}

theorem setBrokerEnabled_ok {enabled : UInt8} (h : enabled ≤ 1) :
    productRuntimeSetBrokerEnabled enabled r =
      (.ok, { r with
        runtimeStatus :=
          { r.runtimeStatus with
            brokerState := copyStr (if enabled ≠ 0 then str "requested" else str "stopped") } }) := by
  have hlt : ¬ enabled > 1 := UInt8.not_lt.mpr h
  exact if_neg hlt

/-- Asking for the status changes neither the broker state nor the last publish test. -/
theorem getStatus_kept {p2p : P2p} :
    (productRuntimeGetStatus p2p r).lastPublish = r.lastPublish ∧
      (productRuntimeGetStatus p2p r).runtimeStatus.brokerState = r.runtimeStatus.brokerState := by
  unfold productRuntimeGetStatus
  dsimp only
  split_ifs
  · exact ⟨rfl, rfl⟩
  · exact ⟨rfl, rfl⟩

/-- A refused test is not recorded. -/
theorem recordPublishTest_err {test : FieldBridgePublishTest}
    (h : (productRuntimeRecordPublishTest test r).1 = .err) :
    (productRuntimeRecordPublishTest test r).2 = r := by
  unfold productRuntimeRecordPublishTest at h ⊢
  split_ifs at h ⊢
  rfl

theorem recordPublishTest_ok {test : FieldBridgePublishTest}
    (h : (productRuntimeRecordPublishTest test r).1 = .ok) :
    (productRuntimeRecordPublishTest test r).2 = { r with lastPublish := test } := by
  unfold productRuntimeRecordPublishTest at h ⊢
  split_ifs at h ⊢
  rfl

/-- What the front ends do to the globals of `product_runtime.c`. -/
inductive RuntimeChange (r : RuntimeState) : RuntimeState → Prop
  | none : RuntimeChange r r
  | enabled (v : UInt8) : RuntimeChange r (productRuntimeSetBrokerEnabled v r).2
  | status (p2p : P2p) : RuntimeChange r (productRuntimeGetStatus p2p r)
  | publish (test : FieldBridgePublishTest) :
    RuntimeChange r (productRuntimeRecordPublishTest test r).2

theorem change_of_eq {r' : RuntimeState} (h : r' = r) : RuntimeChange r r' := h ▸ .none

/-- The network is ready as soon as it has been started. -/
theorem networkReady_networkStart (settings : FieldBridgeSettings) :
    productRuntimeNetworkReady (productRuntimeNetworkStart settings r) = true := by
  unfold productRuntimeNetworkReady productRuntimeNetworkStart
  by_cases h : settings.network.dhcpEnabled ≠ 0
  · have hcopy : (copyStr (str "dhcp") : CStr fieldBridgeStateMax).val = str "dhcp" := by
      decide
    simp [h, hcopy]
  · have hcopy : (copyStr (str "static") : CStr fieldBridgeStateMax).val = str "static" := by
      decide
    simp [h, hcopy]

end MqttFieldBridge.Runtime
