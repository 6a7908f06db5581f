import MqttFieldBridge.Config.Types

/-! # What a valid record is

The checks of `product_config.c`, in its order, and the same checks as the conjunction they decide,
`PeerValid` and `SettingsValid`. The checks look at the first byte of a string only; a record is
`Terminated` if each of its arrays holds a NUL, which no check of the source asks. -/

namespace MqttFieldBridge.Config

open MqttFieldBridge.CLib

/-- What a call returns: `0` or `-1`. -/
inductive Rc where
  | ok
  | err
deriving DecidableEq

@[simp] theorem Rc.ne_ok_iff {r : Rc} : r ≠ .ok ↔ r = .err := by cases r <;> simp

def validBool (v : UInt8) : Bool := v ≤ 1

def validNetworkMode (mode : UInt8) : Bool := mode = networkModeAuto || mode = networkModeEth

def validPort (port : UInt16) : Bool := port > 0

def validNonempty {n : ℕ} (s : CharArray n) : Bool := s.first ≠ 0

def validatePeer (peer : FieldBridgePeer) : Rc :=
  if !validBool peer.enabled then .err
  else if peer.enabled ≠ 0 && (!validNonempty peer.host || !validPort peer.mqttPort ||
    !validPort peer.p2pPort) then .err
  else .ok

def validateSettings (cfg : FieldBridgeSettings) : Rc :=
  if !validNonempty cfg.system.deviceName then .err
  else if !validNonempty cfg.network.deviceIp || !validNonempty cfg.network.gateway ||
    !validNonempty cfg.network.netmask || !validNonempty cfg.network.dns ||
    !validBool cfg.network.dhcpEnabled || !validNetworkMode cfg.network.mode then .err
  else if !validNonempty cfg.broker.brokerIp || !validNonempty cfg.broker.siteId ||
    !validNonempty cfg.broker.topicPrefix || !validPort cfg.broker.mqttPort ||
    !validPort cfg.broker.p2pPort || !validPort cfg.broker.fallbackPort ||
    !validBool cfg.broker.brokerEnabled || !validBool cfg.broker.bridgeEnabled ||
    !validBool cfg.broker.meshEnabled then .err
  else if cfg.broker.fallbackPort = cfg.broker.mqttPort ||
    cfg.broker.fallbackPort = cfg.broker.p2pPort || cfg.broker.fallbackPort = 8080 then .err
  else .ok

/-- A flag that passes its check is `0` or `1`. -/
theorem validBool_cases {v : UInt8} (h : v ≤ 1) : v = 0 ∨ v = 1 := by
  have hle : v.toNat ≤ 1 := UInt8.le_iff_toNat_le.mp h
  rcases Nat.le_one_iff_eq_zero_or_eq_one.mp hle with h0 | h1
  · exact Or.inl (UInt8.toNat_inj.mp h0)
  · exact Or.inr (UInt8.toNat_inj.mp h1)

/-! ### The checks as a conjunction -/

structure PeerValid (peer : FieldBridgePeer) : Prop where
  enabled : peer.enabled ≤ 1
  usable : peer.enabled ≠ 0 → peer.host.first ≠ 0 ∧ peer.mqttPort ≠ 0 ∧ peer.p2pPort ≠ 0

/-- The checks that a record without `fallbackPort` already had to pass. -/
structure SettingsValidV1 (system : FieldBridgeSystemSettings)
    (network : FieldBridgeNetworkSettings) (broker : FieldBridgeBrokerSettingsV1) : Prop where
  deviceName : system.deviceName.first ≠ 0
  deviceIp : network.deviceIp.first ≠ 0
  gateway : network.gateway.first ≠ 0
  netmask : network.netmask.first ≠ 0
  dns : network.dns.first ≠ 0
  dhcpEnabled : network.dhcpEnabled ≤ 1
  mode : network.mode = networkModeAuto ∨ network.mode = networkModeEth
  brokerIp : broker.brokerIp.first ≠ 0
  siteId : broker.siteId.first ≠ 0
  topicPrefix : broker.topicPrefix.first ≠ 0
  mqttPort : broker.mqttPort ≠ 0
  p2pPort : broker.p2pPort ≠ 0
  brokerEnabled : broker.brokerEnabled ≤ 1
  bridgeEnabled : broker.bridgeEnabled ≤ 1
  meshEnabled : broker.meshEnabled ≤ 1

/-- The members an older record also has. -/
def FieldBridgeBrokerSettings.toV1 (b : FieldBridgeBrokerSettings) : FieldBridgeBrokerSettingsV1 :=
  ⟨b.brokerIp, b.siteId, b.topicPrefix, b.mqttPort, b.p2pPort, b.brokerEnabled, b.bridgeEnabled,
    b.meshEnabled⟩

structure SettingsValid (cfg : FieldBridgeSettings) : Prop where
  v1 : SettingsValidV1 cfg.system cfg.network cfg.broker.toV1
  fallbackPort : cfg.broker.fallbackPort ≠ 0
  ne_mqttPort : cfg.broker.fallbackPort ≠ cfg.broker.mqttPort
  ne_p2pPort : cfg.broker.fallbackPort ≠ cfg.broker.p2pPort
  ne_http : cfg.broker.fallbackPort ≠ 8080

theorem validatePeer_ok_iff {peer : FieldBridgePeer} :
    validatePeer peer = .ok ↔ PeerValid peer := by
  unfold validatePeer validBool validNonempty validPort
  constructor
  · intro h
    split_ifs at h with h1 h2
    simp only [Bool.not_eq_eq_eq_not, Bool.not_true, decide_eq_false_iff_not, not_not] at h1
    refine ⟨h1, fun he => ?_⟩
    simpa [he, not_or, and_assoc] using h2
  · rintro ⟨h1, h2⟩
    by_cases he : peer.enabled = 0
    · simp [he]
    · obtain ⟨ha, hb, hc⟩ := h2 he
      simp [h1, ha, hb, hc]

theorem validateSettings_ok_iff {cfg : FieldBridgeSettings} :
    validateSettings cfg = .ok ↔ SettingsValid cfg := by
  unfold validateSettings validBool validNonempty validPort validNetworkMode
  constructor
  · intro h
    split_ifs at h with h1 h2 h3 h4
    simp only [Bool.or_eq_true, not_or, Bool.not_eq_true', decide_eq_false_iff_not,
      decide_eq_true_eq, not_not, Bool.or_eq_false_iff, ne_eq, gt_iff_lt,
      UInt16.pos_iff_ne_zero] at h1 h2 h3 h4
    obtain ⟨⟨⟨⟨⟨a1, a2⟩, a3⟩, a4⟩, a5⟩, a6⟩ := h2
    obtain ⟨⟨⟨⟨⟨⟨⟨⟨b1, b2⟩, b3⟩, b4⟩, b5⟩, b6⟩, b7⟩, b8⟩, b9⟩ := h3
    obtain ⟨⟨c1, c2⟩, c3⟩ := h4
    refine ⟨⟨h1, a1, a2, a3, a4, a5, ?_, b1, b2, b3, b4, b5, b7, b8, b9⟩, b6, c1, c2, c3⟩
    by_contra hm
    exact a6 (by simpa using hm)
  · rintro ⟨⟨h1, a1, a2, a3, a4, a5, a6, b1, b2, b3, b4, b5, b7, b8, b9⟩, b6, c1, c2, c3⟩
    simp only [FieldBridgeBrokerSettings.toV1] at b1 b2 b3 b4 b5 b7 b8 b9
    simp [h1, a1, a2, a3, a4, a5, b1, b2, b3, b4, b5, b6, b7, b8, b9, c1, c2, c3]
    exact or_iff_not_imp_left.mp a6

instance (peer : FieldBridgePeer) : Decidable (PeerValid peer) :=
  decidable_of_iff _ validatePeer_ok_iff

instance (cfg : FieldBridgeSettings) : Decidable (SettingsValid cfg) :=
  decidable_of_iff _ validateSettings_ok_iff

/-! ### Terminated records -/

structure PeerTerminated (peer : FieldBridgePeer) : Prop where
  name : peer.name.Terminated
  host : peer.host.Terminated

structure NetworkTerminated (network : FieldBridgeNetworkSettings) : Prop where
  deviceIp : network.deviceIp.Terminated
  gateway : network.gateway.Terminated
  netmask : network.netmask.Terminated
  dns : network.dns.Terminated

structure SettingsTerminated (cfg : FieldBridgeSettings) : Prop where
  deviceName : cfg.system.deviceName.Terminated
  network : NetworkTerminated cfg.network
  brokerIp : cfg.broker.brokerIp.Terminated
  siteId : cfg.broker.siteId.Terminated
  topicPrefix : cfg.broker.topicPrefix.Terminated

/-- A peer slot that every reader of the module may rely on. -/
structure PeerSound (peer : FieldBridgePeer) : Prop where
  valid : PeerValid peer
  terminated : PeerTerminated peer

/-- Settings that every reader of the module may rely on. -/
structure SettingsSound (cfg : FieldBridgeSettings) : Prop where
  valid : SettingsValid cfg
  terminated : SettingsTerminated cfg

theorem peerSound_zero : PeerSound .zero := by
  refine ⟨⟨by decide, by decide⟩, ⟨?_, ?_⟩⟩ <;> decide

end MqttFieldBridge.Config
