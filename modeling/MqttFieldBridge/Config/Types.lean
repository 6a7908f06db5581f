import MqttFieldBridge.CLib.Layout

/-! # The configuration records

The types and constants of `product_config.h` under their names there, byte for byte: a string
member is a `CharArray` and a flag is any byte, since a record read from flash may hold anything.
`FieldBridgeSettingsV1` is the record that older firmware stored, without `fallbackPort`. The
layouts are those of the C structures; the last byte of each is padding. -/

namespace MqttFieldBridge.Config

open MqttFieldBridge.CLib

abbrev fieldBridgePeerMax : ℕ := 2
abbrev fieldBridgeNameMax : ℕ := 32
abbrev fieldBridgeHostMax : ℕ := 64
abbrev fieldBridgeSiteMax : ℕ := 32
abbrev fieldBridgeTopicMax : ℕ := 64

@[ext] structure FieldBridgePeer where
  name : CharArray fieldBridgeNameMax
  host : CharArray fieldBridgeHostMax
  mqttPort : UInt16
  p2pPort : UInt16
  enabled : UInt8
deriving DecidableEq

@[ext] structure FieldBridgeSystemSettings where
  deviceName : CharArray fieldBridgeNameMax
deriving DecidableEq

abbrev networkModeAuto : UInt8 := 0
abbrev networkModeEth : UInt8 := 1

@[ext] structure FieldBridgeNetworkSettings where
  deviceIp : CharArray fieldBridgeHostMax
  gateway : CharArray fieldBridgeHostMax
  netmask : CharArray fieldBridgeHostMax
  dns : CharArray fieldBridgeHostMax
  dhcpEnabled : UInt8
  mode : UInt8
deriving DecidableEq

@[ext] structure FieldBridgeBrokerSettings where
  brokerIp : CharArray fieldBridgeHostMax
  siteId : CharArray fieldBridgeSiteMax
  topicPrefix : CharArray fieldBridgeTopicMax
  mqttPort : UInt16
  p2pPort : UInt16
  fallbackPort : UInt16
  brokerEnabled : UInt8
  bridgeEnabled : UInt8
  meshEnabled : UInt8
deriving DecidableEq

@[ext] structure FieldBridgeSettings where
  system : FieldBridgeSystemSettings
  network : FieldBridgeNetworkSettings
  broker : FieldBridgeBrokerSettings
deriving DecidableEq

/-- The `broker` member of `field_bridge_settings_v1_t`. -/
@[ext] structure FieldBridgeBrokerSettingsV1 where
  brokerIp : CharArray fieldBridgeHostMax
  siteId : CharArray fieldBridgeSiteMax
  topicPrefix : CharArray fieldBridgeTopicMax
  mqttPort : UInt16
  p2pPort : UInt16
  brokerEnabled : UInt8
  bridgeEnabled : UInt8
  meshEnabled : UInt8
deriving DecidableEq

@[ext] structure FieldBridgeSettingsV1 where
  system : FieldBridgeSystemSettings
  network : FieldBridgeNetworkSettings
  broker : FieldBridgeBrokerSettingsV1
deriving DecidableEq

/-- `field_bridge_defaults_profile_t`, as the `int` a caller may pass. -/
abbrev FieldBridgeDefaultsProfile := ℤ

abbrev profileSmall : FieldBridgeDefaultsProfile := 0
abbrev profileLarge : FieldBridgeDefaultsProfile := 1

/-- A peer slot after `memset`. -/
def FieldBridgePeer.zero : FieldBridgePeer := ⟨.zero _, .zero _, 0, 0, 0⟩

/-- The settings after `memset`. -/
def FieldBridgeSettings.zero : FieldBridgeSettings :=
  ⟨⟨.zero _⟩, ⟨.zero _, .zero _, .zero _, .zero _, 0, 0⟩,
    ⟨.zero _, .zero _, .zero _, 0, 0, 0, 0, 0, 0⟩⟩

/-! ### How the records lie in memory -/

def FieldBridgePeer.layout : Layout FieldBridgePeer :=
  ((Layout.chars _).prod ((Layout.chars _).prod (Layout.u16.prod (Layout.u16.prod
    (Layout.u8.prod (Layout.pad 1)))))).iso
    (fun p => ⟨p.1, p.2.1, p.2.2.1, p.2.2.2.1, p.2.2.2.2.1⟩)
    (fun p => (p.name, p.host, p.mqttPort, p.p2pPort, p.enabled, ()))
    fun _ => rfl

def FieldBridgeSystemSettings.layout : Layout FieldBridgeSystemSettings :=
  (Layout.chars _).iso (fun n => ⟨n⟩) (fun s => s.deviceName) fun _ => rfl

def FieldBridgeNetworkSettings.layout : Layout FieldBridgeNetworkSettings :=
  ((Layout.chars _).prod ((Layout.chars _).prod ((Layout.chars _).prod ((Layout.chars _).prod
    (Layout.u8.prod Layout.u8))))).iso
    (fun p => ⟨p.1, p.2.1, p.2.2.1, p.2.2.2.1, p.2.2.2.2.1, p.2.2.2.2.2⟩)
    (fun n => (n.deviceIp, n.gateway, n.netmask, n.dns, n.dhcpEnabled, n.mode))
    fun _ => rfl

def FieldBridgeBrokerSettings.layout : Layout FieldBridgeBrokerSettings :=
  ((Layout.chars _).prod ((Layout.chars _).prod ((Layout.chars _).prod (Layout.u16.prod
    (Layout.u16.prod (Layout.u16.prod (Layout.u8.prod (Layout.u8.prod (Layout.u8.prod
      (Layout.pad 1)))))))))).iso
    (fun p => ⟨p.1, p.2.1, p.2.2.1, p.2.2.2.1, p.2.2.2.2.1, p.2.2.2.2.2.1, p.2.2.2.2.2.2.1,
      p.2.2.2.2.2.2.2.1, p.2.2.2.2.2.2.2.2.1⟩)
    (fun b => (b.brokerIp, b.siteId, b.topicPrefix, b.mqttPort, b.p2pPort, b.fallbackPort,
      b.brokerEnabled, b.bridgeEnabled, b.meshEnabled, ()))
    fun _ => rfl

def FieldBridgeSettings.layout : Layout FieldBridgeSettings :=
  (FieldBridgeSystemSettings.layout.prod (FieldBridgeNetworkSettings.layout.prod
    FieldBridgeBrokerSettings.layout)).iso
    (fun p => ⟨p.1, p.2.1, p.2.2⟩) (fun s => (s.system, s.network, s.broker)) fun _ => rfl

def FieldBridgeBrokerSettingsV1.layout : Layout FieldBridgeBrokerSettingsV1 :=
  ((Layout.chars _).prod ((Layout.chars _).prod ((Layout.chars _).prod (Layout.u16.prod
    (Layout.u16.prod (Layout.u8.prod (Layout.u8.prod (Layout.u8.prod (Layout.pad 1))))))))).iso
    (fun p => ⟨p.1, p.2.1, p.2.2.1, p.2.2.2.1, p.2.2.2.2.1, p.2.2.2.2.2.1, p.2.2.2.2.2.2.1,
      p.2.2.2.2.2.2.2.1⟩)
    (fun b => (b.brokerIp, b.siteId, b.topicPrefix, b.mqttPort, b.p2pPort, b.brokerEnabled,
      b.bridgeEnabled, b.meshEnabled, ()))
    fun _ => rfl

def FieldBridgeSettingsV1.layout : Layout FieldBridgeSettingsV1 :=
  (FieldBridgeSystemSettings.layout.prod (FieldBridgeNetworkSettings.layout.prod
    FieldBridgeBrokerSettingsV1.layout)).iso
    (fun p => ⟨p.1, p.2.1, p.2.2⟩) (fun s => (s.system, s.network, s.broker)) fun _ => rfl

theorem size_peer : FieldBridgePeer.layout.size = 102 := rfl

theorem size_settings : FieldBridgeSettings.layout.size = 460 := rfl

theorem size_settingsV1 : FieldBridgeSettingsV1.layout.size = 458 := rfl

end MqttFieldBridge.Config
