import MqttFieldBridge.Config.Atomic
import MqttFieldBridge.Runtime.Bridge

/-! # Start-up

`main` up to `bridge_control_init`. The settings that the node runs with are the saved ones under an
overlay, `runtimeSettings`: the address that Ethernet acquired, and what follows from it. `main` also
sets `broker_enabled` if it is off, and saves; but what it saves is the overlaid record, so the
overlay is saved with it. `mainNetwork_keeps_iff` says when this changes nothing else. -/

namespace MqttFieldBridge.Boot

open MqttFieldBridge.CLib MqttFieldBridge.Config MqttFieldBridge.Runtime

/-- What Ethernet gives: whether `product_ethernet_start` returned `0` and the link came up, and the
string it left in `eth_ip_addr`. -/
structure Ethernet where
  ready : Bool
  ip : CStr fieldBridgeHostMax

/-- The address and the active mode, unless the mode is unknown. -/
def startBrokerNetwork (settings : FieldBridgeSettings) (ethIpAddr : Text) :
    Option (Text × UInt8) :=
  if settings.network.mode = networkModeEth then
    some (ethIpAddr.take (fieldBridgeHostMax - 1), networkModeEth)
  else if settings.network.mode = networkModeAuto then
    some (ethIpAddr.take (fieldBridgeHostMax - 1), networkModeEth)
  else none

/-- The local variable `runtime_settings` of `main`. -/
def runtimeSettings (settings : FieldBridgeSettings) (ipAddr : Text) (activeNetworkMode : UInt8) :
    FieldBridgeSettings :=
  let configuredIp := settings.network.deviceIp.text.take (fieldBridgeHostMax - 1)
  let requestedDhcp := settings.network.dhcpEnabled
  let rs :=
    if ipAddr ≠ [] ∧ activeNetworkMode = networkModeEth then
      let rs :=
        { settings with network.deviceIp := settings.network.deviceIp.snprintf ipAddr }
      if rs.network.dhcpEnabled ≠ 0 ∨ rs.broker.brokerIp.first = 0 ∨
          rs.broker.brokerIp.text = str "0.0.0.0" then
        { rs with broker.brokerIp := rs.broker.brokerIp.snprintf ipAddr }
      else rs
    else settings
  let rs :=
    if requestedDhcp ≠ 0 ∧ configuredIp ≠ [] ∧ ipAddr = configuredIp then
      { rs with network.dhcpEnabled := 0 }
    else rs
  { rs with network.mode := activeNetworkMode }

/-- `main` up to the console. -/
def mainInit (w : World) (a : App) : App where
  config := productConfigInit w.store w.deviceId a.config
  runtime := productRuntimeInit
  seeds := []

/-- The network start-up of `main`: the state after it, and the settings it goes on with unless it
gives up. A build for the W5500 that gives up for want of a link reboots. -/
def mainNetwork (w : World) (eth : Ethernet) (a : App) : App × Option FieldBridgeSettings :=
  let settings := productConfigGetSettings a.config
  if !eth.ready then
    ({ a with
      runtime := productRuntimeBrokerFailed (str "UART provisioning required") a.runtime }, none)
  else
    match startBrokerNetwork settings eth.ip.val with
    | none =>
      ({ a with runtime := productRuntimeBrokerFailed (str "network start failed") a.runtime }, none)
    | some (ipAddr, activeNetworkMode) =>
      let rs := runtimeSettings settings ipAddr activeNetworkMode
      let a := { a with runtime := productRuntimeNetworkStart rs a.runtime }
      if !productRuntimeNetworkReady a.runtime then
        ({ a with runtime := productRuntimeBrokerFailed (str "network not ready") a.runtime }, none)
      else if activeNetworkMode = networkModeEth ∧ rs.broker.brokerEnabled = 0 then
        let rs := { rs with broker.brokerEnabled := 1 }
        ({ a with config := (productConfigSetSettings w.store rs a.config).2 }, some rs)
      else (a, some rs)

/-- `main` up to `bridge_control_init`. The store may answer the write-back otherwise than the
loads before it. -/
def mainBoot (w w' : World) (eth : Ethernet) (a : App) : App :=
  let r := mainNetwork w' eth (mainInit w a)
  match r.2 with
  | none => r.1
  | some _ => bridgeControlInit w' r.1

/-! ### The overlay -/

variable {s : FieldBridgeSettings} {ip : CStr fieldBridgeHostMax}

theorem take_ip : ip.val.take (fieldBridgeHostMax - 1) = ip.val :=
  List.take_of_length_le (by have := ip.length_lt; omega)

/-- Both modes that the checks admit run on Ethernet. -/
theorem startBrokerNetwork_of_valid (hv : SettingsValid s) :
    startBrokerNetwork s ip.val = some (ip.val, networkModeEth) := by
  unfold startBrokerNetwork
  rw [take_ip]
  rcases hv.v1.mode with hm | hm
  · rw [hm]
    rfl
  · rw [if_pos hm]

/-- The settings under the overlay of an acquired address. -/
theorem runtimeSettings_eth (hip : ip.val ≠ []) (hv : SettingsValid s) :
    runtimeSettings s ip.val networkModeEth =
      { s with
        network :=
          { s.network with
            deviceIp := s.network.deviceIp.snprintf ip.val
            dhcpEnabled :=
              if ip.val = s.network.deviceIp.text.take (fieldBridgeHostMax - 1) then 0
              else s.network.dhcpEnabled
            mode := networkModeEth }
        broker :=
          { s.broker with
            brokerIp :=
              if s.network.dhcpEnabled ≠ 0 ∨ s.broker.brokerIp.text = str "0.0.0.0" then
                s.broker.brokerIp.snprintf ip.val
              else s.broker.brokerIp } } := by
  have hfirst : s.broker.brokerIp.first ≠ 0 := hv.v1.brokerIp
  unfold runtimeSettings
  simp only [hip, ne_eq, not_false_iff, true_and, if_true, hfirst, false_or]
  have hdhcp : (if ip.val = s.network.deviceIp.text.take (fieldBridgeHostMax - 1) then (0 : UInt8)
      else s.network.dhcpEnabled) =
      if ¬ s.network.dhcpEnabled = 0 ∧
          ¬ s.network.deviceIp.text.take (fieldBridgeHostMax - 1) = [] ∧
          ip.val = s.network.deviceIp.text.take (fieldBridgeHostMax - 1) then (0 : UInt8)
      else s.network.dhcpEnabled := by
    by_cases he : ip.val = s.network.deviceIp.text.take (fieldBridgeHostMax - 1)
    · by_cases hd : s.network.dhcpEnabled = 0
      · simp [hd]
      · rw [if_pos he, if_pos ⟨hd, he ▸ hip, he⟩]
    · rw [if_neg he, if_neg fun h => he h.2.2]
  rw [hdhcp]
  split_ifs
  · rfl
  · rfl
  · rfl
  · rfl

theorem settingsValid_runtimeSettings (hip : ip.val ≠ []) (hv : SettingsValid s) :
    SettingsValid (runtimeSettings s ip.val networkModeEth) := by
  have hsnprintf : ∀ a : CharArray fieldBridgeHostMax, (a.snprintf ip.val).first ≠ 0 := by
    intro a h
    have ht := CharArray.text_snprintf (a := a) ip.notMem ip.length_lt
    rw [CharArray.text_eq_nil_iff.mpr h] at ht
    exact hip ht.symm
  rw [runtimeSettings_eth hip hv]
  refine ⟨{ hv.v1 with
      deviceIp := hsnprintf _, dhcpEnabled := ?_, mode := Or.inr rfl, brokerIp := ?_ },
    hv.fallbackPort, hv.ne_mqttPort, hv.ne_p2pPort, hv.ne_http⟩
  · dsimp only
    split_ifs
    · decide
    · exact hv.v1.dhcpEnabled
  · dsimp only [FieldBridgeBrokerSettings.toV1]
    split_ifs
    · exact hsnprintf _
    · exact hv.v1.brokerIp

/-- The settings with another `broker_enabled`. -/
def withBrokerEnabled (b : UInt8) (s : FieldBridgeSettings) : FieldBridgeSettings :=
  { s with broker.brokerEnabled := b }

theorem withBrokerEnabled_self : withBrokerEnabled s.broker.brokerEnabled s = s := rfl

theorem withBrokerEnabled_idem (b b' : UInt8) :
    withBrokerEnabled b (withBrokerEnabled b' s) = withBrokerEnabled b s := rfl

theorem settingsValid_withBrokerEnabled (hv : SettingsValid s) :
    SettingsValid (withBrokerEnabled 1 s) :=
  ⟨{ hv.v1 with brokerEnabled := UInt8.le_refl 1 }, hv.fallbackPort, hv.ne_mqttPort, hv.ne_p2pPort,
    hv.ne_http⟩

/-- The overlay of the address `ip` leaves the settings as they are. -/
structure OverlayKeeps (s : FieldBridgeSettings) (ip : Text) : Prop where
  mode : s.network.mode = networkModeEth
  dhcpEnabled : s.network.dhcpEnabled = 0
  terminated : s.network.deviceIp.Terminated
  deviceIp : s.network.deviceIp.text = ip
  brokerIp : s.broker.brokerIp.text = str "0.0.0.0" →
    s.broker.brokerIp.Terminated ∧ ip = str "0.0.0.0"

theorem runtimeSettings_eq_self_iff (hip : ip.val ≠ []) (hv : SettingsValid s) :
    runtimeSettings s ip.val networkModeEth = s ↔ OverlayKeeps s ip.val := by
  have hself {a : CharArray fieldBridgeHostMax} :
      a.snprintf ip.val = a ↔ a.Terminated ∧ a.text = ip.val :=
    CharArray.snprintf_eq_self_iff ip.notMem ip.length_lt
  rw [runtimeSettings_eth hip hv]
  constructor
  · intro h
    have hnet := congrArg FieldBridgeSettings.network h
    have hbip := congrArg (fun s => s.broker.brokerIp) h
    obtain ⟨ht, hd⟩ := hself.mp (congrArg FieldBridgeNetworkSettings.deviceIp hnet)
    have hdhcp : s.network.dhcpEnabled = 0 := by
      have := congrArg FieldBridgeNetworkSettings.dhcpEnabled hnet
      dsimp only at this
      rw [hd, take_ip, if_pos rfl] at this
      exact this.symm
    refine ⟨(congrArg FieldBridgeNetworkSettings.mode hnet).symm, hdhcp, ht, hd, fun hz => ?_⟩
    dsimp only at hbip
    rw [if_pos (Or.inr hz)] at hbip
    obtain ⟨hbt, hb⟩ := hself.mp hbip
    exact ⟨hbt, by rw [← hb, hz]⟩
  · rintro ⟨hm, hdhcp, ht, hd, hb⟩
    have hbip : (if s.network.dhcpEnabled ≠ 0 ∨ s.broker.brokerIp.text = str "0.0.0.0" then
        s.broker.brokerIp.snprintf ip.val else s.broker.brokerIp) = s.broker.brokerIp := by
      split_ifs with hz
      · have hz := hz.resolve_left fun h => h hdhcp
        obtain ⟨hbt, hip0⟩ := hb hz
        exact hself.mpr ⟨hbt, hz.trans hip0.symm⟩
      · rfl
    rw [hself.mpr ⟨ht, hd⟩, hbip, hdhcp, ← hm]
    simp only [ite_self]
    rw [← hdhcp]

/-! ### What is written back -/

/-- `s'` is `s`, or `s` with the broker switched on. -/
def OnlyBrokerEnabled (s s' : FieldBridgeSettings) : Prop :=
  s' = s ∨ s' = withBrokerEnabled 1 s

/-- Neither RAM nor the store has more of `s` changed than `broker_enabled`. -/
structure WritesBackOnly (s : FieldBridgeSettings) (c : ConfigState) : Prop where
  live : OnlyBrokerEnabled s c.settings
  persisted : ∃ s', Holds FieldBridgeSettings.layout c.store settingsKey s' ∧ OnlyBrokerEnabled s s'

/-- The overlay does not touch `broker_enabled`. -/
theorem brokerEnabled_runtimeSettings (hip : ip.val ≠ []) (hv : SettingsValid s) :
    (runtimeSettings s ip.val networkModeEth).broker.brokerEnabled = s.broker.brokerEnabled := by
  rw [runtimeSettings_eth hip hv]

theorem onlyBrokerEnabled_runtimeSettings_iff (hip : ip.val ≠ []) (hv : SettingsValid s)
    (hb : s.broker.brokerEnabled = 0) :
    OnlyBrokerEnabled s (withBrokerEnabled 1 (runtimeSettings s ip.val networkModeEth)) ↔
      OverlayKeeps s ip.val := by
  have hbe := (brokerEnabled_runtimeSettings hip hv).trans hb
  rw [← runtimeSettings_eq_self_iff hip hv]
  constructor
  · rintro (h | h)
    · have h1 := congrArg (fun s => s.broker.brokerEnabled) h
      rw [hb] at h1
      exact absurd h1 (show (1 : UInt8) ≠ 0 by decide)
    · calc runtimeSettings s ip.val networkModeEth
          = withBrokerEnabled 0 (runtimeSettings s ip.val networkModeEth) := by
            rw [← hbe, withBrokerEnabled_self]
        _ = withBrokerEnabled 0 (withBrokerEnabled 1 s) := by rw [← h, withBrokerEnabled_idem]
        _ = s := by rw [withBrokerEnabled_idem, ← hb, withBrokerEnabled_self]
  · intro h
    rw [h]
    exact Or.inr rfl

variable {w w' : World} {eth : Ethernet} {a : App}

/-- Start-up with a valid record in the store adopts it and leaves the store alone. -/
theorem mainInit_of_holds (hr : Readable w.store)
    (hst : Holds FieldBridgeSettings.layout a.config.store settingsKey s) (hv : SettingsValid s) :
    (mainInit w a).config.settings = s ∧ (mainInit w a).config.store = a.config.store := by
  have hl : loadSettings w.store a.config.store = some s :=
    loadSettings_eq_some.mpr ⟨loadRecord_of_holds hst (hr.load _), hv⟩
  constructor
  · unfold mainInit
    rw [productConfigInit_settings, initSettings, if_pos hr.init, hl]
    rfl
  · rcases @productConfigInit_store w.store w.deviceId a.config with h | ⟨s', hn, -⟩
    · exact h
    · rw [hl] at hn
      cases hn

/-- What the network start-up makes of the configuration. -/
theorem mainNetwork_config (hready : eth.ready = true) (hv : SettingsValid a.config.settings) :
    (mainNetwork w eth a).1.config =
      if (runtimeSettings a.config.settings eth.ip.val networkModeEth).broker.brokerEnabled = 0 then
        (productConfigSetSettings w.store
          (withBrokerEnabled 1 (runtimeSettings a.config.settings eth.ip.val networkModeEth))
          a.config).2
      else a.config := by
  unfold mainNetwork
  simp only [productConfigGetSettings, hready, Bool.not_true, Bool.false_eq_true, if_false,
    startBrokerNetwork_of_valid hv, networkReady_networkStart, true_and]
  split_ifs
  · rfl
  · rfl

/-- **The write-back changes nothing but `broker_enabled`** if and only if it does not happen or the
overlay is void. -/
theorem mainNetwork_keeps_iff (hr : Readable w.store)
    (hst : Holds FieldBridgeSettings.layout a.config.store settingsKey s) (hv : SettingsValid s)
    (hready : eth.ready = true) (hip : eth.ip.val ≠ []) :
    WritesBackOnly s (mainNetwork w' eth (mainInit w a)).1.config ↔
      s.broker.brokerEnabled = 1 ∨ OverlayKeeps s eth.ip.val := by
  obtain ⟨hset, hstore⟩ := mainInit_of_holds hr hst hv
  rw [← hstore] at hst
  set a' := mainInit w a
  have hv' : SettingsValid a'.config.settings := hset ▸ hv
  rw [mainNetwork_config hready hv', hset, brokerEnabled_runtimeSettings hip hv]
  by_cases hb : s.broker.brokerEnabled = 0
  · have hb1 : s.broker.brokerEnabled ≠ 1 := by rw [hb]; decide
    rw [if_pos hb, or_iff_right hb1, ← onlyBrokerEnabled_runtimeSettings_iff hip hv hb,
      productConfigSetSettings_of_valid
        (settingsValid_withBrokerEnabled (settingsValid_runtimeSettings hip hv))]
    set rs := withBrokerEnabled 1 (runtimeSettings s eth.ip.val networkModeEth)
    refine ⟨fun h => h.live, fun h => ⟨h, ?_⟩⟩
    rcases hs : w'.store.save settingsKey with _ | _
    · exact ⟨rs, holds_saveRecord hs, h⟩
    · exact ⟨s, by simpa [saveRecord_err hs] using hst, Or.inl rfl⟩
  · have hb1 : s.broker.brokerEnabled = 1 := (validBool_cases hv.v1.brokerEnabled).resolve_left hb
    rw [if_neg hb]
    exact ⟨fun _ => Or.inl hb1, fun _ => ⟨Or.inl hset, s, hst, Or.inl rfl⟩⟩

/-- The saved settings of a device that switched its broker off. -/
def savedExample (mode : UInt8) : FieldBridgeSettings :=
  let d := defaultSettings []
  { d with network.mode := mode, broker.brokerEnabled := 0 }

/-- The device before start-up. -/
def poweredOff (s : FieldBridgeSettings) : App where
  config := powerOn
    (Function.update ConfigStore.empty settingsKey (some (FieldBridgeSettings.layout.enc s)))
  runtime := productRuntimeInit
  seeds := []

theorem holds_poweredOff (s : FieldBridgeSettings) :
    Holds FieldBridgeSettings.layout (poweredOff s).config.store settingsKey s :=
  holds_update

/-- Ethernet comes up with the default address. -/
def exampleEthernet : Ethernet where
  ready := true
  ip := ⟨str "192.168.127.10", by decide, by decide⟩

theorem settingsValid_savedExample {mode : UInt8}
    (h : mode = networkModeAuto ∨ mode = networkModeEth) : SettingsValid (savedExample mode) := by
  have hv := (settingsSound_default []).valid
  exact ⟨{ hv.v1 with mode := h, brokerEnabled := show (0 : UInt8) ≤ 1 by decide },
    hv.fallbackPort, hv.ne_mqttPort, hv.ne_p2pPort, hv.ne_http⟩

theorem overlayKeeps_savedExample :
    OverlayKeeps (savedExample networkModeEth) exampleEthernet.ip.val where
  mode := rfl
  dhcpEnabled := by decide
  terminated := by decide
  deviceIp := by decide
  brokerIp h := absurd h (by decide)

theorem mainNetwork_keeps_savedExample :
    WritesBackOnly (savedExample networkModeEth)
      (mainNetwork .good exampleEthernet
        (mainInit .good (poweredOff (savedExample networkModeEth)))).1.config :=
  (mainNetwork_keeps_iff ⟨rfl, fun _ => rfl⟩ (holds_poweredOff _)
    (settingsValid_savedExample (Or.inr rfl)) rfl (by decide)).mpr
    (Or.inr overlayKeeps_savedExample)

/-- A device in the mode `auto` is in the mode `eth` after start-up, in RAM and in the store. -/
theorem mainNetwork_overwrites_mode :
    ¬ WritesBackOnly (savedExample networkModeAuto)
      (mainNetwork .good exampleEthernet
        (mainInit .good (poweredOff (savedExample networkModeAuto)))).1.config := by
  intro h
  have hm : (mainNetwork .good exampleEthernet (mainInit .good
      (poweredOff (savedExample networkModeAuto)))).1.config.settings.network.mode =
        networkModeEth := by decide +kernel
  rcases h.live with h1 | h1
  · rw [h1] at hm
    exact absurd hm (by decide)
  · rw [h1] at hm
    exact absurd hm (by decide)

/-! ### Any boot -/

/-- What `main` hands to the configuration module after start-up has left these settings. -/
def writeBack (eth : Ethernet) (settings : FieldBridgeSettings) : Option FieldBridgeSettings :=
  if !eth.ready then none
  else
    (startBrokerNetwork settings eth.ip.val).bind fun r =>
      let rs := runtimeSettings settings r.1 r.2
      if r.2 = networkModeEth ∧ rs.broker.brokerEnabled = 0 then some (withBrokerEnabled 1 rs)
      else none

theorem mainNetwork_config_eq : (mainNetwork w eth a).1.config =
    afterOp w.store w.deviceId ((writeBack eth a.config.settings).map .setSettings) a.config := by
  unfold mainNetwork writeBack productConfigGetSettings
  rcases eth.ready with _ | _
  · rfl
  · simp only [Bool.not_true, Bool.false_eq_true, if_false, networkReady_networkStart]
    rcases startBrokerNetwork a.config.settings eth.ip.val with _ | ⟨ip, mode⟩
    · rfl
    · simp only [Option.bind_some]
      split_ifs
      · rfl
      · rfl

theorem mainBoot_config : (mainBoot w w' eth a).config =
    afterOp w'.store w'.deviceId
      ((writeBack eth (mainInit w a).config.settings).map .setSettings) (mainInit w a).config := by
  have hnet : (mainBoot w w' eth a).config = (mainNetwork w' eth (mainInit w a)).1.config := by
    unfold mainBoot
    dsimp only
    split
    · rfl
    · exact applyPeers_config.1
  rw [hnet, mainNetwork_config_eq]

/-- The overlay prints the address over two others or leaves them, and sets flags. -/
theorem runtimeSettings_prints (s : FieldBridgeSettings) (ip : Text) (mode : UInt8) :
    ∃ (deviceIp brokerIp : CharArray fieldBridgeHostMax) (dhcpEnabled : UInt8),
      runtimeSettings s ip mode =
        { s with
          network :=
            { s.network with deviceIp := deviceIp, dhcpEnabled := dhcpEnabled, mode := mode }
          broker.brokerIp := brokerIp } ∧
      (deviceIp = s.network.deviceIp ∨ deviceIp = s.network.deviceIp.snprintf ip) ∧
      (brokerIp = s.broker.brokerIp ∨ brokerIp = s.broker.brokerIp.snprintf ip) := by
  unfold runtimeSettings
  dsimp only
  split_ifs
  · exact ⟨_, _, _, rfl, Or.inr rfl, Or.inr rfl⟩
  · exact ⟨_, _, _, rfl, Or.inr rfl, Or.inl rfl⟩
  · exact ⟨_, _, _, rfl, Or.inl rfl, Or.inl rfl⟩
  · exact ⟨_, _, _, rfl, Or.inr rfl, Or.inr rfl⟩
  · exact ⟨_, _, _, rfl, Or.inr rfl, Or.inl rfl⟩
  · exact ⟨_, _, _, rfl, Or.inl rfl, Or.inl rfl⟩

/-- The overlay prints two addresses and sets flags; it leaves the ports alone. -/
theorem runtimeSettings_fields {ip : Text} {mode : UInt8} :
    ∃ (deviceIp brokerIp : CharArray fieldBridgeHostMax) (dhcpEnabled : UInt8),
      runtimeSettings s ip mode =
        { s with
          network :=
            { s.network with deviceIp := deviceIp, dhcpEnabled := dhcpEnabled, mode := mode }
          broker.brokerIp := brokerIp } ∧
      (s.network.deviceIp.Terminated → deviceIp.Terminated) ∧
      (s.broker.brokerIp.Terminated → brokerIp.Terminated) := by
  have hprint : ∀ {a a' : CharArray fieldBridgeHostMax}, a' = a ∨ a' = a.snprintf ip →
      a.Terminated → a'.Terminated := by
    rintro a a' (rfl | rfl) ha
    · exact ha
    · exact CharArray.terminated_snprintf (by decide)
  obtain ⟨deviceIp, brokerIp, dhcpEnabled, heq, hdevice, hbroker⟩ := runtimeSettings_prints s ip mode
  exact ⟨deviceIp, brokerIp, dhcpEnabled, heq, hprint hdevice, hprint hbroker⟩

theorem settingsTerminated_runtimeSettings {ip : Text} {mode : UInt8} (h : SettingsTerminated s) :
    SettingsTerminated (runtimeSettings s ip mode) := by
  obtain ⟨deviceIp, brokerIp, dhcpEnabled, heq, hdevice, hbroker⟩ :=
    @runtimeSettings_fields s ip mode
  rw [heq]
  exact { h with
    network := { h.network with deviceIp := hdevice h.network.deviceIp }
    brokerIp := hbroker h.brokerIp }

/-- The network is started with the address that Ethernet acquired. -/
theorem startBrokerNetwork_ip {r : Text × UInt8} (h : startBrokerNetwork s ip.val = some r) :
    r.1 = ip.val := by
  unfold startBrokerNetwork at h
  rw [take_ip] at h
  split_ifs at h
  · exact (Prod.mk.inj (Option.some.inj h)).1.symm
  · exact (Prod.mk.inj (Option.some.inj h)).1.symm

theorem writeBack_overlay {n : FieldBridgeSettings} (h : writeBack eth s = some n) :
    ∃ mode, n = withBrokerEnabled 1 (runtimeSettings s eth.ip.val mode) := by
  unfold writeBack at h
  split_ifs at h
  obtain ⟨r, hstart, hr⟩ := Option.bind_eq_some_iff.mp h
  dsimp only at hr
  split_ifs at hr
  rw [← startBrokerNetwork_ip hstart]
  exact ⟨r.2, (Option.some.inj hr).symm⟩

/-- What is written back has the strings and the ports of the settings under the overlay. -/
theorem writeBack_eq_some {n : FieldBridgeSettings} (h : writeBack eth s = some n) :
    ∃ ip mode, n = withBrokerEnabled 1 (runtimeSettings s ip mode) :=
  ⟨_, writeBack_overlay h⟩

/-! ### The runtime after a boot -/

/-- The network start-up either reports an error of its own or starts the network. -/
theorem mainNetwork_runtime :
    (∃ error ∈ [str "UART provisioning required", str "network start failed"],
        (mainNetwork w eth a).1.runtime = productRuntimeBrokerFailed error a.runtime) ∨
      ∃ mode, (mainNetwork w eth a).1.runtime =
        productRuntimeNetworkStart (runtimeSettings a.config.settings eth.ip.val mode) a.runtime := by
  unfold mainNetwork productConfigGetSettings
  rcases eth.ready with _ | _
  · exact Or.inl ⟨_, List.mem_cons_self, rfl⟩
  · simp only [Bool.not_true, Bool.false_eq_true, if_false, networkReady_networkStart]
    rcases hstart : startBrokerNetwork a.config.settings eth.ip.val with _ | ⟨ip, mode⟩
    · exact Or.inl ⟨_, List.mem_cons_of_mem _ List.mem_cons_self, rfl⟩
    · have hip : ip = eth.ip.val := startBrokerNetwork_ip hstart
      refine Or.inr ⟨mode, ?_⟩
      rw [hip]
      dsimp only
      split_ifs
      · rfl
      · rfl

theorem mainBoot_runtime :
    (mainBoot w w' eth a).runtime = (mainNetwork w' eth (mainInit w a)).1.runtime := by
  unfold mainBoot
  dsimp only
  split
  · rfl
  · exact applyPeers_config.2

end MqttFieldBridge.Boot
