import MqttFieldBridge.Boot.Main

/-! # Starting the broker

What `main` does after `bridge_control_init`. A build for the W5500 starts the broker from its main
loop, with the settings it reads again from the configuration; every other build starts it at the end
of `main`, with the settings of the run. The broker itself is a library of its own, and `BrokerLib` is
what it answers. `bindsAlike_iff` says when both bind to the address of the run. -/

namespace MqttFieldBridge.Boot

open MqttFieldBridge.CLib MqttFieldBridge.Config MqttFieldBridge.Runtime

/-- What the broker library answers. -/
structure BrokerLib where
  setBindHost : Text → Rc
  setListenPort : UInt16 → Rc
  init : Rc

/-- The broker thread: it reports once, that it runs or that it has failed and exits. -/
inductive BrokerThread where
  | none
  | starting
  | running
  | exited
deriving DecidableEq

/-- The device with the static variables of `main.c`; `bindHost` is what `broker_set_bind_host` was
called with last. -/
structure Node where
  app : App
  brokerThreadStarted : Bool
  bindHost : Option Text
  thread : BrokerThread

/-- The device when `main` has run `bridge_control_init`. -/
def Node.booted (a : App) : Node := ⟨a, false, none, .none⟩

def Node.failed (error : String) (n : Node) : Node :=
  { n with app.runtime := productRuntimeBrokerFailed (str error) n.app.runtime }

/-- `start_broker_service` up to the creation of the thread. -/
def prepareBroker (b : BrokerLib) (w : World) (settings : FieldBridgeSettings) (n : Node) :
    Rc × Node :=
  let n := { n with bindHost := some settings.broker.brokerIp.text }
  if b.setBindHost settings.broker.brokerIp.text ≠ .ok then (.err, n.failed "invalid broker bind ip")
  else if b.setListenPort settings.broker.mqttPort ≠ .ok then
    (.err, n.failed "invalid broker listen port")
  else (.ok, { n with app := (bridgeControlApplyPeers w n.app).2 })

def startBrokerService (b : BrokerLib) (w : World) (settings : FieldBridgeSettings) (n : Node) :
    Rc × Node :=
  if n.brokerThreadStarted then (.ok, n)
  else
    let r := prepareBroker b w settings n
    if r.1 ≠ .ok then r else (.ok, { r.2 with thread := .starting, brokerThreadStarted := true })

/-- `broker_service_entry` up to its report. -/
def brokerServiceEntry (b : BrokerLib) (n : Node) : Node :=
  if b.init ≠ .ok then { n.failed "broker_init failed" with thread := .exited }
  else { n with app.runtime := productRuntimeBrokerStarted n.app.runtime, thread := .running }

/-- One iteration of the main loop of a build for the W5500. While mesh peers are lost the loop asks
for the status now and then, `asksStatus`, and logs it. -/
def mainLoopIteration (b : BrokerLib) (w : World) (asksStatus : Bool) (n : Node) : Node :=
  if !n.brokerThreadStarted then
    (startBrokerService b w (productConfigGetSettings n.app.config) n).2
  else if productRuntimeBrokerStartRequested n.app.runtime then
    (startBrokerService b w (productConfigGetSettings n.app.config) n).2
  else if asksStatus then
    { n with app.runtime := productRuntimeGetStatus w.p2p n.app.runtime }
  else n

/-- The end of `main` in the other builds. -/
def mainEnd (b : BrokerLib) (settings : FieldBridgeSettings) (n : Node) : Node :=
  if settings.broker.brokerEnabled = 0 then
    { n with app.runtime := (productRuntimeSetBrokerEnabled 0 n.app.runtime).2 }
  else
    let n := { n with bindHost := some settings.broker.brokerIp.text }
    if b.setBindHost settings.broker.brokerIp.text ≠ .ok then n.failed "invalid broker bind ip"
    else if b.setListenPort settings.broker.mqttPort ≠ .ok then
      n.failed "invalid broker listen port"
    else { n with thread := .starting }

theorem startBrokerService_of_started {b : BrokerLib} {w : World} {s : FieldBridgeSettings}
    {n : Node} (h : n.brokerThreadStarted = true) : startBrokerService b w s n = (.ok, n) := by
  unfold startBrokerService
  rw [if_pos h]

/-! ### The address the broker binds to -/

theorem prepareBroker_bindHost {b : BrokerLib} {w : World} {s : FieldBridgeSettings} {n : Node} :
    (prepareBroker b w s n).2.bindHost = some s.broker.brokerIp.text := by
  unfold prepareBroker
  dsimp only
  split_ifs
  · rfl
  · rfl
  · rfl

theorem startBrokerService_bindHost {b : BrokerLib} {w : World} {s : FieldBridgeSettings} {n : Node}
    (h : n.brokerThreadStarted = false) :
    (startBrokerService b w s n).2.bindHost = some s.broker.brokerIp.text := by
  have hnot : ¬ n.brokerThreadStarted = true := by simp [h]
  unfold startBrokerService
  rw [if_neg hnot]
  dsimp only
  split
  · exact prepareBroker_bindHost
  · exact prepareBroker_bindHost

/-- The first iteration binds to the address in the configuration. -/
theorem mainLoopIteration_bindHost {b : BrokerLib} {w : World} {asksStatus : Bool} {a : App} :
    (mainLoopIteration b w asksStatus (.booted a)).bindHost =
      some a.config.settings.broker.brokerIp.text :=
  startBrokerService_bindHost rfl

/-- The other builds bind to the address of the settings they go on with. -/
theorem mainEnd_bindHost {b : BrokerLib} {s : FieldBridgeSettings} {n : Node}
    (h : s.broker.brokerEnabled ≠ 0) :
    (mainEnd b s n).bindHost = some s.broker.brokerIp.text := by
  unfold mainEnd
  rw [if_neg h]
  dsimp only
  split_ifs
  · rfl
  · rfl
  · rfl

variable {w w' w'' : World} {b : BrokerLib} {eth : Ethernet} {a : App} {s : FieldBridgeSettings}

/-- The address of the run: the acquired one if it is to stand in for the saved one. -/
theorem brokerIp_runtimeSettings (hip : eth.ip.val ≠ []) (hv : SettingsValid s) :
    (runtimeSettings s eth.ip.val networkModeEth).broker.brokerIp.text =
      if s.network.dhcpEnabled ≠ 0 ∨ s.broker.brokerIp.text = str "0.0.0.0" then eth.ip.val
      else s.broker.brokerIp.text := by
  rw [runtimeSettings_eth hip hv]
  dsimp only
  split_ifs
  · exact CharArray.text_snprintf eth.ip.notMem eth.ip.length_lt
  · rfl

/-- The settings `main` goes on with. -/
theorem mainNetwork_settings (hready : eth.ready = true) (hip : eth.ip.val ≠ [])
    (hv : SettingsValid a.config.settings) :
    (mainNetwork w eth a).2 =
      some (withBrokerEnabled 1 (runtimeSettings a.config.settings eth.ip.val networkModeEth)) := by
  have hflag := (settingsValid_runtimeSettings hip hv).v1.brokerEnabled
  set rs := runtimeSettings a.config.settings eth.ip.val networkModeEth with hrs
  unfold mainNetwork
  simp only [productConfigGetSettings, hready, Bool.not_true, Bool.false_eq_true, if_false,
    startBrokerNetwork_of_valid hv, networkReady_networkStart, true_and]
  rw [← hrs]
  by_cases hb : rs.broker.brokerEnabled = 0
  · rw [if_pos hb]
    rfl
  · have hone : rs.broker.brokerEnabled = 1 := (validBool_cases hflag).resolve_left hb
    rw [if_neg hb, ← hone, withBrokerEnabled_self]

/-- The device and the settings `main` goes on with, if it gets that far. -/
def mainStart (w w' : World) (eth : Ethernet) (a : App) : Option (FieldBridgeSettings × Node) :=
  let r := mainNetwork w' eth (mainInit w a)
  r.2.map fun settings => (settings, .booted (bridgeControlInit w' r.1))

/-- Both builds bind the broker to the address of the run. -/
def BindsAlike (b : BrokerLib) (w w' w'' : World) (eth : Ethernet) (a : App) : Prop :=
  ∃ settings n, mainStart w w' eth a = some (settings, n) ∧
    (∀ asksStatus,
      (mainLoopIteration b w'' asksStatus n).bindHost = some settings.broker.brokerIp.text) ∧
    (mainEnd b settings n).bindHost = some settings.broker.brokerIp.text

/-- The address in the configuration when the loop starts: that of the run if it is written back. -/
theorem mainNetwork_brokerIp (hready : eth.ready = true) (hip : eth.ip.val ≠ [])
    (hv : SettingsValid a.config.settings) :
    (mainNetwork w eth a).1.config.settings.broker.brokerIp.text =
      if a.config.settings.broker.brokerEnabled = 0 then
        (runtimeSettings a.config.settings eth.ip.val networkModeEth).broker.brokerIp.text
      else a.config.settings.broker.brokerIp.text := by
  rw [mainNetwork_config hready hv, brokerEnabled_runtimeSettings hip hv]
  split_ifs
  · rw [productConfigSetSettings_of_valid
      (settingsValid_withBrokerEnabled (settingsValid_runtimeSettings hip hv))]
    rfl
  · rfl

/-- Both builds bind to the address of the run exactly if it is the one in the configuration. -/
theorem bindsAlike_iff_live (hready : eth.ready = true) (hip : eth.ip.val ≠ [])
    (hv : SettingsValid (mainInit w a).config.settings) :
    BindsAlike b w w' w'' eth a ↔
      (mainNetwork w' eth (mainInit w a)).1.config.settings.broker.brokerIp.text =
        (runtimeSettings (mainInit w a).config.settings eth.ip.val
          networkModeEth).broker.brokerIp.text := by
  set a' := mainInit w a with ha'
  set rs := runtimeSettings a'.config.settings eth.ip.val networkModeEth with hrs
  have hstart : mainStart w w' eth a = some (withBrokerEnabled 1 rs,
      .booted (bridgeControlInit w' (mainNetwork w' eth a').1)) := by
    unfold mainStart
    dsimp only
    rw [← ha', mainNetwork_settings hready hip hv]
    rfl
  have hconfig : (bridgeControlInit w' (mainNetwork w' eth a').1).config =
      (mainNetwork w' eth a').1.config := applyPeers_config.1
  have hend : ∀ n, (mainEnd b (withBrokerEnabled 1 rs) n).bindHost =
      some rs.broker.brokerIp.text :=
    fun n => mainEnd_bindHost (show (1 : UInt8) ≠ 0 by decide)
  unfold BindsAlike
  simp only [hstart, Option.some.injEq, Prod.mk.injEq]
  constructor
  · rintro ⟨settings, n, ⟨rfl, rfl⟩, hloop, -⟩
    have haddress := hloop false
    rw [mainLoopIteration_bindHost, hconfig] at haddress
    exact Option.some.inj haddress
  · intro h
    refine ⟨_, _, ⟨rfl, rfl⟩, fun asksStatus => ?_, hend _⟩
    rw [mainLoopIteration_bindHost, hconfig, h]
    rfl

/-- **Both builds bind to the address of the run** if and only if the address in the configuration is
that one: because the write-back has put it there, or because it was saved. -/
theorem bindsAlike_iff (hr : Readable w.store)
    (hst : Holds FieldBridgeSettings.layout a.config.store settingsKey s) (hv : SettingsValid s)
    (hready : eth.ready = true) (hip : eth.ip.val ≠ []) :
    BindsAlike b w w' w'' eth a ↔
      s.broker.brokerEnabled = 0 ∨ s.broker.brokerIp.text = eth.ip.val ∨
        (s.network.dhcpEnabled = 0 ∧ s.broker.brokerIp.text ≠ str "0.0.0.0") := by
  obtain ⟨hset, -⟩ := mainInit_of_holds hr hst hv
  have hv' : SettingsValid (mainInit w a).config.settings := hset ▸ hv
  rw [bindsAlike_iff_live hready hip hv', mainNetwork_brokerIp hready hip hv', hset,
    brokerIp_runtimeSettings hip hv]
  by_cases hb : s.broker.brokerEnabled = 0
  · simp [hb]
  · rw [if_neg hb, or_iff_right hb]
    by_cases hz : s.network.dhcpEnabled ≠ 0 ∨ s.broker.brokerIp.text = str "0.0.0.0"
    · rw [if_pos hz]
      refine ⟨Or.inl, fun h => h.resolve_right ?_⟩
      rintro ⟨hd, hne⟩
      exact hz.elim (fun h => h hd) hne
    · rw [if_neg hz]
      obtain ⟨hd, hne⟩ := not_or.mp hz
      exact ⟨fun _ => Or.inr ⟨not_not.mp hd, hne⟩, fun _ => rfl⟩

/-- The broker library takes every address and port. -/
def BrokerLib.good : BrokerLib := ⟨fun _ => .ok, fun _ => .ok, .ok⟩

/-- Saved settings with DHCP and the default address of the broker. -/
def dhcpExample : FieldBridgeSettings :=
  let d := defaultSettings []
  { d with network.dhcpEnabled := 1 }

/-- Ethernet acquires the address `ip`. -/
def acquired (ip : CStr fieldBridgeHostMax) : Ethernet := ⟨true, ip⟩

theorem settingsValid_dhcpExample : SettingsValid dhcpExample := by
  have hv := (settingsSound_default []).valid
  exact ⟨{ hv.v1 with dhcpEnabled := show (1 : UInt8) ≤ 1 by decide }, hv.fallbackPort,
    hv.ne_mqttPort, hv.ne_p2pPort, hv.ne_http⟩

theorem bindsAlike_savedAddress :
    BindsAlike .good .good .good .good exampleEthernet (poweredOff dhcpExample) :=
  (bindsAlike_iff ⟨rfl, fun _ => rfl⟩ (holds_poweredOff _) settingsValid_dhcpExample rfl
    (by decide)).mpr (Or.inr (Or.inl (by decide)))

/-- With another address from DHCP the build for the W5500 binds to the saved one. -/
theorem binds_savedAddress :
    ¬ BindsAlike .good .good .good .good
      (acquired ⟨str "192.168.127.20", by decide, by decide⟩)
      (poweredOff dhcpExample) := by
  rintro ⟨settings, n, hstart, hloop, -⟩
  have hsaved : (mainStart .good .good
      (acquired ⟨str "192.168.127.20", by decide, by decide⟩)
      (poweredOff dhcpExample)).map (fun r => (mainLoopIteration .good .good false r.2).bindHost) =
        some (some (str "192.168.127.10")) := by decide +kernel
  have hrun : (mainStart .good .good
      (acquired ⟨str "192.168.127.20", by decide, by decide⟩)
      (poweredOff dhcpExample)).map (fun r => r.1.broker.brokerIp.text) =
        some (str "192.168.127.20") := by decide +kernel
  rw [hstart, Option.map_some, Option.some.injEq] at hsaved hrun
  rw [hloop false, hrun] at hsaved
  exact absurd hsaved (by decide)

end MqttFieldBridge.Boot
