import MqttFieldBridge.Boot.Main
import MqttFieldBridge.Config.Invariant
import MqttFieldBridge.Console.Edits
import MqttFieldBridge.Console.Handle
import MqttFieldBridge.Http.Effects
import MqttFieldBridge.Lts.Reach

/-! # Runs of the device

The runs of a device whose store was empty when it was first switched on: console lines, requests to
either handler, button resets and boots, in any order, each with its own world, so that any save may
fail. Every event runs at most one operation on the configuration (`Event.op`), a boot after it has
read the store.

* `runs_sound`: the configuration and every stored record are sound in every state.
* `runs_portsDistinct`: the four ports are distinct as long as nobody asks otherwise. -/

namespace MqttFieldBridge.Device

open MqttFieldBridge.CLib MqttFieldBridge.Config MqttFieldBridge.Runtime MqttFieldBridge.Console
  MqttFieldBridge.Http MqttFieldBridge.Boot MqttFieldBridge.Lts

/-- The state of the device: the console's menu, the application and the buffer slots. -/
structure DeviceState where
  menu : Menu
  http : ZephyrState

def DeviceState.config (d : DeviceState) : ConfigState := d.http.app.config

/-- What happens to a device. The loads and the write-back of a boot may find the store in different
moods. -/
inductive Event where
  | line (w : World) (text : Text)
  | request (w : World) (chunks : List (List Byte))
  | callback (w : World) (client : HttpClient) (status : HttpTransactionStatus) (data : List Byte)
  | buttonReset (w : World)
  | boot (w w' : World) (eth : Ethernet)

/-- `status_config_reset_press` of `main.c`. -/
def statusConfigResetPress (w : World) (a : App) : App :=
  let r := productConfigResetAll w.store w.deviceId a.config
  let a := { a with config := r.2 }
  if r.1 ≠ .ok then a
  else { a with runtime := (productRuntimeSetBrokerEnabled 0 a.runtime).2 }

/-- The device after it has been switched on with the store `st`. -/
def powerUp (w w' : World) (eth : Ethernet) (st : ConfigStore) : DeviceState :=
  ⟨.main, mainBoot w w' eth ⟨powerOn st, productRuntimeInit, []⟩, fun _ => .zero⟩

def Event.run (d : DeviceState) : Event → DeviceState
  | .line w text =>
    let r := productConsoleHandleLine w ⟨d.menu, d.http.app⟩ text
    ⟨r.state.menu, { d.http with app := r.state.app }⟩
  | .request w chunks => { d with http.app := (serveOnce w chunks d.http.app).app }
  | .callback w client status data =>
    { d with http := (zephyrDynamicHandler w client status data d.http).state }
  | .buttonReset w => { d with http.app := statusConfigResetPress w d.http.app }
  | .boot w w' eth => powerUp w w' eth d.config.store

/-- The device, switched on for the first time. -/
def runs : System DeviceState Event where
  init d := ∃ w w' eth, d = powerUp w w' eth .empty
  step d e d' := d' = e.run d

/-! ### The operation of an event -/

/-- The operation that an event runs, unless it is a boot. -/
def Event.op (d : DeviceState) : Event → Option ConfigOp
  | .line w text => (lineRequest w.longBits d.menu (cstr text)).configOp d.config.settings
  | .request w chunks => requestOp w.longBits (cstr (recvLoop w.longBits chunks [])) d.config
  | .callback w client status data => callbackOp w.longBits client status data d.http
  | .buttonReset _ => some .resetAll
  | .boot _ _ _ => none

/-- The world in which an event saves. -/
def Event.world : Event → World
  | .line w _ => w
  | .request w _ => w
  | .callback w _ _ _ => w
  | .buttonReset w => w
  | .boot _ w' _ => w'

/-- An event is not a boot. -/
def Event.Running : Event → Prop
  | .boot _ _ _ => False
  | _ => True

variable {d : DeviceState} {e : Event}

theorem running_or_boot (e : Event) : e.Running ∨ ∃ w w' eth, e = .boot w w' eth := by
  cases e with
  | boot w w' eth => exact Or.inr ⟨w, w', eth, rfl⟩
  | line w text => exact Or.inl trivial
  | request w chunks => exact Or.inl trivial
  | callback w client status data => exact Or.inl trivial
  | buttonReset w => exact Or.inl trivial

theorem run_config (h : e.Running) : (e.run d).config =
    afterOp e.world.store e.world.deviceId (e.op d) d.config := by
  cases e with
  | line w text => exact perform_config
  | request w chunks => exact handleRequest_config
  | callback w client status data => exact zephyrDynamicHandler_config
  | buttonReset w =>
    unfold Event.run statusConfigResetPress
    dsimp only
    split_ifs
    · rfl
    · rfl
  | boot w w' eth => exact absurd h id

theorem powerUp_config {w w' : World} {eth : Ethernet} {st : ConfigStore} :
    ∃ c0 : ConfigState, c0.store = st ∧ (powerUp w w' eth st).config =
      afterOp w'.store w'.deviceId
        ((writeBack eth (productConfigInit w.store w.deviceId c0).settings).map .setSettings)
        (productConfigInit w.store w.deviceId c0) :=
  ⟨powerOn st, rfl, mainBoot_config⟩

/-! ### What a run keeps -/

section Keeps

variable {P : FieldBridgeSettings → Prop} {Q : FieldBridgePeer → Prop}

/-- What `main` writes back has the property if the settings it starts with have it. -/
def WriteBackKept (P : FieldBridgeSettings → Prop) : Prop :=
  ∀ eth s n, P s → writeBack eth s = some n → SettingsValid n → P n

/-- The same of the boots with this Ethernet. -/
def WriteBackKeeps (P : FieldBridgeSettings → Prop) (eth : Ethernet) : Prop :=
  ∀ s n, P s → writeBack eth s = some n → SettingsValid n → P n

theorem keeps_powerUp_at (hd : DefaultsKept P Q) {w w' : World} {eth : Ethernet} {st : ConfigStore}
    (hw : WriteBackKeeps P eth) (h : StoreKeeps P Q st) :
    Keeps P Q (powerUp w w' eth st).config := by
  obtain ⟨c0, rfl, hc⟩ := @powerUp_config w w' eth st
  have hinit : Keeps P Q (productConfigInit w.store w.deviceId c0) := keeps_init hd h
  rw [hc]
  refine hinit.afterOp hd fun o ho => ?_
  obtain ⟨n, hn, rfl⟩ := Option.map_eq_some_iff.mp ho
  exact hw _ n hinit.settings hn

/-- The step: an event keeps what the operation it asks for keeps. -/
theorem keeps_run_at (hd : DefaultsKept P Q)
    (hw : ∀ w w' eth, e = .boot w w' eth → WriteBackKeeps P eth) (h : Keeps P Q d.config)
    (ha : ∀ o, e.op d = some o → Admits P Q o) : Keeps P Q (e.run d).config := by
  rcases running_or_boot e with hr | ⟨w, w', eth, rfl⟩
  · rw [run_config hr]
    exact h.afterOp hd ha
  · exact keeps_powerUp_at hd (hw w w' eth rfl) h.stored

theorem keeps_powerUp (hd : DefaultsKept P Q) (hw : WriteBackKept P) {w w' : World}
    {eth : Ethernet} {st : ConfigStore} (h : StoreKeeps P Q st) :
    Keeps P Q (powerUp w w' eth st).config := keeps_powerUp_at hd (hw eth) h

theorem keeps_run (hd : DefaultsKept P Q) (hw : WriteBackKept P) (h : Keeps P Q d.config)
    (ha : ∀ o, e.op d = some o → Admits P Q o) : Keeps P Q (e.run d).config :=
  keeps_run_at hd (fun _ _ eth _ => hw eth) h ha

end Keeps

/-! ### Sound records -/

theorem defaultsKept_sound : DefaultsKept SettingsSound PeerSound :=
  ⟨settingsSound_default, settingsSound_largeDefault, peerSound_zero⟩

theorem writeBackKept_sound : WriteBackKept SettingsSound := by
  intro eth s n hs hn hv
  obtain ⟨ip, mode, rfl⟩ := writeBack_eq_some hn
  exact ⟨hv, { settingsTerminated_runtimeSettings hs.terminated with }⟩

/-- What is asked to be stored is terminated. -/
def Terminates : ConfigOp → Prop
  | .setPeer _ peer => PeerTerminated peer
  | .setSettings newSettings => SettingsTerminated newSettings
  | .resetAll | .applyDefaults _ => True

theorem admits_of_terminates {o : ConfigOp} (h : Terminates o) :
    Admits SettingsSound PeerSound o := by
  cases o with
  | setPeer index peer => exact fun hv => ⟨hv, h⟩
  | setSettings newSettings => exact fun hv => ⟨hv, h⟩
  | resetAll => exact trivial
  | applyDefaults profile => exact trivial

theorem terminates_configOp {longBits : ℕ} {m : Menu} {line : Text} {s : FieldBridgeSettings}
    {o : ConfigOp} (hs : SettingsTerminated s)
    (h : (lineRequest longBits m line).configOp s = some o) : Terminates o := by
  have ht := terminates_lineRequest longBits m line
  rcases hr : lineRequest longBits m line <;> rw [hr] at h ht
  case settings cmd =>
    obtain rfl := Option.some.inj h
    exact ht s hs
  case peer index p =>
    obtain rfl := Option.some.inj h
    exact ht
  case defaults profile =>
    obtain rfl := Option.some.inj h
    trivial
  case reset =>
    obtain rfl := Option.some.inj h
    trivial
  all_goals cases h

theorem terminates_postOp {longBits : ℕ} {path body : Text} {c : ConfigState} {o : ConfigOp}
    (hc : ConfigSound c) (h : postOp longBits path body c = some o) : Terminates o := by
  unfold postOp at h
  split_ifs at h
  · unfold configOp at h
    rcases hn : configCandidate longBits body c.settings with _ | n
    · rw [hn] at h
      cases h
    · rw [hn] at h
      dsimp only at h
      split_ifs at h
      obtain rfl := Option.some.inj h
      obtain ⟨-, -, rfl⟩ := configCandidate_eq_some.mp hn
      exact settingsTerminated_newSettings hc.settings.terminated
  · obtain ⟨p, hp, rfl⟩ := Option.map_eq_some_iff.mp h
    obtain ⟨i, -, rfl⟩ := Option.map_eq_some_iff.mp hp
    exact peerTerminated_peerCandidate (hc.peers i).terminated
  · obtain rfl := Option.some.inj h
    trivial

theorem terminates_op {o : ConfigOp} (hc : ConfigSound d.config) (h : e.op d = some o) :
    Terminates o := by
  cases e with
  | line w text => exact terminates_configOp hc.settings.terminated h
  | request w chunks =>
    simp only [Event.op, requestOp] at h
    split at h
    · cases h
    · split_ifs at h
      exact terminates_postOp hc h
  | callback w client status data =>
    simp only [Event.op, callbackOp] at h
    split_ifs at h
    exact terminates_postOp hc h
  | buttonReset w =>
    obtain rfl := Option.some.inj h
    trivial
  | boot w w' eth => cases h

/-- **In every state of every run the configuration is sound, and so is every stored record.** -/
theorem runs_sound (h : runs.Reachable d) :
    ConfigSound d.config ∧ StoreKeeps SettingsSound PeerSound d.config.store := by
  have hk : Keeps SettingsSound PeerSound d.config := by
    refine h.invariant (I := fun d => Keeps SettingsSound PeerSound d.config) ?_ ?_
    · rintro d ⟨w, w', eth, rfl⟩
      exact keeps_powerUp defaultsKept_sound writeBackKept_sound storeKeeps_empty
    · rintro d e d' hk rfl
      exact keeps_run defaultsKept_sound writeBackKept_sound hk fun o ho =>
        admits_of_terminates (terminates_op ⟨hk.settings, hk.peers⟩ ho)
  exact ⟨⟨hk.settings, hk.peers⟩, hk.stored⟩

/-- The device when it is first switched on, in a world where nothing fails. -/
def firstBoot : DeviceState :=
  powerUp .good .good exampleEthernet .empty

theorem reachable_firstBoot : runs.Reachable firstBoot := .init ⟨_, _, _, rfl⟩

/-- A peer is set on the console, but its save fails. -/
theorem runs_sound_failedSave :
    let w := { World.good with store := { StoreEnv.good with save := fun _ => .err } }
    let d := Event.run firstBoot (.line w (str "peer 0 node2 10.78.0.23"))
    ConfigSound d.config ∧ StoreKeeps SettingsSound PeerSound d.config.store :=
  runs_sound (reachable_firstBoot.step rfl)

/-! ### Distinct ports -/

abbrev provisioningHttpPort : UInt16 := 8080

/-- No two of the four local listeners share a port. -/
def PortsDistinct (s : FieldBridgeSettings) : Prop :=
  [s.broker.mqttPort, s.broker.fallbackPort, s.broker.p2pPort, provisioningHttpPort].Nodup

instance (s : FieldBridgeSettings) : Decidable (PortsDistinct s) := by
  unfold PortsDistinct; infer_instance

/-- The pairs that `validate_settings` does not look at. -/
structure PortsApart (s : FieldBridgeSettings) : Prop where
  mqtt_p2p : s.broker.mqttPort ≠ s.broker.p2pPort
  mqtt_http : s.broker.mqttPort ≠ provisioningHttpPort
  p2p_http : s.broker.p2pPort ≠ provisioningHttpPort

/-- The checks exclude the other pairs. -/
theorem portsDistinct_iff {s : FieldBridgeSettings} (hv : SettingsValid s) :
    PortsDistinct s ↔ PortsApart s := by
  have h1 := hv.ne_mqttPort
  have h2 := hv.ne_p2pPort
  have h3 := hv.ne_http
  constructor
  · intro h
    simp only [PortsDistinct, List.nodup_cons, List.mem_cons, not_or] at h
    exact ⟨h.1.2.1, h.1.2.2.1, h.2.2.1.1⟩
  · rintro ⟨hmp, hmh, hph⟩
    simp only [PortsDistinct, List.nodup_cons, List.mem_cons, not_or, List.not_mem_nil,
      not_false_eq_true, and_true, List.nodup_nil]
    exact ⟨⟨h1.symm, hmp, hmh⟩, ⟨h2, h3⟩, hph⟩

/-- If an event asks for settings that pass the checks, their other ports are distinct too. -/
def RequestsApart (d : DeviceState) (e : Event) : Prop :=
  ∀ n, e.op d = some (.setSettings n) → SettingsValid n → PortsApart n

/-- Settings that are sound and whose ports are distinct. -/
structure SettingsApart (s : FieldBridgeSettings) : Prop where
  sound : SettingsSound s
  apart : PortsApart s

theorem portsApart_of_ports {s : FieldBridgeSettings} (hm : s.broker.mqttPort = 1883)
    (hp : s.broker.p2pPort = 4884) : PortsApart s := by
  refine ⟨?_, ?_, ?_⟩
  · rw [hm, hp]
    decide
  · rw [hm]
    decide
  · rw [hp]
    decide

theorem defaultSettings_ports (deviceId : List Byte) :
    (defaultSettings deviceId).broker.mqttPort = 1883 ∧
      (defaultSettings deviceId).broker.p2pPort = 4884 := by
  unfold defaultSettings settingsDefaults settingsDefaultsAssigns
  rcases knownBoardIp deviceId with _ | ip
  · exact ⟨rfl, rfl⟩
  · exact ⟨rfl, rfl⟩

theorem portsApart_default (deviceId : List Byte) : PortsApart (defaultSettings deviceId) :=
  portsApart_of_ports (defaultSettings_ports deviceId).1 (defaultSettings_ports deviceId).2

/-- The large profile has the ports of the small one. -/
theorem portsApart_largeDefault (deviceId : List Byte) :
    PortsApart (largeDefaultSettings deviceId) := by
  have hl : largeDefaultSettings deviceId = runAssigns largeAssigns (defaultSettings deviceId) :=
    runAssigns_append _ _ _
  rw [hl]
  exact { portsApart_default deviceId with }

theorem defaultsKept_apart : DefaultsKept SettingsApart PeerSound :=
  ⟨fun deviceId => ⟨settingsSound_default deviceId, portsApart_default deviceId⟩,
    fun deviceId => ⟨settingsSound_largeDefault deviceId, portsApart_largeDefault deviceId⟩,
    peerSound_zero⟩

/-- The overlay of `main` leaves the ports alone. -/
theorem writeBackKept_apart : WriteBackKept SettingsApart := by
  intro eth s n hs hn hv
  refine ⟨writeBackKept_sound eth s n hs.sound hn hv, ?_⟩
  obtain ⟨ip, mode, rfl⟩ := writeBack_eq_some hn
  obtain ⟨deviceIp, brokerIp, dhcpEnabled, heq, -, -⟩ := @runtimeSettings_fields s ip mode
  rw [heq]
  exact ⟨hs.apart.mqtt_p2p, hs.apart.mqtt_http, hs.apart.p2p_http⟩

theorem admits_apart {o : ConfigOp} (ht : Terminates o)
    (ha : ∀ n, o = .setSettings n → SettingsValid n → PortsApart n) :
    Admits SettingsApart PeerSound o := by
  cases o with
  | setPeer index peer => exact fun hv => ⟨hv, ht⟩
  | setSettings newSettings => exact fun hv => ⟨⟨hv, ht⟩, ha newSettings rfl hv⟩
  | resetAll => exact trivial
  | applyDefaults profile => exact trivial

/-- A request for settings that pass the checks is granted, whether it can be saved or not. -/
theorem run_settings {n : FieldBridgeSettings} (ho : e.op d = some (.setSettings n))
    (hv : SettingsValid n) : (e.run d).config.settings = n := by
  have hr : e.Running := by
    rcases running_or_boot e with hr | ⟨w, w', eth, rfl⟩
    · exact hr
    · cases ho
  rw [run_config hr, ho]
  have hset : ConfigOp.run e.world.store e.world.deviceId (.setSettings n) d.config =
      productConfigSetSettings e.world.store n d.config := rfl
  rw [afterOp, hset, productConfigSetSettings_of_valid hv]

/-- **The ports are distinct in every run that never asks otherwise**, and a step that does ask
otherwise leaves ports that are not. -/
theorem runs_portsDistinct :
    ((runs.restrict RequestsApart).Reachable d → PortsDistinct d.config.settings) ∧
      (¬ RequestsApart d e → ¬ PortsDistinct (e.run d).config.settings) := by
  constructor
  · intro h
    have hk : Keeps SettingsApart PeerSound d.config := by
      refine h.invariant (I := fun d => Keeps SettingsApart PeerSound d.config) ?_ ?_
      · rintro d ⟨w, w', eth, rfl⟩
        exact keeps_powerUp defaultsKept_apart writeBackKept_apart storeKeeps_empty
      · rintro d e d' hk ⟨ha, rfl⟩
        refine keeps_run defaultsKept_apart writeBackKept_apart hk fun o ho => ?_
        exact admits_apart (terminates_op ⟨hk.settings.sound, hk.peers⟩ ho) fun n hn =>
          ha n (hn ▸ ho)
    exact (portsDistinct_iff hk.settings.sound.valid).mpr hk.settings.apart
  · intro h hp
    refine h fun n ho hv => ?_
    rw [run_settings ho hv] at hp
    exact (portsDistinct_iff hv).mp hp

/-- The console moves the bridge to the broker's port. -/
abbrev sharePort : Event := .line .good (str "bridge-port 1883")

theorem runs_portsDistinct_firstBoot : PortsDistinct firstBoot.config.settings ∧
    ¬ PortsDistinct (sharePort.run firstBoot).config.settings := by
  obtain ⟨hfirst, hshare⟩ := @runs_portsDistinct firstBoot sharePort
  refine ⟨hfirst (.init ⟨_, _, _, rfl⟩), hshare fun h => ?_⟩
  exact absurd (h _ rfl (by decide)).mqtt_p2p (by decide)

/-- The port is accepted while the broker listens on it. -/
theorem bridgePort_shared : ∃ d, runs.Reachable d ∧ ¬ PortsDistinct d.config.settings :=
  ⟨_, reachable_firstBoot.step (a := sharePort) rfl, by decide⟩

end MqttFieldBridge.Device
