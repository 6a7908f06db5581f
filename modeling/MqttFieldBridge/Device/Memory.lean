import MqttFieldBridge.Config.Threads
import MqttFieldBridge.Console.Frame
import MqttFieldBridge.Device.LiveState
import MqttFieldBridge.Lts.Lockstep

/-! # A device that remembers

What the flash is for: a device that is switched off and on again goes on with the settings and peers
it had. Said as a refinement: beside the device stands one that needs no flash, for it remembers the
configuration while it is off, `remembering`. If the flash can be read and written, nobody can tell
the two apart, whatever is typed, requested and switched (`run_remembering`). -/

namespace MqttFieldBridge.Device

open MqttFieldBridge.CLib MqttFieldBridge.Config MqttFieldBridge.Runtime MqttFieldBridge.Console
  MqttFieldBridge.Http MqttFieldBridge.Boot MqttFieldBridge.Lts

/-! ### The two machines -/

/-- What is seen of an event: what a line returns and prints, the response to a request, whether a
reboot is asked for, and the settings that `main` goes on with unless it gives up. -/
inductive Seen where
  | line (rc : Rc) (output : Option Output) (reboot : Bool)
  | request (response : Response) (reboot : Bool)
  | callback (response : Option Response) (reboot : Bool)
  | buttonReset
  | boot (settings : Option FieldBridgeSettings)

/-- A device whose `product_config_init` is `load`, with what is seen of it. -/
def machine (load : World → ConfigState → ConfigState) : Machine DeviceState Event Seen where
  step d
    | .line w text =>
      let r := productConsoleHandleLine w ⟨d.menu, d.http.app⟩ text
      (.line r.rc r.output r.reboot, ⟨r.state.menu, { d.http with app := r.state.app }⟩)
    | .request w chunks =>
      let r := serveOnce w chunks d.http.app
      (.request r.response r.reboot, { d with http.app := r.app })
    | .callback w client status data =>
      let r := zephyrDynamicHandler w client status data d.http
      (.callback r.response r.reboot, { d with http := r.state })
    | .buttonReset w => (.buttonReset, { d with http.app := statusConfigResetPress w d.http.app })
    | .boot w w' eth =>
      let r := mainNetwork w' eth ⟨load w d.config, productRuntimeInit, []⟩
      let a := match r.2 with
        | none => r.1
        | some _ => bridgeControlInit w' r.1
      (.boot r.2, ⟨.main, a, fun _ => .zero⟩)

/-- The device, which keeps nothing but its flash while it is switched off. -/
def device : Machine DeviceState Event Seen :=
  machine fun w c => productConfigInit w.store w.deviceId (powerOn c.store)

/-- A device that keeps its configuration while it is switched off. -/
def remembering : Machine DeviceState Event Seen := machine fun _ c => c

theorem device_step (d : DeviceState) (e : Event) : (device.step d e).2 = e.run d := by
  cases e with
  | line w text => rfl
  | request w chunks => rfl
  | callback w client status data => rfl
  | buttonReset w => rfl
  | boot w w' eth => rfl

/-! ### What is saved -/

/-- A boot that can read the flash finds the live configuration. -/
structure Saved (deviceId : List Byte) (c : ConfigState) : Prop where
  settings : initSettings .good deviceId c.store = c.settings
  peers : ∀ i, loadPeer .good c.store i = c.peers i

variable {env : StoreEnv} {deviceId deviceId' : List Byte} {c : ConfigState} {w w' : World}
  {d d' : DeviceState} {e : Event}

theorem saved_productConfigInit (he : LoadsGood env) :
    Saved deviceId (productConfigInit env deviceId c) := by
  have hstarted : StartedUp deviceId (productConfigInit env deviceId c) := ⟨env, c, he, rfl⟩
  refine ⟨settingsStored_startedUp hstarted ?_, fun i => peerStored_startedUp hstarted⟩
  rw [productConfigInit_settings]
  exact settingsValid_initSettings c.store

/-- The record under a key decides what is loaded from it. -/
theorem loadRecord_of_key {α : Type} {L : Layout α} {st st' : ConfigStore} {key : ℕ}
    (h : st' key = st key) : loadRecord L env st' key = loadRecord L env st key := by
  unfold loadRecord dephyConfigStoreLoad
  rw [h]

theorem initSettings_of_key {st st' : ConfigStore} (h : st' settingsKey = st settingsKey) :
    initSettings env deviceId st' = initSettings env deviceId st := by
  unfold initSettings loadSettings loadLegacySettings
  rw [loadRecord_of_key h, loadRecord_of_key h]

theorem saved_of_stored (h : Stored c) (hv : SettingsValid c.settings) : Saved deviceId c := by
  refine ⟨initSettings_of_holds h.settings hv, fun i => ?_⟩
  unfold loadPeer
  rw [loadRecord_of_holds (h.peers i) rfl]
  rfl

/-- A wipe saves all it sets. -/
theorem saved_persistSaveAll (h : SavesSucceed env) (hv : SettingsValid c.settings) :
    Saved deviceId (persistSaveAll env c).2 := by
  refine saved_of_stored (stored_persistSaveAll h) ?_
  rw [persistSaveAll_live.1]
  exact hv

/-- The operation names a profile that there is. -/
def ProfileKnown : ConfigOp → Prop
  | .applyDefaults profile => profile = profileSmall ∨ profile = profileLarge
  | _ => True

/-- **An operation saves what it sets**, unless it is asked for a profile that there is not. -/
theorem saved_run {op : ConfigOp} (h : SavesSucceed env) (hc : Saved deviceId c)
    (hop : ProfileKnown op) : Saved deviceId (op.run env deviceId' c).2 := by
  cases op with
  | setPeer index peer =>
    by_cases hv : ∃ i, peerIndex index = some i ∧ PeerValid peer
    · obtain ⟨i, hi, hv⟩ := hv
      simp only [ConfigOp.run, productConfigSetPeer_of_valid hi hv, saveRecord_ok (h (peerKey i))]
      refine ⟨?_, fun j => ?_⟩
      · dsimp only
        rw [initSettings_of_key (Function.update_of_ne (peerKey_ne_settingsKey i).symm _ _)]
        exact hc.settings
      · dsimp only
        unfold loadPeer
        by_cases hj : j = i
        · rw [hj, loadRecord_of_holds holds_update rfl, Function.update_self]
          rfl
        · have hkey : peerKey j ≠ peerKey i := fun heq => hj (peerKey_injective heq)
          rw [loadRecord_of_key (Function.update_of_ne hkey _ _), Function.update_of_ne hj]
          exact hc.peers j
    · have hinvalid : ∀ i, peerIndex index = some i → ¬ PeerValid peer := fun i hi hp =>
        hv ⟨i, hi, hp⟩
      simp only [ConfigOp.run, productConfigSetPeer_of_invalid hinvalid]
      exact hc
  | setSettings s =>
    by_cases hv : SettingsValid s
    · simp only [ConfigOp.run, productConfigSetSettings_of_valid hv, saveRecord_ok (h settingsKey)]
      refine ⟨initSettings_of_holds holds_update hv, fun i => ?_⟩
      dsimp only
      unfold loadPeer
      rw [loadRecord_of_key (Function.update_of_ne (peerKey_ne_settingsKey i) _ _)]
      exact hc.peers i
    · simp only [ConfigOp.run, productConfigSetSettings_of_invalid hv]
      exact hc
  | resetAll => exact saved_persistSaveAll h (settingsSound_default deviceId').valid
  | applyDefaults profile =>
    rcases hop with rfl | rfl
    · exact saved_persistSaveAll h (settingsSound_default deviceId').valid
    · exact saved_persistSaveAll h (settingsSound_largeDefault deviceId').valid

/-! ### Nobody asks for a profile that there is not -/

theorem profileKnown_postOp {longBits : ℕ} {path body : Text} {o : ConfigOp}
    (h : postOp longBits path body c = some o) : ProfileKnown o := by
  unfold postOp at h
  split_ifs at h
  · unfold configOp at h
    rcases hn : configCandidate longBits body c.settings with _ | n
    · rw [hn] at h
      cases h
    · rw [hn] at h
      dsimp only at h
      split_ifs at h
      obtain rfl := Option.some.inj h
      trivial
  · obtain ⟨p, -, rfl⟩ := Option.map_eq_some_iff.mp h
    trivial
  · obtain rfl := Option.some.inj h
    trivial

theorem profileKnown_op {o : ConfigOp} (h : e.op d = some o) : ProfileKnown o := by
  cases e with
  | line w text =>
    have hcovers := covers_lineRequest w.longBits d.menu (cstr text)
    simp only [Event.op] at h
    rcases hr : lineRequest w.longBits d.menu (cstr text) <;> rw [hr] at h hcovers
    case settings cmd =>
      obtain rfl := Option.some.inj h
      trivial
    case peer index p =>
      obtain rfl := Option.some.inj h
      trivial
    case defaults profile =>
      obtain rfl := Option.some.inj h
      exact hcovers.2
    case reset =>
      obtain rfl := Option.some.inj h
      trivial
    all_goals cases h
  | request w chunks =>
    simp only [Event.op, requestOp] at h
    split at h
    · cases h
    · split_ifs at h
      exact profileKnown_postOp h
  | callback w client status data =>
    simp only [Event.op, callbackOp] at h
    split_ifs at h
    exact profileKnown_postOp h
  | buttonReset w =>
    obtain rfl := Option.some.inj h
    trivial
  | boot w w' eth => cases h

/-! ### Step and run -/

/-- The flash works: it can be read when the device is switched on, and written then and in any other
event. The device keeps its name. -/
structure Event.FlashWorks (deviceId : List Byte) (e : Event) : Prop where
  saves : SavesSucceed e.world.store
  loads : ∀ w w' eth, e = .boot w w' eth → LoadsGood w.store ∧ w.deviceId = deviceId

/-- What is saved, and what happens to a device that remembers it. -/
structure Remembers (deviceId : List Byte) (d d' : DeviceState) : Prop where
  menu : d'.menu = d.menu
  http : SameZephyr d.http d'.http
  saved : Saved deviceId d.config

theorem saved_afterOp {o : Option ConfigOp} (h : SavesSucceed env) (hc : Saved deviceId c)
    (ho : ∀ op, o = some op → ProfileKnown op) : Saved deviceId (afterOp env deviceId' o c) := by
  cases o with
  | none => exact hc
  | some op => exact saved_run h hc (ho op rfl)

/-- What is live is saved after every event. -/
theorem saved_event (h : e.FlashWorks deviceId) (hd : Saved deviceId d.config) :
    Saved deviceId (e.run d).config := by
  rcases running_or_boot e with hr | ⟨w, w', eth, rfl⟩
  · rw [run_config hr]
    exact saved_afterOp h.saves hd fun op hop => profileKnown_op hop
  · obtain ⟨hloads, rfl⟩ := h.loads w w' eth rfl
    obtain ⟨c0, -, hc⟩ := @powerUp_config w w' eth d.config.store
    rw [show (Event.boot w w' eth).run d = powerUp w w' eth d.config.store from rfl, hc]
    refine saved_afterOp h.saves (saved_productConfigInit hloads) fun op hop => ?_
    obtain ⟨n, -, rfl⟩ := Option.map_eq_some_iff.mp hop
    trivial

/-- **A boot finds what was live.** -/
theorem sameLive_productConfigInit (he : LoadsGood env) (hc : Saved deviceId c) :
    SameLive (productConfigInit env deviceId (powerOn c.store)) c := by
  refine sameLive_iff.mpr ⟨?_, ?_⟩
  · rw [productConfigInit_settings, initSettings_congr he]
    exact hc.settings.symm
  · rw [productConfigInit_peers, initPeers_congr he]
    funext i
    exact (hc.peers i).symm

/-- The step: the two devices show the same, and differ in what is stored only. -/
theorem remembers_step (h : e.FlashWorks deviceId) (hd : Remembers deviceId d d') :
    (remembering.step d' e).1 = (device.step d e).1 ∧
      Remembers deviceId (device.step d e).2 (remembering.step d' e).2 := by
  have hsaved : Saved deviceId (device.step d e).2.config := by
    rw [device_step]
    exact saved_event h hd.saved
  obtain ⟨menu', http'⟩ := d'
  obtain rfl : menu' = d.menu := hd.menu
  have happ : SameButFlash d.http.app http'.app := hd.http.app
  have hz : SameZephyr d.http http' := hd.http
  cases e with
  | line w text =>
    have hline := @productConsoleHandleLine_same w _ _ d.menu h.saves happ text
    refine ⟨?_, hline.menu, ⟨hline.app, hz.buffers⟩, hsaved⟩
    simp only [remembering, device, machine]
    rw [hline.rc, hline.output, hline.reboot]
  | request w chunks =>
    have hrequest := handleRequest_same (w := w) h.saves (cstr (recvLoop w.longBits chunks [])) happ
    refine ⟨?_, rfl, ⟨hrequest.app, hz.buffers⟩, hsaved⟩
    simp only [remembering, device, machine, serveOnce]
    rw [hrequest.response, hrequest.reboot]
  | callback w client status data =>
    have hcall := zephyrDynamicHandler_same (w := w) h.saves client status data hz
    refine ⟨?_, rfl, hcall.state, hsaved⟩
    simp only [remembering, device, machine]
    rw [hcall.response, hcall.reboot]
  | buttonReset w =>
    exact ⟨rfl, rfl, ⟨statusConfigResetPress_same h.saves happ, hz.buffers⟩, hsaved⟩
  | boot w w' eth =>
    obtain ⟨hloads, rfl⟩ := h.loads w w' eth rfl
    have hlive : SameLive (productConfigInit w.store w.deviceId (powerOn d.config.store))
        http'.app.config := by
      have hboot := sameLive_iff.mp (sameLive_productConfigInit hloads hd.saved)
      have hrun := sameLive_iff.mp happ.config
      exact sameLive_iff.mpr ⟨hrun.1.trans hboot.1, hrun.2.trans hboot.2⟩
    obtain ⟨hgoes, hnet⟩ := @mainNetwork_same w'
      ⟨productConfigInit w.store w.deviceId (powerOn d.config.store), productRuntimeInit, []⟩
      ⟨http'.app.config, productRuntimeInit, []⟩ eth h.saves ⟨hlive, rfl, rfl⟩
    refine ⟨congrArg Seen.boot hgoes, rfl, ⟨?_, rfl⟩, hsaved⟩
    simp only [remembering, device, machine, DeviceState.config] at hnet hgoes ⊢
    rw [hgoes]
    split
    · exact hnet
    · exact applyPeers_same hnet

theorem lockstep_remembering :
    Lockstep device remembering (Event.FlashWorks deviceId) (Remembers deviceId) where
  answer _ _ _ h hd := (remembers_step h hd).1
  next _ _ _ h hd := (remembers_step h hd).2

/-- **Nobody can tell a device with a flash that works from one that remembers**, whatever its flash
held when it was first switched on: they show the same in every run, and end it with the same live
state. -/
theorem run_remembering (w w' : World) (eth : Ethernet) (st : ConfigStore) (es : List Event)
    (hloads : LoadsGood w.store) (hsaves : SavesSucceed w'.store)
    (hes : ∀ e ∈ es, e.FlashWorks w.deviceId) :
    let d := powerUp w w' eth st
    (remembering.run es d).1 = (device.run es d).1 ∧
      SameButFlash (device.run es d).2.http.app (remembering.run es d).2.http.app := by
  intro d
  have hd : Saved w.deviceId d.config := by
    obtain ⟨c0, -, hc⟩ := @powerUp_config w w' eth st
    rw [show d = powerUp w w' eth st from rfl, hc]
    refine saved_afterOp hsaves (saved_productConfigInit hloads) fun op hop => ?_
    obtain ⟨n, -, rfl⟩ := Option.map_eq_some_iff.mp hop
    trivial
  obtain ⟨hseen, hend⟩ := lockstep_remembering.run es d d hes
    ⟨rfl, ⟨SameButFlash.refl _, rfl⟩, hd⟩
  exact ⟨hseen, hend.http.app⟩

/-- A peer is set on the console, and after a reboot the peers are asked for. -/
abbrev peerThenReboot : List Event :=
  [.line .good (str "peer 0 node2 10.78.0.23"), .boot .good .good exampleEthernet,
    .request .good [str "GET /peers HTTP/1.0\r\n\r\n"]]

theorem flashWorks_peerThenReboot : ∀ e ∈ peerThenReboot, e.FlashWorks [] := by
  intro e he
  have hgood : SavesSucceed World.good.store := fun _ => rfl
  simp only [peerThenReboot, List.mem_cons, List.not_mem_nil, or_false] at he
  rcases he with rfl | rfl | rfl
  · exact ⟨hgood, nofun⟩
  · refine ⟨hgood, fun w w' eth h => ?_⟩
    obtain ⟨rfl, -, -⟩ := Event.boot.inj h
    exact ⟨⟨rfl, fun _ _ => rfl⟩, rfl⟩
  · exact ⟨hgood, nofun⟩

theorem run_remembering_peerThenReboot :
    (remembering.run peerThenReboot firstBoot).1 = (device.run peerThenReboot firstBoot).1 ∧
      SameButFlash (device.run peerThenReboot firstBoot).2.http.app
        (remembering.run peerThenReboot firstBoot).2.http.app :=
  run_remembering .good .good exampleEthernet .empty peerThenReboot ⟨rfl, fun _ _ => rfl⟩
    (fun _ => rfl) flashWorks_peerThenReboot

end MqttFieldBridge.Device
