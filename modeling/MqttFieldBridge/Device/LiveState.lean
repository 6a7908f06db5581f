import MqttFieldBridge.Config.Again
import MqttFieldBridge.Device.Run
import MqttFieldBridge.Http.Fragments
import MqttFieldBridge.Runtime.Seeds

/-! # The live state

Apart from the loads of a boot, nothing asks what the flash holds: if saves succeed, every request and
every console line gives the same answer on two devices that differ in what is stored only,
`SameButFlash`, and leaves two such devices. -/

namespace MqttFieldBridge.Device

open MqttFieldBridge.CLib MqttFieldBridge.Config MqttFieldBridge.Runtime MqttFieldBridge.Console
  MqttFieldBridge.Http MqttFieldBridge.Boot

/-! ### Configurations that differ in what is stored -/

/-- The configuration with another flash. -/
def reflash (c : ConfigState) (st : ConfigStore) (loaded : Bool) : ConfigState :=
  { c with store := st, settingsLoadedFromStore := loaded }

/-- The live configurations are the same. -/
def SameLive (c c' : ConfigState) : Prop := ∃ st loaded, c' = reflash c st loaded

/-- The devices differ in what is stored only. -/
structure SameButFlash (a a' : App) : Prop where
  config : SameLive a.config a'.config
  runtime : a'.runtime = a.runtime
  seeds : a'.seeds = a.seeds

variable {env : StoreEnv} {deviceId : List Byte} {c c' : ConfigState} {w : World} {a a' : App}

theorem SameLive.refl (c : ConfigState) : SameLive c c := ⟨c.store, c.settingsLoadedFromStore, rfl⟩

theorem sameLive_iff : SameLive c c' ↔ c'.settings = c.settings ∧ c'.peers = c.peers := by
  constructor
  · rintro ⟨st, loaded, rfl⟩
    exact ⟨rfl, rfl⟩
  · rintro ⟨hs, hp⟩
    exact ⟨c'.store, c'.settingsLoadedFromStore, ConfigState.ext hp hs rfl rfl⟩

theorem SameButFlash.refl (a : App) : SameButFlash a a := ⟨SameLive.refl _, rfl, rfl⟩

/-- A call returns the same and leaves the same live configuration. -/
structure SameCall (r r' : Rc × ConfigState) : Prop where
  rc : r'.1 = r.1
  live : SameLive r.2 r'.2

theorem persistSaveAll_same (h : SavesSucceed env) (hc : SameLive c c') :
    SameCall (persistSaveAll env c) (persistSaveAll env c') := by
  have hok : ∀ c, (persistSaveAll env c).1 = .ok := fun c => persistSaveAll_ok h.savesAll
  obtain ⟨hs, hp⟩ := sameLive_iff.mp hc
  obtain ⟨hs1, hp1⟩ := @persistSaveAll_live env c
  obtain ⟨hs2, hp2⟩ := @persistSaveAll_live env c'
  exact ⟨by rw [hok, hok], sameLive_iff.mpr ⟨by rw [hs1, hs2, hs], by rw [hp1, hp2, hp]⟩⟩

/-- **An operation does not ask what is stored.** -/
theorem run_same (h : SavesSucceed env) (hc : SameLive c c') (op : ConfigOp) :
    SameCall (op.run env deviceId c) (op.run env deviceId c') := by
  obtain ⟨st, loaded, rfl⟩ := hc
  cases op with
  | setPeer index peer =>
    by_cases hv : ∃ i, peerIndex index = some i ∧ PeerValid peer
    · obtain ⟨i, hi, hv⟩ := hv
      simp only [ConfigOp.run, productConfigSetPeer_of_valid hi hv]
      exact ⟨rfl, _, _, rfl⟩
    · have hinvalid : ∀ i, peerIndex index = some i → ¬ PeerValid peer := fun i hi hp =>
        hv ⟨i, hi, hp⟩
      simp only [ConfigOp.run, productConfigSetPeer_of_invalid hinvalid]
      exact ⟨rfl, _, _, rfl⟩
  | setSettings s =>
    by_cases hv : SettingsValid s
    · simp only [ConfigOp.run, productConfigSetSettings_of_valid hv]
      exact ⟨rfl, _, _, rfl⟩
    · simp only [ConfigOp.run, productConfigSetSettings_of_invalid hv]
      exact ⟨rfl, _, _, rfl⟩
  | resetAll => exact persistSaveAll_same h ⟨_, _, rfl⟩
  | applyDefaults profile =>
    unfold ConfigOp.run productConfigApplyDefaults
    dsimp only
    split_ifs
    · exact persistSaveAll_same h ⟨_, _, rfl⟩
    · exact persistSaveAll_same h ⟨_, _, rfl⟩
    · exact ⟨rfl, _, _, rfl⟩

/-! ### Requests -/

theorem SameButFlash.eq (h : SameButFlash a a') :
    ∃ st loaded, a' = { a with config := reflash a.config st loaded } := by
  obtain ⟨st, loaded, hc⟩ := h.config
  exact ⟨st, loaded, App.ext hc h.runtime h.seeds⟩

theorem sameButFlash_config (h : SameLive c c') :
    SameButFlash { a with config := c } { a with config := c' } := ⟨h, rfl, rfl⟩

/-- An answer that is the same, and leaves devices that differ in what is stored only. -/
structure SameAnswer (r r' : Answer) : Prop where
  response : r'.response = r.response
  reboot : r'.reboot = r.reboot
  app : SameButFlash r.app r'.app

/-- The end of a route that saves. -/
theorem op_same {r r' : Rc × ConfigState} (error : String) (done : ConfigState → Answer)
    (h : SameCall r r') (hdone : ∀ c c', SameLive c c' → SameAnswer (done c) (done c')) :
    SameAnswer (if r.1 ≠ .ok then badRequest error { a with config := r.2 } else done r.2)
      (if r'.1 ≠ .ok then badRequest error { a with config := r'.2 } else done r'.2) := by
  rw [h.rc]
  split_ifs
  · exact ⟨rfl, rfl, sameButFlash_config h.live⟩
  · exact hdone _ _ h.live

variable {path body : Text}

theorem postConfig_same (h : SavesSucceed w.store) (ha : SameButFlash a a') :
    SameAnswer (postConfig w body a) (postConfig w body a') := by
  obtain ⟨st, loaded, rfl⟩ := ha.eq
  rw [postConfig_eq, postConfig_eq]
  have hcand : configCandidate w.longBits body (reflash a.config st loaded).settings =
      configCandidate w.longBits body a.config.settings := rfl
  dsimp only
  rw [hcand]
  rcases configCandidate w.longBits body a.config.settings with _ | n
  · exact ⟨rfl, rfl, ha⟩
  unfold actConfig
  dsimp only
  by_cases hn : n = a.config.settings
  · rw [if_pos hn, if_pos (show n = (reflash a.config st loaded).settings from hn)]
    exact ⟨rfl, rfl, ha⟩
  · rw [if_neg hn, if_neg (show ¬ n = (reflash a.config st loaded).settings from hn)]
    have hcall := @run_same w.store w.deviceId _ _ h ha.config (.setSettings n)
    exact op_same _ (fun c => ⟨⟨200, .json (rebootRequiredBody true)⟩, { a with config := c }, false⟩)
      hcall fun c c' hc => ⟨rfl, rfl, sameButFlash_config hc⟩

theorem applyPeers_same (ha : SameButFlash a a') :
    SameButFlash (bridgeControlApplyPeers w a).2 (bridgeControlApplyPeers w a').2 := by
  obtain ⟨st, loaded, rfl⟩ := ha.eq
  obtain ⟨hc, hr⟩ := @applyPeers_config w a
  obtain ⟨hc', hr'⟩ := @applyPeers_config w { a with config := reflash a.config st loaded }
  refine ⟨?_, by rw [hr, hr'], ?_⟩
  · rw [hc, hc']
    exact ⟨st, loaded, rfl⟩
  · have hlib : w.Uses ⟨w.p2p.inetPton, w.seedAdd⟩ := ⟨rfl, rfl⟩
    rw [applyPeers_seeds hlib, applyPeers_seeds hlib]
    rfl

theorem postPeer_same {index : ℤ} (h : SavesSucceed w.store) (ha : SameButFlash a a') :
    SameAnswer (postPeer w index body a) (postPeer w index body a') := by
  obtain ⟨st, loaded, rfl⟩ := ha.eq
  unfold postPeer applyPeerJson
  have hget : productConfigGetPeer index (reflash a.config st loaded) =
      productConfigGetPeer index a.config := rfl
  dsimp only
  rw [hget]
  rcases productConfigGetPeer index a.config with _ | p
  · exact ⟨rfl, rfl, ha⟩
  set peer := peerCandidate w.longBits body p
  have hcall := @run_same w.store w.deviceId _ _ h ha.config (.setPeer index peer)
  have hend : ∀ r : Rc × ConfigState,
      (let q : Rc × App := if r.1 ≠ .ok then (.err, { a with config := r.2 })
        else (.ok, (bridgeControlApplyPeers w { a with config := r.2 }).2)
      if q.1 ≠ .ok then badRequest "invalid peer JSON" q.2 else accepted "ok" q.2) =
      if r.1 ≠ .ok then badRequest "invalid peer JSON" { a with config := r.2 }
      else accepted "ok" (bridgeControlApplyPeers w { a with config := r.2 }).2 := by
    intro r
    by_cases hr : r.1 = .ok
    · simp [hr]
    · simp [hr]
  have hsame := op_same (a := a) "invalid peer JSON" (fun c => accepted "ok"
    (bridgeControlApplyPeers w { a with config := c }).2) hcall fun c c' hc =>
      ⟨rfl, rfl, applyPeers_same (sameButFlash_config hc)⟩
  rw [← hend, ← hend] at hsame
  exact hsame

theorem postConfigReset_same (h : SavesSucceed w.store) (ha : SameButFlash a a') :
    SameAnswer (postConfigReset w a) (postConfigReset w a') := by
  obtain ⟨st, loaded, rfl⟩ := ha.eq
  have hcall := @run_same w.store w.deviceId _ _ h ha.config .resetAll
  exact op_same (a := a) "reset failed" (fun c => accepted "reset" { a with config := c }) hcall
    fun c c' hc => ⟨rfl, rfl, sameButFlash_config hc⟩

/-- The routes that do not look at the configuration. -/
theorem postBrokerControl_same (ha : SameButFlash a a') :
    SameAnswer (postBrokerControl w body a) (postBrokerControl w body a') := by
  obtain ⟨st, loaded, rfl⟩ := ha.eq
  unfold postBrokerControl
  rcases jsonGetBoolish w.longBits body (str "enabled") with _ | enabled
  · exact ⟨rfl, rfl, ha⟩
  · dsimp only
    split_ifs
    · exact ⟨rfl, rfl, ⟨st, loaded, rfl⟩, rfl, rfl⟩
    · exact ⟨rfl, rfl, ⟨st, loaded, rfl⟩, rfl, rfl⟩

theorem postPublishTest_same (ha : SameButFlash a a') :
    SameAnswer (postPublishTest w body a) (postPublishTest w body a') := by
  obtain ⟨st, loaded, rfl⟩ := ha.eq
  unfold postPublishTest
  rcases publishCandidate w.longBits body with _ | test
  · exact ⟨rfl, rfl, ha⟩
  · dsimp only
    split_ifs
    · exact ⟨rfl, rfl, ⟨st, loaded, rfl⟩, rfl, rfl⟩
    · exact ⟨rfl, rfl, ⟨st, loaded, rfl⟩, rfl, rfl⟩

theorem postRoute_same (h : SavesSucceed w.store) (ha : SameButFlash a a') :
    SameAnswer (postRoute w path body a) (postRoute w path body a') := by
  unfold postRoute
  split_ifs
  · exact postConfig_same h ha
  · exact postPeer_same h ha
  · exact postBrokerControl_same ha
  · exact postPublishTest_same ha
  · exact postConfigReset_same h ha
  · exact ⟨rfl, rfl, ha⟩
  · exact ⟨rfl, rfl, ha⟩

theorem getRoute_same {cap : ℕ} (ha : SameButFlash a a') :
    (getRoute w cap path a').1 = (getRoute w cap path a).1 ∧
      SameButFlash (getRoute w cap path a).2 (getRoute w cap path a').2 := by
  have hstate : SameButFlash (getRoute w cap path a).2 (getRoute w cap path a').2 := by
    rw [getRoute_state, getRoute_state]
    split_ifs
    · exact ⟨ha.config, by rw [ha.runtime], ha.seeds⟩
    · exact ha
  obtain ⟨st, loaded, rfl⟩ := ha.eq
  refine ⟨?_, hstate⟩
  unfold getRoute
  split_ifs
  · unfold buildStatusJson
    dsimp only [productConfigGetSettings, reflash]
    split
    · rfl
    · rfl
  · rfl
  · rfl
  · rfl
  · rfl

theorem hostGet_same (ha : SameButFlash a a') :
    SameAnswer (hostGet w path a) (hostGet w path a') := by
  rw [hostGet_route, hostGet_route]
  split_ifs
  · exact ⟨rfl, rfl, ha⟩
  rcases getSubject path with _ | subject
  · exact ⟨rfl, rfl, ha⟩
  obtain ⟨hbuilt, hstate⟩ := @getRoute_same w a a' path hostRespBufSize ha
  dsimp only
  rw [hbuilt]
  split_ifs
  · exact ⟨rfl, rfl, hstate⟩
  · exact ⟨rfl, rfl, hstate⟩

theorem handleRequest_same (h : SavesSucceed w.store) (req : Text) (ha : SameButFlash a a') :
    SameAnswer (handleRequest w req a) (handleRequest w req a') := by
  rw [handleRequest_route, handleRequest_route]
  rcases scanRequestLine req with _ | ⟨method, rawPath⟩
  · exact ⟨rfl, rfl, ha⟩
  dsimp only
  split_ifs
  · exact hostGet_same ha
  · have hroute := @postRoute_same w a a' (requestPath rawPath) (requestBody req) h ha
    exact ⟨hroute.response, rfl, hroute.app⟩
  · exact ⟨rfl, rfl, ha⟩

/-- The devices differ in what is stored only, and their buffers are the same. -/
structure SameZephyr (z z' : ZephyrState) : Prop where
  app : SameButFlash z.app z'.app
  buffers : z'.buffers = z.buffers

/-- A call of the firmware's handler that sets the same response. -/
structure SameResult (r r' : ZephyrResult) : Prop where
  response : r'.response = r.response
  reboot : r'.reboot = r.reboot
  state : SameZephyr r.state r'.state

variable {z z' : ZephyrState}

theorem zephyrPost_same {data : List Byte} {i : Fin zephyrHttpBufferSlots}
    (h : SavesSucceed w.store) (hz : SameZephyr z z') :
    SameResult (zephyrPost w path data i z) (zephyrPost w path data i z') := by
  rw [zephyrPost_route, zephyrPost_route, hz.buffers]
  rcases zephyrCopyRequestBody data (z.buffers i).request with _ | request
  · exact ⟨rfl, rfl, hz⟩
  have hroute := @postRoute_same w z.app z'.app path request.text h hz.app
  dsimp only [ZephyrState.respond]
  rw [hroute.response, hroute.reboot, hz.buffers]
  exact ⟨rfl, rfl, hroute.app, rfl⟩

theorem zephyrDynamicHandler_same (h : SavesSucceed w.store) (client : HttpClient)
    (status : HttpTransactionStatus) (data : List Byte) (hz : SameZephyr z z') :
    SameResult (zephyrDynamicHandler w client status data z)
      (zephyrDynamicHandler w client status data z') := by
  cases status with
  | transactionAborted => exact ⟨rfl, rfl, hz.app, by simp [zephyrDynamicHandler, hz.buffers]⟩
  | transactionComplete => exact ⟨rfl, rfl, hz.app, by simp [zephyrDynamicHandler, hz.buffers]⟩
  | requestDataMore => exact ⟨rfl, rfl, hz⟩
  | requestDataFinal =>
    unfold zephyrDynamicHandler
    dsimp only
    by_cases hindex : client.method = .get ∧ (stripQuery (client.urlBuffer.take 127) = str "/" ∨
        stripQuery (client.urlBuffer.take 127) = str "/index.html")
    · rw [if_pos hindex, if_pos hindex]
      exact ⟨rfl, rfl, hz⟩
    rw [if_neg hindex, if_neg hindex, hz.buffers]
    rcases zephyrAcquireBuffers client.id z.buffers with _ | ⟨i, buffers⟩
    · exact ⟨rfl, rfl, hz⟩
    rcases client.method with _ | _ | _
    · obtain ⟨hbuilt, hstate⟩ := @getRoute_same w z.app z'.app
        (stripQuery (client.urlBuffer.take 127)) respBufSize hz.app
      dsimp only
      rw [zephyrGet_route, zephyrGet_route, hbuilt]
      split_ifs
      · exact ⟨rfl, rfl, hstate, rfl⟩
      · exact ⟨rfl, rfl, hstate, rfl⟩
    · exact zephyrPost_same h ⟨hz.app, rfl⟩
    · exact ⟨rfl, rfl, hz.app, rfl⟩

/-! ### Console lines -/

/-- A line that returns and prints the same. -/
structure SameLine (r r' : LineResult) : Prop where
  rc : r'.rc = r.rc
  output : r'.output = r.output
  reboot : r'.reboot = r.reboot
  menu : r'.state.menu = r.state.menu
  app : SameButFlash r.state.app r'.state.app

variable {m : Menu}

theorem saves_same {r r' : Rc × ConfigState} {failed saved : Text} (h : SameCall r r')
    (ha : SameButFlash a a') : SameLine (saves ⟨m, a⟩ r failed saved) (saves ⟨m, a'⟩ r' failed saved) := by
  unfold saves
  dsimp only
  rw [h.rc]
  split_ifs
  · exact ⟨rfl, rfl, rfl, rfl, h.live, ha.runtime, ha.seeds⟩
  · exact ⟨rfl, rfl, rfl, rfl, h.live, ha.runtime, ha.seeds⟩

theorem performSettings_same (h : SavesSucceed w.store) (ha : SameButFlash a a')
    (cmd : SettingsCommand) :
    SameLine (performSettings w ⟨m, a⟩ cmd) (performSettings w ⟨m, a'⟩ cmd) := by
  have hlive := sameLive_iff.mp ha.config
  unfold performSettings productConfigGetSettings
  dsimp only
  rw [hlive.1]
  set s := cmd.edit a.config.settings
  have hcall := @run_same w.store w.deviceId _ _ h ha.config (.setSettings s)
  have hsaves := @saves_same a a' m _ _ cmd.failed (cmd.saved s) hcall ha
  simp only [ConfigOp.run] at hsaves
  rw [hsaves.rc]
  split_ifs
  · exact hsaves
  · refine ⟨rfl, hsaves.output, hsaves.reboot, hsaves.menu, hsaves.app.config, ?_,
      hsaves.app.seeds⟩
    dsimp only
    rw [hsaves.app.runtime]

theorem perform_same (h : SavesSucceed w.store) (ha : SameButFlash a a') (r : Request) :
    SameLine (perform w ⟨m, a⟩ r) (perform w ⟨m, a'⟩ r) := by
  have hlive := sameLive_iff.mp ha.config
  cases r with
  | nothing => exact ⟨rfl, rfl, rfl, rfl, ha⟩
  | menu m => exact ⟨rfl, rfl, rfl, rfl, ha⟩
  | usage u => exact ⟨rfl, rfl, rfl, rfl, ha⟩
  | help => exact ⟨rfl, rfl, rfl, rfl, ha⟩
  | status =>
    unfold perform displays refreshed
    dsimp only
    rw [ha.runtime]
    exact ⟨rfl, rfl, rfl, rfl, ha.config, rfl, ha.seeds⟩
  | summary =>
    unfold perform displays refreshed productConfigGetSettings
    dsimp only
    rw [ha.runtime, hlive.1]
    exact ⟨rfl, rfl, rfl, rfl, ha.config, rfl, ha.seeds⟩
  | showConfig =>
    unfold perform displays productConfigGetSettings
    dsimp only
    rw [hlive.1]
    exact ⟨rfl, rfl, rfl, rfl, ha⟩
  | settings cmd => exact performSettings_same h ha cmd
  | peer index peer =>
    have hget : productConfigGetPeer index a'.config = productConfigGetPeer index a.config := by
      unfold productConfigGetPeer
      rw [hlive.2]
    unfold perform performPeer
    dsimp only
    rw [hget]
    rcases productConfigGetPeer index a.config with _ | p
    · exact ⟨rfl, rfl, rfl, rfl, ha⟩
    · exact saves_same (@run_same w.store w.deviceId _ _ h ha.config (.setPeer index peer)) ha
  | defaults profile =>
    exact saves_same (@run_same w.store w.deviceId _ _ h ha.config (.applyDefaults profile)) ha
  | reset => exact saves_same (@run_same w.store w.deviceId _ _ h ha.config .resetAll) ha
  | reboot => exact ⟨rfl, rfl, rfl, rfl, ha⟩
  | error t => exact ⟨rfl, rfl, rfl, rfl, ha⟩

theorem productConsoleHandleLine_same (h : SavesSucceed w.store) (ha : SameButFlash a a')
    (line : Text) : SameLine (productConsoleHandleLine w ⟨m, a⟩ line)
      (productConsoleHandleLine w ⟨m, a'⟩ line) :=
  perform_same h ha (lineRequest w.longBits m (cstr line))

/-! ### The button, and `main` after the configuration has been loaded -/

theorem statusConfigResetPress_same (h : SavesSucceed w.store) (ha : SameButFlash a a') :
    SameButFlash (statusConfigResetPress w a) (statusConfigResetPress w a') := by
  have hcall := @run_same w.store w.deviceId _ _ h ha.config .resetAll
  simp only [ConfigOp.run] at hcall
  unfold statusConfigResetPress
  dsimp only
  rw [hcall.rc]
  split_ifs
  · exact ⟨hcall.live, ha.runtime, ha.seeds⟩
  · refine ⟨hcall.live, ?_, ha.seeds⟩
    dsimp only
    rw [ha.runtime]

theorem mainNetwork_same {eth : Ethernet} (h : SavesSucceed w.store) (ha : SameButFlash a a') :
    (mainNetwork w eth a').2 = (mainNetwork w eth a).2 ∧
      SameButFlash (mainNetwork w eth a).1 (mainNetwork w eth a').1 := by
  have hlive := sameLive_iff.mp ha.config
  unfold mainNetwork productConfigGetSettings
  dsimp only
  rw [hlive.1, ha.runtime]
  rcases eth.ready with _ | _
  · exact ⟨rfl, ha.config, rfl, ha.seeds⟩
  simp only [Bool.not_true, Bool.false_eq_true, if_false, networkReady_networkStart]
  rcases startBrokerNetwork a.config.settings eth.ip.val with _ | ⟨ip, mode⟩
  · exact ⟨rfl, ha.config, rfl, ha.seeds⟩
  dsimp only
  split_ifs
  · set rs := runtimeSettings a.config.settings ip mode
    have hcall := @run_same w.store w.deviceId _ _ h ha.config
      (.setSettings { rs with broker.brokerEnabled := 1 })
    exact ⟨rfl, hcall.live, rfl, ha.seeds⟩
  · exact ⟨rfl, ha.config, rfl, ha.seeds⟩

end MqttFieldBridge.Device
