import MqttFieldBridge.Device.BrokerLoop
import MqttFieldBridge.Device.Run
import MqttFieldBridge.Http.Faithful

/-! # The answers along a run

In every state of every run the answers are faithful if and only if no string that came from outside
needs an escape. So they are faithful in every run that takes in no other strings (`runs_faithful`). A
line can store a quote, though (`peerName_unfaithful`). -/

namespace MqttFieldBridge.Device

open MqttFieldBridge.CLib MqttFieldBridge.Config MqttFieldBridge.Runtime MqttFieldBridge.Console
  MqttFieldBridge.Http MqttFieldBridge.Boot MqttFieldBridge.Lts MqttFieldBridge.Json

/-- What an event takes in needs no escape: what it stores, and the address that a boot acquires. -/
structure TakesPlain (d : DeviceState) (e : Event) : Prop where
  op : ∀ o, e.op d = some o → Admits PlainSettings PlainPeer o
  address : ∀ w w' eth, e = .boot w w' eth → PlainText eth.ip.val

/-- The runs that take in such strings only. -/
def plainRuns : System DeviceState Event where
  init d := ∃ w w' eth, PlainText eth.ip.val ∧ d = powerUp w w' eth .empty
  step d e d' := TakesPlain d e ∧ d' = e.run d

/-! ### What an event does to the runtime -/

section Changes

variable {d : DeviceState} {e : Event}

/-- The one command that touches the runtime sets the broker's state. -/
theorem change_after {longBits : ℕ} {m : Menu} {line : Text} {cmd : SettingsCommand}
    (h : lineRequest longBits m line = .settings cmd) (r : RuntimeState) :
    RuntimeChange r (cmd.after r) := by
  by_cases hword : (nextToken line).1 = some (str "broker-state")
  · have hline : nextToken line = (some (str "broker-state"), (nextToken line).2) := by rw [← hword]
    rw [lineRequest_brokerState hline] at h
    unfold cmdBrokerState at h
    split at h
    · cases h
    · dsimp only at h
      split_ifs at h
      · obtain rfl := Request.settings.inj h
        exact .enabled 1
      · obtain rfl := Request.settings.inj h
        exact .none
  · have hquiet := @quiet_lineRequest longBits m line hword
    rw [h] at hquiet
    exact change_of_eq (congrFun hquiet r)

theorem change_handleLine (w : World) (k : ConsoleState) (text : Text) :
    RuntimeChange k.app.runtime (productConsoleHandleLine w k text).state.app.runtime := by
  unfold productConsoleHandleLine
  generalize hr : lineRequest w.longBits k.menu (cstr text) = r
  cases r with
  | settings cmd =>
    show RuntimeChange _ (performSettings w k cmd).state.app.runtime
    rcases @performSettings_runtime w k cmd with ⟨-, hrun⟩ | ⟨-, hrun⟩
    · exact change_of_eq hrun
    · rw [hrun]
      exact change_after hr _
  | status => exact .status w.p2p
  | summary => exact .status w.p2p
  | peer index p =>
    show RuntimeChange _ (performPeer w k index p).state.app.runtime
    unfold performPeer
    split
    · exact .none
    · exact change_of_eq saves_runtime
  | defaults profile => exact change_of_eq saves_runtime
  | reset => exact change_of_eq saves_runtime
  | _ => exact .none

theorem applyPeerJson_runtime (w : World) (index : ℤ) (body : Text) (a : App) :
    (applyPeerJson w index body a).2.runtime = a.runtime := by
  unfold applyPeerJson
  split
  · rfl
  · dsimp only
    split_ifs
    · rfl
    · exact applyPeers_config.2

theorem change_postRoute (w : World) (path body : Text) (a : App) :
    RuntimeChange a.runtime (postRoute w path body a).app.runtime := by
  unfold postRoute
  split_ifs
  · rw [postConfig_app]
    exact .none
  · rw [postPeer_app]
    exact change_of_eq (applyPeerJson_runtime w _ body a)
  · obtain ⟨runtime, hchange, happ⟩ := @postBrokerControl_app w body a
    rw [happ]
    exact hchange
  · obtain ⟨runtime, hchange, happ⟩ := @postPublishTest_app w body a
    rw [happ]
    exact hchange
  · rw [postConfigReset_app]
    exact .none
  · exact .none
  · exact .none

theorem change_getRoute (w : World) (cap : ℕ) (path : Text) (a : App) :
    RuntimeChange a.runtime (getRoute w cap path a).2.runtime := by
  rw [getRoute_state]
  split_ifs
  · exact .status w.p2p
  · exact .none

theorem change_handleRequest (w : World) (req : Text) (a : App) :
    RuntimeChange a.runtime (handleRequest w req a).app.runtime := by
  rcases handleRequest_cases w req a with ⟨rawPath, -, h⟩ | ⟨-, h | ⟨path, h⟩⟩
  · rw [h]
    exact change_postRoute w _ _ a
  · rw [h]
    exact .none
  · rw [h]
    exact change_getRoute w _ path a

theorem change_zephyrDynamicHandler (w : World) (client : HttpClient) (status : HttpTransactionStatus)
    (data : List Byte) (z : ZephyrState) :
    RuntimeChange z.app.runtime (zephyrDynamicHandler w client status data z).state.app.runtime := by
  rcases zephyrDynamicHandler_cases w client status data z with ⟨-, h, -⟩ | ⟨-, h | h⟩
  · rw [h]
    exact change_postRoute w _ _ z.app
  · rw [h]
    exact .none
  · rw [h]
    exact change_getRoute w _ _ z.app

theorem change_run (hr : e.Running) :
    RuntimeChange d.http.app.runtime (e.run d).http.app.runtime := by
  cases e with
  | line w text => exact change_handleLine w ⟨d.menu, d.http.app⟩ text
  | request w chunks => exact change_handleRequest w _ d.http.app
  | callback w client status data => exact change_zephyrDynamicHandler w client status data d.http
  | buttonReset w =>
    show RuntimeChange _ (statusConfigResetPress w d.http.app).runtime
    unfold statusConfigResetPress
    dsimp only
    split_ifs
    · exact .none
    · exact .enabled 0
  | boot w w' eth => exact hr.elim

end Changes

/-! ### The strings of the runtime status -/

section Status

variable {r r' : RuntimeState}

/-- A copy of a text of the program. -/
theorem plain_copyStr {n : ℕ} {t : Text} (h : PrintableAscii t) :
    PlainText (copyStr t : CStr (n + 1)).val := by
  refine PrintableAscii.plain fun b hb => h b ?_
  exact (List.takeWhile_prefix _).subset (List.mem_of_mem_take hb)

theorem plainStatus_setBrokerEnabled {v : UInt8} (h : PlainStatus r.runtimeStatus) :
    PlainStatus (productRuntimeSetBrokerEnabled v r).2.runtimeStatus := by
  unfold productRuntimeSetBrokerEnabled
  split_ifs
  · exact h
  · exact { h with brokerState := plain_copyStr (by decide) }
  · exact { h with brokerState := plain_copyStr (by decide) }

theorem ipAddr_setBrokerEnabled {v : UInt8} :
    (productRuntimeSetBrokerEnabled v r).2.runtimeStatus.ipAddr = r.runtimeStatus.ipAddr := by
  unfold productRuntimeSetBrokerEnabled
  split_ifs
  · rfl
  · rfl
  · rfl

theorem recordPublishTest_status {test : FieldBridgePublishTest} :
    (productRuntimeRecordPublishTest test r).2.runtimeStatus = r.runtimeStatus := by
  unfold productRuntimeRecordPublishTest
  split_ifs
  · rfl
  · rfl

/-- No change puts another string into the status than one of the program. -/
theorem plainStatus_change (hc : RuntimeChange r r') (h : PlainStatus r.runtimeStatus) :
    PlainStatus r'.runtimeStatus := by
  cases hc with
  | none => exact h
  | enabled v => exact plainStatus_setBrokerEnabled h
  | status p2p => exact plainStatus_getStatus h
  | publish test =>
    rw [recordPublishTest_status]
    exact h

/-- The address changes at a boot only. -/
theorem ipAddr_change (hc : RuntimeChange r r') :
    r'.runtimeStatus.ipAddr = r.runtimeStatus.ipAddr := by
  cases hc with
  | none => rfl
  | enabled v => exact ipAddr_setBrokerEnabled
  | status p2p => exact ipAddr_getStatus
  | publish test => rw [recordPublishTest_status]

theorem plainStatus_init : PlainStatus productRuntimeInit.runtimeStatus where
  networkState := plain_copyStr (by decide)
  brokerState := plain_copyStr (by decide)
  p2pRole := plain_copyStr (by decide)
  lastError := PrintableAscii.plain (by decide)

theorem plainStatus_brokerFailed {error : Text} (he : PrintableAscii error)
    (h : PlainStatus r.runtimeStatus) :
    PlainStatus (productRuntimeBrokerFailed error r).runtimeStatus :=
  { h with brokerState := plain_copyStr (by decide), lastError := plain_copyStr he }

theorem plainStatus_networkStart {s : FieldBridgeSettings} (h : PlainStatus r.runtimeStatus) :
    PlainStatus (productRuntimeNetworkStart s r).runtimeStatus := by
  refine { h with
    networkState := plain_copyStr ?_
    lastError := PrintableAscii.plain (List.forall_mem_nil _) }
  split_ifs
  · decide
  · decide

end Status

/-! ### The strings at a boot -/

section Boots

variable {w w' : World} {eth : Ethernet} {st : ConfigStore} {s : FieldBridgeSettings}

/-- Sound settings whose strings need no escape. -/
structure SettingsClean (s : FieldBridgeSettings) : Prop where
  sound : SettingsSound s
  plain : PlainSettings s

/-- A sound peer whose strings need no escape. -/
structure PeerClean (p : FieldBridgePeer) : Prop where
  sound : PeerSound p
  plain : PlainPeer p

theorem ascii_assigns : ∀ ip ∈ none :: knownBoards.map (some ·.2),
    (∀ t ∈ settingsTexts (runAssigns
      (settingsDefaultsHead ++ applyKnownEsp32DefaultIp ip ++ settingsDefaultsTail) .zero),
        PrintableAscii t) ∧
    ∀ t ∈ settingsTexts (runAssigns (settingsDefaultsHead ++ applyKnownEsp32DefaultIp ip ++
      settingsDefaultsTail ++ largeAssigns) .zero), PrintableAscii t := by
  decide

theorem defaultsKept_clean : DefaultsKept SettingsClean PeerClean where
  default deviceId := ⟨settingsSound_default deviceId, fun t ht =>
    ((ascii_assigns _ (knownBoardIp_mem deviceId)).1 t ht).plain⟩
  large deviceId := ⟨settingsSound_largeDefault deviceId, fun t ht =>
    ((ascii_assigns _ (knownBoardIp_mem deviceId)).2 t ht).plain⟩
  zero := ⟨peerSound_zero, PrintableAscii.plain (by decide),
    PrintableAscii.plain (by decide)⟩

/-- The overlay of such an address. -/
theorem plainSettings_runtimeSettings {mode : UInt8} (h : PlainSettings s)
    (hip : PlainText eth.ip.val) : PlainSettings (runtimeSettings s eth.ip.val mode) := by
  have hprint : ∀ {a a' : CharArray fieldBridgeHostMax}, a' = a ∨ a' = a.snprintf eth.ip.val →
      PlainText a.text → PlainText a'.text := by
    rintro a a' (rfl | rfl) ha
    · exact ha
    · rw [CharArray.text_snprintf eth.ip.notMem eth.ip.length_lt]
      exact hip
  obtain ⟨deviceIp, brokerIp, dhcpEnabled, heq, hdevice, hbroker⟩ :=
    runtimeSettings_prints s eth.ip.val mode
  rw [heq]
  simp only [PlainSettings, settingsTexts, List.forall_mem_cons] at h ⊢
  obtain ⟨hname, hip, hgateway, hnetmask, hdns, hbip, hsite, hprefix, -⟩ := h
  exact ⟨hname, hprint hdevice hip, hgateway, hnetmask, hdns, hprint hbroker hbip, hsite, hprefix,
    List.forall_mem_nil _⟩

theorem writeBackKeeps_clean (hip : PlainText eth.ip.val) : WriteBackKeeps SettingsClean eth := by
  intro s n hs hn hv
  refine ⟨writeBackKept_sound eth s n hs.sound hn hv, ?_⟩
  obtain ⟨mode, rfl⟩ := writeBack_overlay hn
  exact plainSettings_runtimeSettings hs.plain hip

theorem plainStatus_powerUp :
    PlainStatus (powerUp w w' eth st).http.app.runtime.runtimeStatus := by
  have herrors : ∀ error ∈ [str "UART provisioning required", str "network start failed"],
      PrintableAscii error := by decide
  show PlainStatus (mainBoot w w' eth _).runtime.runtimeStatus
  rw [mainBoot_runtime]
  rcases mainNetwork_runtime with ⟨error, he, h⟩ | ⟨mode, h⟩
  · rw [h]
    exact plainStatus_brokerFailed (herrors error he) plainStatus_init
  · rw [h]
    exact plainStatus_networkStart plainStatus_init

/-- The address that is shown is the one printed into the settings, or all zeros. -/
theorem plain_ipAddr_powerUp (hip : PlainText eth.ip.val) (h : StoreKeeps SettingsClean PeerClean st) :
    PlainText (powerUp w w' eth st).http.app.runtime.runtimeStatus.ipAddr.val := by
  have hzero : ∀ {n : ℕ}, PlainText (copyStr (str "0.0.0.0") : CStr (n + 1)).val :=
    plain_copyStr (by decide)
  have hinit : Keeps SettingsClean PeerClean (productConfigInit w.store w.deviceId (powerOn st)) :=
    keeps_init defaultsKept_clean h
  show PlainText (mainBoot w w' eth _).runtime.runtimeStatus.ipAddr.val
  rw [mainBoot_runtime]
  rcases mainNetwork_runtime with ⟨error, -, h⟩ | ⟨mode, h⟩
  · rw [h]
    exact hzero
  · rw [h]
    set rs := runtimeSettings (productConfigInit w.store w.deviceId (powerOn st)).settings
      eth.ip.val mode
    have hplain : PlainSettings rs := plainSettings_runtimeSettings hinit.settings.plain hip
    have hterm : SettingsTerminated rs :=
      settingsTerminated_runtimeSettings hinit.settings.sound.terminated
    show PlainText (copyStr (if rs.network.deviceIp.first ≠ 0 then rs.network.deviceIp.text
      else str "0.0.0.0") : CStr fieldBridgeHostMax).val
    split_ifs
    · rw [copyStr_val (CharArray.zero_notMem_text _) (CharArray.length_text_lt hterm.network.deviceIp)]
      exact hplain _ (by simp [settingsTexts])
    · exact hzero

end Boots

/-! ### Runs -/

section Runs

variable {d : DeviceState} {e : Event}

theorem plainStatus_run (h : PlainStatus d.http.app.runtime.runtimeStatus) :
    PlainStatus (e.run d).http.app.runtime.runtimeStatus := by
  rcases running_or_boot e with hr | ⟨w, w', eth, rfl⟩
  · exact plainStatus_change (change_run hr) h
  · exact plainStatus_powerUp

theorem plainStatus_of_reachable (h : runs.Reachable d) :
    PlainStatus d.http.app.runtime.runtimeStatus := by
  refine h.invariant (I := fun d => PlainStatus d.http.app.runtime.runtimeStatus) ?_ ?_
  · rintro d ⟨w, w', eth, rfl⟩
    exact plainStatus_powerUp
  · rintro d e d' hd rfl
    exact plainStatus_run hd

/-- What every state of the restricted runs has. -/
structure Clean (d : DeviceState) : Prop where
  config : Keeps SettingsClean PeerClean d.config
  ipAddr : PlainText d.http.app.runtime.runtimeStatus.ipAddr.val

theorem clean_powerUp {w w' : World} {eth : Ethernet} {st : ConfigStore} (hip : PlainText eth.ip.val)
    (h : StoreKeeps SettingsClean PeerClean st) : Clean (powerUp w w' eth st) :=
  ⟨keeps_powerUp_at defaultsKept_clean (writeBackKeeps_clean hip) h, plain_ipAddr_powerUp hip h⟩

theorem admits_clean {o : ConfigOp} (ht : Terminates o) (ha : Admits PlainSettings PlainPeer o) :
    Admits SettingsClean PeerClean o := by
  cases o with
  | setPeer index peer => exact fun hv => ⟨⟨hv, ht⟩, ha hv⟩
  | setSettings newSettings => exact fun hv => ⟨⟨hv, ht⟩, ha hv⟩
  | resetAll => exact trivial
  | applyDefaults profile => exact trivial

theorem clean_run (h : Clean d) (hp : TakesPlain d e) : Clean (e.run d) := by
  have hsound : ConfigSound d.config :=
    ⟨h.config.settings.sound, fun i => (h.config.peers i).sound⟩
  constructor
  · refine keeps_run_at defaultsKept_clean (fun w w' eth he => ?_) h.config fun o ho => ?_
    · exact writeBackKeeps_clean (hp.address w w' eth he)
    · exact admits_clean (terminates_op hsound ho) (hp.op o ho)
  · rcases running_or_boot e with hr | ⟨w, w', eth, rfl⟩
    · rw [ipAddr_change (change_run hr)]
      exact h.ipAddr
    · exact plain_ipAddr_powerUp (hp.address w w' eth rfl) h.config.stored

theorem clean_of_reachable (h : plainRuns.Reachable d) : Clean d := by
  refine h.invariant (I := Clean) ?_ ?_
  · rintro d ⟨w, w', eth, hip, rfl⟩
    exact clean_powerUp hip storeKeeps_empty
  · rintro d e d' hd ⟨hp, rfl⟩
    exact clean_run hd hp

theorem runs_of_plainRuns (h : plainRuns.Reachable d) : runs.Reachable d := by
  refine h.invariant (I := runs.Reachable) ?_ ?_
  · rintro d ⟨w, w', eth, -, rfl⟩
    exact .init ⟨w, w', eth, rfl⟩
  · rintro d e d' hd ⟨-, rfl⟩
    exact hd.step rfl

/-- A state of a run, whatever was taken in. -/
theorem faithful_iff_of_reachable {w : World} {cap : ℕ} (h : runs.Reachable d)
    (hcap : respBufSize ≤ cap) : Faithful w cap d.http.app ↔ PlainInputs d.http.app := by
  obtain ⟨hsound, -⟩ := runs_sound h
  exact faithful_iff hcap hsound.settings (fun i => (hsound.peers i).terminated)
    (plainStatus_of_reachable h)

/-- **The answers are faithful** in the states of a run where no string that came from outside needs
an escape, so in every state of a run that takes in no other strings. -/
theorem runs_faithful {w : World} {cap : ℕ} (hcap : respBufSize ≤ cap) :
    (runs.Reachable d → (Faithful w cap d.http.app ↔ PlainInputs d.http.app)) ∧
      (plainRuns.Reachable d → Faithful w cap d.http.app) := by
  constructor
  · exact fun h => faithful_iff_of_reachable h hcap
  · intro h
    have hclean := clean_of_reachable h
    refine (faithful_iff_of_reachable (runs_of_plainRuns h) hcap).mpr ⟨?_, fun i => ?_, ?_⟩
    · exact hclean.config.settings.plain
    · exact (hclean.config.peers i).plain
    · exact hclean.ipAddr

/-- The answers of a new device. -/
theorem runs_faithful_firstBoot :
    (Faithful .good respBufSize firstBoot.http.app ↔ PlainInputs firstBoot.http.app) ∧
      Faithful .good respBufSize firstBoot.http.app := by
  obtain ⟨hiff, hplain⟩ := @runs_faithful firstBoot .good respBufSize le_rfl
  refine ⟨hiff reachable_firstBoot, hplain (.init ⟨_, _, _, ?_, rfl⟩)⟩
  exact PrintableAscii.plain (by decide)

/-- The console sets a peer whose name holds a quote. -/
abbrev quoteName : Event := .line .good (str "peer 0 a\"b 10.78.0.23")

/-- The quote ends the name in the answers. -/
theorem peerName_unfaithful : runs.Reachable (quoteName.run firstBoot) ∧
    ¬ Faithful .good respBufSize (quoteName.run firstBoot).http.app := by
  have hrun : runs.Reachable (quoteName.run firstBoot) := reachable_firstBoot.step rfl
  refine ⟨hrun, fun h => ?_⟩
  have hname := (((faithful_iff_of_reachable hrun le_rfl).mp h).peers 0).name
  exact absurd hname.bytes.1 (by decide)

end Runs

end MqttFieldBridge.Device
