import MqttFieldBridge.Config.Atomic
import MqttFieldBridge.Lts.Threads

/-! # Operations that overlap

The console and the HTTP server run on threads of their own, and no lock guards the configuration.
Here every assignment to RAM and every save is an action of its own and the actions of any number of
operations interleave; a save stores what RAM holds at that moment. Run alone, the actions of an
operation are the operation (`runActs_program`).

When all operations are done, the peers survive a reboot, and so do the settings if they are valid
(`quiescent_survives`). They are valid if no assignment to the settings falls among those of
`settings_defaults` in another operation; otherwise they need not be
(`overlapping_reset_not_reproduced`). -/

namespace MqttFieldBridge.Config

open MqttFieldBridge.CLib MqttFieldBridge.Lts

/-- An assignment or a save. -/
inductive Action where
  | assignPeer (i : Fin fieldBridgePeerMax) (peer : FieldBridgePeer)
  | clearPeers
  | assignSettings (f : Assign)
  | savePeer (i : Fin fieldBridgePeerMax)
  | saveSettings
  | setLoaded

/-- What an action does; saves succeed. -/
def Action.act : Action → ConfigState → ConfigState
  | assignPeer i peer, c => { c with peers := Function.update c.peers i peer }
  | clearPeers, c => { c with peers := fun _ => .zero }
  | assignSettings f, c => { c with settings := f c.settings }
  | savePeer i, c => (persistSave .good i c).2
  | saveSettings, c => (persistSaveSettings .good c).2
  | setLoaded, c => { c with settingsLoadedFromStore := true }

/-- The saves that end a wipe. -/
def savesAll : List Action :=
  (List.finRange fieldBridgePeerMax).map .savePeer ++ [.saveSettings, .setLoaded]

/-- A wipe that assigns `l` to the settings. -/
def wipe (l : List Assign) : List Action := (.clearPeers :: l.map .assignSettings) ++ savesAll

/-- The actions of an operation whose argument is accepted. -/
def ConfigOp.program (deviceId : List Byte) : ConfigOp → List Action
  | setPeer index peer =>
    match peerIndex index with
    | none => []
    | some i => [.assignPeer i peer, .savePeer i]
  | setSettings newSettings => [.assignSettings fun _ => newSettings, .saveSettings, .setLoaded]
  | resetAll => wipe (settingsDefaultsAssigns deviceId)
  | applyDefaults profile =>
    if profile = profileSmall then wipe (settingsDefaultsAssigns deviceId)
    else if profile = profileLarge then wipe (settingsLargeDefaultsAssigns deviceId)
    else [.clearPeers]

/-- The operation accepts its argument. -/
def ConfigOp.Accepts : ConfigOp → Prop
  | setPeer index peer => (peerIndex index).isSome ∧ PeerValid peer
  | setSettings newSettings => SettingsValid newSettings
  | resetAll => True
  | applyDefaults profile => profile = profileSmall ∨ profile = profileLarge

variable {deviceId : List Byte} {c : ConfigState}

/-! ### The actions of an operation that runs alone -/

theorem savesAll_good : SavesAll .good := ⟨fun _ _ => rfl, rfl⟩

theorem persistSaveAll_good : (persistSaveAll .good c).2 =
    { (persistSaveSettings .good (persistSavePeers .good (List.finRange fieldBridgePeerMax) c).2).2
      with settingsLoadedFromStore := true } := by
  have h1 : (persistSavePeers .good (List.finRange fieldBridgePeerMax) c).1 = .ok := by
    simp only [persistSavePeers_eq, if_pos savesAll_good.1]
  have h2 : ∀ c', (persistSaveSettings .good c').1 = .ok := fun c' => by
    rw [persistSaveSettings_eq]
    rfl
  simp only [persistSaveAll, h1, h2, ne_eq, not_true, if_false]

theorem runActs_savePeers : ∀ (is : List (Fin fieldBridgePeerMax)) (c : ConfigState),
    runActs Action.act (is.map .savePeer) c = (persistSavePeers .good is c).2
  | [], c => rfl
  | i :: is, c => by
    have hok : (persistSave .good i c).1 = .ok := by
      rw [persistSave_eq]
      rfl
    have ih := runActs_savePeers is (persistSave .good i c).2
    simp only [persistSavePeers, hok, ne_eq, not_true, if_false]
    exact ih

theorem runActs_assignSettings : ∀ (l : List Assign) (c : ConfigState),
    runActs Action.act (l.map .assignSettings) c = { c with settings := runAssigns l c.settings }
  | [], _ => rfl
  | f :: l, c => runActs_assignSettings l { c with settings := f c.settings }

theorem runActs_append {l l' : List Action} :
    runActs Action.act (l ++ l') c = runActs Action.act l' (runActs Action.act l c) := by
  unfold runActs
  rw [List.foldl_append]

theorem runActs_wipe {l : List Assign} : runActs Action.act (wipe l) c =
    (persistSaveAll .good
      { c with peers := fun _ => .zero, settings := runAssigns l c.settings }).2 := by
  have h1 : runActs Action.act (.clearPeers :: l.map .assignSettings) c =
      { c with peers := fun _ => .zero, settings := runAssigns l c.settings } :=
    runActs_assignSettings l { c with peers := fun _ => .zero }
  rw [wipe, savesAll, runActs_append, h1, runActs_append, runActs_savePeers, persistSaveAll_good]
  rfl

/-- **The actions of an operation that runs alone are the operation.** -/
theorem runActs_program {op : ConfigOp} (h : op.Accepts) :
    (op.run .good deviceId c).1 = .ok ∧
      runActs Action.act (op.program deviceId) c = (op.run .good deviceId c).2 := by
  cases op with
  | setPeer index peer =>
    obtain ⟨hi, hv⟩ := h
    obtain ⟨i, hi⟩ := Option.isSome_iff_exists.mp hi
    simp only [ConfigOp.run, ConfigOp.program, productConfigSetPeer_of_valid hi hv, hi]
    refine ⟨rfl, ?_⟩
    simp only [runActs, List.foldl_cons, List.foldl_nil, Action.act, persistSave_eq,
      Function.update_self]
  | setSettings newSettings =>
    simp only [ConfigOp.run, ConfigOp.program, productConfigSetSettings_of_valid h]
    exact ⟨rfl, rfl⟩
  | resetAll => exact ⟨persistSaveAll_ok savesAll_good, runActs_wipe⟩
  | applyDefaults profile =>
    rcases h with rfl | rfl
    · exact ⟨persistSaveAll_ok savesAll_good, runActs_wipe⟩
    · exact ⟨persistSaveAll_ok savesAll_good, runActs_wipe⟩

/-! ### What a reboot reproduces -/

/-- Nothing but saves may fail. -/
structure LoadsGood (env : StoreEnv) : Prop where
  init : env.init = .ok
  load : ∀ key size, env.load key size = .ok

theorem loadRecord_congr {α : Type} {L : Layout α} {env : StoreEnv} (he : LoadsGood env)
    {st : ConfigStore} {key : ℕ} : loadRecord L env st key = loadRecord L .good st key := by
  have hload : env.load key L.size = StoreEnv.good.load key L.size := he.load _ _
  simp only [loadRecord, dephyConfigStoreLoad, hload]

theorem initPeers_congr {env : StoreEnv} (he : LoadsGood env) {st : ConfigStore} :
    initPeers env st = fun i => loadPeer .good st i := by
  funext i
  simp only [initPeers, he.init, if_true, loadPeer, loadRecord_congr he]

theorem initSettings_congr {env : StoreEnv} (he : LoadsGood env) {st : ConfigStore} :
    initSettings env deviceId st = initSettings .good deviceId st := by
  have hinit : env.init = StoreEnv.good.init := he.init
  simp only [initSettings, hinit, loadSettings, loadLegacySettings, loadRecord_congr he]

/-- A reboot reproduces slot `i`. -/
def PeerStored (i : Fin fieldBridgePeerMax) (c : ConfigState) : Prop :=
  loadPeer .good c.store i = c.peers i

/-- A reboot reproduces the settings if they are valid. -/
def SettingsStored (deviceId : List Byte) (c : ConfigState) : Prop :=
  SettingsValid c.settings → initSettings .good deviceId c.store = c.settings

theorem initSettings_of_holds {s : FieldBridgeSettings} {st : ConfigStore}
    (h : Holds FieldBridgeSettings.layout st settingsKey s) (hv : SettingsValid s) :
    initSettings .good deviceId st = s := by
  have hl : loadSettings .good st = some s :=
    loadSettings_eq_some.mpr ⟨loadRecord_of_holds h rfl, hv⟩
  have hinit : StoreEnv.good.init = .ok := rfl
  rw [initSettings, if_pos hinit, hl]
  rfl

/-- The states that start-up leaves, whatever the store holds and whether or not a save fails. -/
def StartedUp (deviceId : List Byte) (c : ConfigState) : Prop :=
  ∃ env c0, LoadsGood env ∧ c = productConfigInit env deviceId c0

theorem peerStored_startedUp {i : Fin fieldBridgePeerMax} (h : StartedUp deviceId c) :
    PeerStored i c := by
  obtain ⟨env, c0, he, rfl⟩ := h
  have hstore : (productConfigInit env deviceId c0).store (peerKey i) = c0.store (peerKey i) := by
    rcases @productConfigInit_store env deviceId c0 with h | ⟨s, -, -, h⟩
    · rw [h]
    · rw [h]
      exact saveRecord_ne (peerKey_ne_settingsKey i)
  rw [PeerStored, productConfigInit_peers, initPeers_congr he]
  simp only [loadPeer, loadRecord, dephyConfigStoreLoad, hstore]

theorem settingsStored_startedUp (h : StartedUp deviceId c) : SettingsStored deviceId c := by
  obtain ⟨env, c0, he, rfl⟩ := h
  intro hv
  rw [productConfigInit_settings] at hv ⊢
  rcases @productConfigInit_store env deviceId c0 with
    h | ⟨s, h2, h1, h⟩
  · rw [h, initSettings_congr he]
  · have hs : initSettings env deviceId c0.store = s := by
      rw [initSettings, if_pos he.init, h2, h1]
      rfl
    rcases hsave : env.save settingsKey with _ | _
    · have hholds : Holds FieldBridgeSettings.layout (productConfigInit env deviceId c0).store
          settingsKey s := by
        rw [h]
        exact holds_saveRecord hsave
      rw [hs] at hv ⊢
      exact initSettings_of_holds hholds hv
    · rw [h, saveRecord_err hsave, initSettings_congr he]

/-! ### The two conditions are restored -/

/-- The actions that assign to slot `i`. -/
def AssignsPeer (i : Fin fieldBridgePeerMax) : Action → Prop
  | .assignPeer j _ => j = i
  | .clearPeers => True
  | _ => False

/-- The assignment to the settings an action makes. -/
def settingsEffect : Action → Option Assign
  | .assignSettings f => some f
  | _ => none

theorem not_assigns_savesAll {a : Action} (h : a ∈ savesAll) (i : Fin fieldBridgePeerMax) :
    ¬ AssignsPeer i a ∧ settingsEffect a = none := by
  simp only [savesAll, List.mem_append, List.mem_map, List.mem_cons, List.not_mem_nil,
    or_false] at h
  rcases h with ⟨j, -, rfl⟩ | rfl | rfl
  · exact ⟨not_false, rfl⟩
  · exact ⟨not_false, rfl⟩
  · exact ⟨not_false, rfl⟩

theorem savePeer_mem_savesAll (i : Fin fieldBridgePeerMax) : Action.savePeer i ∈ savesAll :=
  List.mem_append_left _ (List.mem_map.mpr ⟨i, List.mem_finRange i, rfl⟩)

theorem saveSettings_mem_savesAll : Action.saveSettings ∈ savesAll :=
  List.mem_append_right _ List.mem_cons_self

/-- A wipe ends with the saves. -/
theorem program_wipe_or {op : ConfigOp} (h : op.Accepts) :
    (∃ i peer, op.program deviceId = [.assignPeer i peer, .savePeer i]) ∨
      (∃ s, SettingsValid s ∧
        op.program deviceId = [.assignSettings fun _ => s, .saveSettings, .setLoaded]) ∨
      ∃ l, (∀ s, SettingsValid (runAssigns l s)) ∧ op.program deviceId = wipe l := by
  have hsmall : ∀ s, SettingsValid (settingsDefaults deviceId s) := fun s => by
    rw [settingsDefaults_eq]
    exact (settingsSound_default deviceId).valid
  have hlarge : ∀ s, SettingsValid (settingsLargeDefaults deviceId s) := fun s => by
    rw [settingsLargeDefaults_eq]
    exact (settingsSound_largeDefault deviceId).valid
  cases op with
  | setPeer index peer =>
    obtain ⟨i, hi⟩ := Option.isSome_iff_exists.mp h.1
    exact Or.inl ⟨i, peer, by simp only [ConfigOp.program, hi]⟩
  | setSettings newSettings => exact Or.inr (Or.inl ⟨newSettings, h, rfl⟩)
  | resetAll => exact Or.inr (Or.inr ⟨_, hsmall, rfl⟩)
  | applyDefaults profile =>
    rcases h with rfl | rfl
    · exact Or.inr (Or.inr ⟨_, hsmall, rfl⟩)
    · exact Or.inr (Or.inr ⟨_, hlarge, rfl⟩)

theorem settles_peer {op : ConfigOp} (h : op.Accepts) (i : Fin fieldBridgePeerMax) :
    Settles (AssignsPeer i) (· = .savePeer i) (op.program deviceId) := by
  rcases @program_wipe_or deviceId _ h with ⟨j, peer, e⟩ | ⟨s, -, e⟩ | ⟨l, -, e⟩
  · rw [e]
    refine @settles_append Action _ _ [.assignPeer j peer] [.savePeer j] (fun a ha hb => ?_)
      (settles_of_forall_not fun a ha => ?_)
    · rw [List.mem_singleton.mp ha] at hb
      have hji : j = i := hb
      exact ⟨.savePeer j, List.mem_singleton_self _, by rw [hji]⟩
    · rw [List.mem_singleton.mp ha]
      exact not_false
  · rw [e]
    refine settles_of_forall_not fun a ha => ?_
    simp only [List.mem_cons, List.not_mem_nil, or_false] at ha
    rcases ha with rfl | rfl | rfl
    · exact not_false
    · exact not_false
    · exact not_false
  · rw [e]
    exact settles_append (fun _ _ _ => ⟨.savePeer i, savePeer_mem_savesAll i, rfl⟩)
      (settles_of_forall_not fun a ha => (not_assigns_savesAll ha i).1)

theorem settles_settings {op : ConfigOp} (h : op.Accepts) :
    Settles (settingsEffect · ≠ none) (· = .saveSettings) (op.program deviceId) := by
  rcases @program_wipe_or deviceId _ h with ⟨j, peer, e⟩ | ⟨s, -, e⟩ | ⟨l, -, e⟩
  · rw [e]
    refine settles_of_forall_not fun a ha => ?_
    simp only [List.mem_cons, List.not_mem_nil, or_false] at ha
    rcases ha with rfl | rfl
    · exact fun h => h rfl
    · exact fun h => h rfl
  · rw [e]
    refine @settles_append Action _ _ [.assignSettings fun _ => s] [.saveSettings, .setLoaded]
      (fun _ _ _ => ⟨.saveSettings, List.mem_cons_self, rfl⟩) (settles_of_forall_not fun a ha => ?_)
    simp only [List.mem_cons, List.not_mem_nil, or_false] at ha
    rcases ha with rfl | rfl
    · exact fun h => h rfl
    · exact fun h => h rfl
  · rw [e]
    exact settles_append (fun _ _ _ => ⟨.saveSettings, saveSettings_mem_savesAll, rfl⟩)
      (settles_of_forall_not fun a ha h => h (not_assigns_savesAll ha 0).2)

theorem act_savePeer {i : Fin fieldBridgePeerMax} : PeerStored i (Action.act (.savePeer i) c) := by
  have hholds : Holds FieldBridgePeer.layout (Action.act (.savePeer i) c).store (peerKey i)
      (c.peers i) := by
    simp only [Action.act, persistSave_eq]
    exact holds_saveRecord rfl
  rw [PeerStored, loadPeer, loadRecord_of_holds hholds rfl]
  rfl

theorem peerStored_act {i : Fin fieldBridgePeerMax} {a : Action} (ha : ¬ AssignsPeer i a)
    (h : PeerStored i c) : PeerStored i (a.act c) := by
  have hcongr {c' : ConfigState} (hp : c'.peers i = c.peers i)
      (hs : c'.store (peerKey i) = c.store (peerKey i)) : PeerStored i c' := by
    have hl : loadPeer .good c'.store i = loadPeer .good c.store i := by
      simp only [loadPeer, loadRecord, dephyConfigStoreLoad, hs]
    rw [PeerStored, hl, hp]
    exact h
  cases a with
  | assignPeer j peer => exact hcongr (Function.update_of_ne (Ne.symm ha) _ _) rfl
  | clearPeers => exact absurd trivial ha
  | assignSettings f => exact hcongr rfl rfl
  | savePeer j =>
    by_cases hj : i = j
    · rw [hj]
      exact act_savePeer
    · refine hcongr rfl ?_
      simp only [Action.act, persistSave_eq]
      exact saveRecord_ne fun e => hj (peerKey_injective e)
  | saveSettings =>
    refine hcongr rfl ?_
    simp only [Action.act, persistSaveSettings_eq]
    exact saveRecord_ne (peerKey_ne_settingsKey i)
  | setLoaded => exact hcongr rfl rfl

theorem act_saveSettings : SettingsStored deviceId (Action.act .saveSettings c) := by
  have hholds : Holds FieldBridgeSettings.layout (Action.act .saveSettings c).store settingsKey
      c.settings := by
    simp only [Action.act, persistSaveSettings_eq]
    exact holds_saveRecord rfl
  exact fun hv => initSettings_of_holds hholds hv

theorem settingsStored_act {a : Action} (ha : ¬ settingsEffect a ≠ none)
    (h : SettingsStored deviceId c) : SettingsStored deviceId (a.act c) := by
  cases a with
  | assignPeer j peer => exact h
  | clearPeers => exact h
  | assignSettings f => exact absurd (Option.some_ne_none f) ha
  | savePeer j =>
    have hs : (Action.act (.savePeer j) c).store settingsKey = c.store settingsKey := by
      simp only [Action.act, persistSave_eq]
      exact saveRecord_ne (peerKey_ne_settingsKey j).symm
    intro hv
    have := h hv
    simp only [initSettings, loadSettings, loadLegacySettings, loadRecord, dephyConfigStoreLoad,
      hs] at this ⊢
    exact this
  | saveSettings => exact act_saveSettings
  | setLoaded => exact h

/-! ### Any number of threads -/

/-- Threads that run accepted operations after start-up. -/
def configPools (deviceId : List Byte) : System (Pool ConfigState Action) (Label Action ConfigOp) :=
  pools Action.act (ConfigOp.program deviceId) ConfigOp.Accepts (StartedUp deviceId)

theorem writes_assignSettings (l : List Assign) :
    writes settingsEffect (l.map .assignSettings) = l := by
  induction l with
  | nil => rfl
  | cons f l ih =>
    rw [writes] at ih
    simp only [writes, List.map_cons, List.filterMap_cons, settingsEffect, ih]

theorem writes_wipe (l : List Assign) : writes settingsEffect (wipe l) = l := by
  have h : writes settingsEffect savesAll = [] :=
    List.filterMap_eq_nil_iff.mpr fun a ha => (not_assigns_savesAll ha 0).2
  have hl := writes_assignSettings l
  simp only [writes, wipe, List.cons_append, List.filterMap_cons, settingsEffect,
    List.filterMap_append] at h hl ⊢
  rw [hl, h, List.append_nil]

theorem writesGood_program {op : ConfigOp} (h : op.Accepts) :
    WritesGood settingsEffect SettingsValid (op.program deviceId) := by
  rcases @program_wipe_or deviceId _ h with ⟨j, peer, e⟩ | ⟨s, hs, e⟩ | ⟨l, hl, e⟩
  · rw [e]
    exact fun h => absurd rfl h
  · rw [e]
    exact fun _ _ => hs
  · rw [e, WritesGood, writes_wipe]
    exact fun _ s => hl s

theorem settings_act (a : Action) (c : ConfigState) :
    (a.act c).settings = ((settingsEffect a).getD id) c.settings := by
  cases a with
  | savePeer i => rfl
  | saveSettings => rfl
  | assignPeer i peer => rfl
  | clearPeers => rfl
  | assignSettings f => rfl
  | setLoaded => rfl

/-- A reboot finds every peer slot, and the settings if they are valid. -/
def SurvivesReboot (deviceId : List Byte) (c : ConfigState) : Prop :=
  ∀ env, LoadsGood env → (productConfigInit env deviceId c).peers = c.peers ∧
    (SettingsValid c.settings → (productConfigInit env deviceId c).settings = c.settings)

theorem survivesReboot_of_quiescent {p : Pool ConfigState Action}
    (hp : (configPools deviceId).Reachable p) (hq : p.Quiescent) :
    SurvivesReboot deviceId p.shared := by
  refine fun env he => ⟨?_, fun hv => ?_⟩
  · rw [productConfigInit_peers, initPeers_congr he]
    funext i
    have hinit : ∀ c, StartedUp deviceId c → PeerStored i c := fun _ => peerStored_startedUp
    have hprogram : ∀ op : ConfigOp, op.Accepts → Settles (AssignsPeer i) (· = .savePeer i)
        (op.program deviceId) := fun _ h => settles_peer h i
    have hrestore : ∀ a c, a = .savePeer i → PeerStored i (Action.act a c) := by
      rintro a c rfl
      exact act_savePeer
    have hframe : ∀ a c, ¬ AssignsPeer i a → PeerStored i c → PeerStored i (Action.act a c) :=
      fun _ _ => peerStored_act
    exact settled_of_quiescent hinit hprogram hrestore hframe hp hq
  · rw [productConfigInit_settings, initSettings_congr he]
    have hinit : ∀ c, StartedUp deviceId c → SettingsStored deviceId c :=
      fun _ => settingsStored_startedUp
    have hprogram : ∀ op : ConfigOp, op.Accepts → Settles (settingsEffect · ≠ none)
        (· = .saveSettings) (op.program deviceId) := fun _ => settles_settings
    have hrestore : ∀ a c, a = .saveSettings → SettingsStored deviceId (Action.act a c) := by
      rintro a c rfl
      exact act_saveSettings
    have hframe : ∀ a c, ¬ settingsEffect a ≠ none → SettingsStored deviceId c →
        SettingsStored deviceId (Action.act a c) := fun _ _ => settingsStored_act
    exact settled_of_quiescent hinit hprogram hrestore hframe hp hq hv

theorem settingsValid_of_quiescent {p : Pool ConfigState Action}
    (hp : ((configPools deviceId).restrict (Undisturbed settingsEffect)).Reachable p)
    (hq : p.Quiescent) : SettingsValid p.shared.settings := by
  have hinit : ∀ c, StartedUp deviceId c → SettingsValid c.settings := by
    rintro c ⟨env, c0, -, rfl⟩
    rw [productConfigInit_settings]
    exact settingsValid_initSettings c0.store
  exact good_of_quiescent hinit (fun _ h => writesGood_program h) settings_act hp hq

/-- **What a reboot finds when no operation is in progress**: every peer slot, and the settings if
they are valid; which they are if no assignment to them fell among those of another operation. -/
theorem quiescent_survives {p : Pool ConfigState Action} (hq : p.Quiescent) :
    ((configPools deviceId).Reachable p → SurvivesReboot deviceId p.shared) ∧
    (((configPools deviceId).restrict (Undisturbed settingsEffect)).Reachable p →
      SettingsValid p.shared.settings ∧ SurvivesReboot deviceId p.shared) :=
  ⟨fun hp => survivesReboot_of_quiescent hp hq, fun hp =>
    ⟨settingsValid_of_quiescent hp hq, survivesReboot_of_quiescent hp.of_restrict hq⟩⟩

/-- One operation runs while another waits between `as1` and `as2`. -/
theorem reachable_interrupted {op op' : ConfigOp} {as1 as2 : List Action} (h : op.Accepts)
    (h' : op'.Accepts) (e : op.program deviceId = as1 ++ as2) (hc : StartedUp deviceId c) :
    (configPools deviceId).Reachable
      ⟨runActs Action.act as2 (runActs Action.act (op'.program deviceId)
          (runActs Action.act as1 c)),
        [⟨as1 ++ as2, []⟩, ⟨op'.program deviceId, []⟩]⟩ := by
  have h0 : (configPools deviceId).Reachable ⟨c, []⟩ := .init ⟨hc, rfl⟩
  have h1 := reachable_spawn h h0
  rw [e] at h1
  have h2 := @reachable_exec _ _ _ _ _ _ _ [] [] as2 as1 _ _ h1
  have h3 := reachable_spawn h' h2
  have h4 : (configPools deviceId).Reachable ⟨runActs Action.act as1 c,
      [⟨as1, as2⟩] ++ ⟨[], op'.program deviceId ++ []⟩ :: []⟩ := by simpa [configPools] using h3
  have h5 := reachable_exec _ h4
  have h6 : (configPools deviceId).Reachable
      ⟨runActs Action.act (op'.program deviceId) (runActs Action.act as1 c),
        [] ++ ⟨as1, as2 ++ []⟩ :: [⟨op'.program deviceId, []⟩]⟩ := by
    simpa [configPools] using h5
  have h7 := reachable_exec _ h6
  simpa [configPools] using h7

theorem startedUp_freshConfig : StartedUp [] freshConfig :=
  ⟨.good, powerOn .empty, ⟨rfl, fun _ _ => rfl⟩, rfl⟩

/-- A reset that `op` interrupts after `n` actions. -/
def interruptedReset (n : ℕ) (op : ConfigOp) : ConfigState :=
  let reset := ConfigOp.program [] .resetAll
  runActs Action.act (reset.drop n)
    (runActs Action.act (op.program []) (runActs Action.act (reset.take n) freshConfig))

theorem reachable_interruptedReset (n : ℕ) {op : ConfigOp} (h : op.Accepts) :
    ∃ p, (configPools []).Reachable p ∧ p.Quiescent ∧ p.shared = interruptedReset n op := by
  have hreset : ConfigOp.Accepts .resetAll := trivial
  exact ⟨_, reachable_interrupted hreset h (List.take_append_drop n _).symm
    startedUp_freshConfig, by simp [Pool.Quiescent], rfl⟩

/-- A peer that is set after a reset has cleared the slots, and before it has saved them. -/
theorem quiescent_survives_setPeer :
    SurvivesReboot [] (interruptedReset 1 (.setPeer 0 examplePeer)) := by
  have h : ConfigOp.Accepts (.setPeer 0 examplePeer) := ⟨by decide, by decide⟩
  obtain ⟨p, hp, hq, he⟩ := reachable_interruptedReset 1 h
  rw [← he]
  exact (quiescent_survives hq).1 hp

/-- Valid settings whose broker port is the default fallback port. -/
def overlappingSettings : FieldBridgeSettings :=
  { defaultSettings [] with
    broker := { (defaultSettings []).broker with mqttPort := 1884, fallbackPort := 1885 } }

/-- These settings, assigned between the `mqtt_port` and the `fallback_port` of a reset: both
operations have returned `0`, and a reboot does not find what is left. -/
theorem overlapping_reset_not_reproduced :
    ∃ p, (configPools []).Reachable p ∧ p.Quiescent ∧
      (productConfigInit .good [] p.shared).settings ≠ p.shared.settings := by
  have h : ConfigOp.Accepts (.setSettings overlappingSettings) := by
    have : SettingsValid overlappingSettings := by decide
    exact this
  obtain ⟨p, hp, hq, he⟩ := reachable_interruptedReset 13 h
  refine ⟨p, hp, hq, fun hs => ?_⟩
  rw [he] at hs
  have hport := congrArg (fun s => s.broker.mqttPort) hs
  exact absurd hport (by decide +kernel)

end MqttFieldBridge.Config
