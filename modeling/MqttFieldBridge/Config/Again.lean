import MqttFieldBridge.Config.Frame
import MqttFieldBridge.Config.Threads

/-! # The same operation again

An operation that is made again, after its saves have succeeded, changes nothing, whether the saves
succeed this time or not (`run_again`): what it assigns is there already, and so is what it saves. -/

namespace MqttFieldBridge.Config

open MqttFieldBridge.CLib

variable {env : StoreEnv} {deviceId : List Byte} {c : ConfigState}

/-! ### Saving what is stored -/

/-- The flash holds the live records, and that it holds settings is known. -/
structure Stored (c : ConfigState) : Prop where
  peers : ∀ i, Holds FieldBridgePeer.layout c.store (peerKey i) (c.peers i)
  settings : Holds FieldBridgeSettings.layout c.store settingsKey c.settings
  loaded : c.settingsLoadedFromStore = true

theorem saveRecord_of_holds {α : Type} {L : Layout α} {st : ConfigStore} {key : ℕ} {v : α}
    (env : StoreEnv) (h : Holds L st key v) : (saveRecord L env st key v).2 = st := by
  rcases hs : env.save key with _ | _
  · rw [saveRecord_ok hs, ← h, Function.update_eq_self]
  · rw [saveRecord_err hs]

theorem savePeers_of_holds {peers : Fin fieldBridgePeerMax → FieldBridgePeer} {st : ConfigStore}
    (env : StoreEnv) (h : ∀ i, Holds FieldBridgePeer.layout st (peerKey i) (peers i)) :
    savePeers env peers (List.finRange fieldBridgePeerMax) st = st :=
  (savePeers_eq_self_iff _ st (List.pairwise_lt_finRange _)).mpr fun i _ _ => h i

theorem persistSaveAll_of_stored (env : StoreEnv) (h : Stored c) :
    (persistSaveAll env c).2 = c := by
  have hpeers := savePeers_of_holds env h.peers
  by_cases hall : SavesAll env
  · have hsettings := saveRecord_of_holds env h.settings
    obtain ⟨h1, h2⟩ := hall
    simp only [persistSaveAll, persistSavePeers_eq, if_pos h1, persistSaveSettings_eq, h2, hpeers,
      hsettings, ne_eq, not_true, if_false]
    exact ConfigState.ext rfl rfl h.loaded.symm rfl
  · rw [persistSaveAll_err hall, hpeers]

/-! ### What a complete save leaves -/

/-- A slot that is saved is held after the loop, for no later save is one of another record. -/
theorem holds_savePeers {peers : Fin fieldBridgePeerMax → FieldBridgePeer} :
    ∀ (is : List (Fin fieldBridgePeerMax)) (st : ConfigStore), PeersSave env is →
      ∀ i ∈ is, Holds FieldBridgePeer.layout (savePeers env peers is st) (peerKey i) (peers i)
  | [], _, _, i, hi => by cases hi
  | j :: is, st, hsave, i, hi => by
    have hj : env.save (peerKey j) = .ok := hsave j List.mem_cons_self
    have hrest : PeersSave env is := fun k hk => hsave k (List.mem_cons_of_mem j hk)
    simp only [savePeers, saveRecord_ok hj, ne_eq, not_true, if_false]
    by_cases hmem : i ∈ is
    · exact holds_savePeers is _ hrest i hmem
    · have hij : i = j := (List.mem_cons.mp hi).resolve_right hmem
      have hkeys : ∀ k ∈ is, peerKey i ≠ peerKey k := fun k hk e =>
        hmem (peerKey_injective e ▸ hk)
      unfold Holds
      rw [savePeers_ne is _ hkeys, hij]
      exact holds_update

theorem stored_persistSaveAll (h : SavesSucceed env) : Stored (persistSaveAll env c).2 := by
  obtain ⟨h1, h2⟩ := h.savesAll
  simp only [persistSaveAll, persistSavePeers_eq, if_pos h1, persistSaveSettings_eq, h2,
    saveRecord_ok h2, ne_eq, not_true, if_false]
  refine ⟨fun i => ?_, holds_update, rfl⟩
  have hi := @holds_savePeers env c.peers (List.finRange fieldBridgePeerMax) c.store h1 i
    (List.mem_finRange i)
  unfold Holds
  dsimp only
  rw [Function.update_of_ne (peerKey_ne_settingsKey i)]
  exact hi

/-! ### Each operation -/

theorem setSettings_again (h : SavesSucceed env) (env' : StoreEnv) (s : FieldBridgeSettings) :
    (productConfigSetSettings env' s (productConfigSetSettings env s c).2).2 =
      (productConfigSetSettings env s c).2 := by
  by_cases hv : SettingsValid s
  · have hfirst : (productConfigSetSettings env s c).2 =
        { c with
          settings := s
          settingsLoadedFromStore := true
          store := Function.update c.store settingsKey
            (some (FieldBridgeSettings.layout.enc s)) } := by
      rw [productConfigSetSettings_of_valid hv, saveRecord_ok (h settingsKey), h settingsKey]
      rfl
    rw [hfirst, productConfigSetSettings_of_valid hv]
    dsimp only
    rw [saveRecord_of_holds env' holds_update, ite_self]
  · rw [productConfigSetSettings_of_invalid hv, productConfigSetSettings_of_invalid hv]

theorem setPeer_again (h : SavesSucceed env) (env' : StoreEnv) (index : ℤ)
    (peer : FieldBridgePeer) :
    (productConfigSetPeer env' index peer (productConfigSetPeer env index peer c).2).2 =
      (productConfigSetPeer env index peer c).2 := by
  by_cases hv : ∃ i, peerIndex index = some i ∧ PeerValid peer
  · obtain ⟨i, hi, hv⟩ := hv
    have hfirst : (productConfigSetPeer env index peer c).2 =
        { c with
          peers := Function.update c.peers i peer
          store := Function.update c.store (peerKey i)
            (some (FieldBridgePeer.layout.enc peer)) } := by
      rw [productConfigSetPeer_of_valid hi hv, saveRecord_ok (h (peerKey i))]
    rw [hfirst, productConfigSetPeer_of_valid hi hv]
    dsimp only
    rw [saveRecord_of_holds env' holds_update, Function.update_idem]
  · have hinvalid : ∀ i, peerIndex index = some i → ¬ PeerValid peer := fun i hi hp =>
      hv ⟨i, hi, hp⟩
    rw [productConfigSetPeer_of_invalid hinvalid, productConfigSetPeer_of_invalid hinvalid]

/-- A wipe made again starts from what the first one has left. -/
theorem wipe_again (h : SavesSucceed env) (env' : StoreEnv) {s : FieldBridgeSettings}
    (hw : Wiped s c) :
    (persistSaveAll env' { (persistSaveAll env c).2 with
      peers := fun _ => .zero, settings := s }).2 = (persistSaveAll env c).2 := by
  have hlive := @persistSaveAll_live env c
  have hsame : { (persistSaveAll env c).2 with peers := fun _ => .zero, settings := s } =
      (persistSaveAll env c).2 :=
    ConfigState.ext (hlive.2.trans hw.2).symm (hlive.1.trans hw.1).symm rfl rfl
  rw [hsame]
  exact persistSaveAll_of_stored env' (stored_persistSaveAll h)

/-- An operation succeeds only if it accepts its argument. -/
theorem accepts_of_run {op : ConfigOp} (h : (op.run env deviceId c).1 = .ok) : op.Accepts := by
  cases op with
  | setPeer index peer =>
    by_contra hv
    have hinvalid : ∀ i, peerIndex index = some i → ¬ PeerValid peer := fun i hi hp =>
      hv ⟨Option.isSome_iff_exists.mpr ⟨i, hi⟩, hp⟩
    simp [ConfigOp.run, productConfigSetPeer_of_invalid hinvalid] at h
  | setSettings s =>
    by_contra hv
    simp [ConfigOp.run, productConfigSetSettings_of_invalid hv] at h
  | resetAll => exact trivial
  | applyDefaults profile =>
    by_contra hv
    obtain ⟨hsmall, hlarge⟩ := not_or.mp hv
    simp [ConfigOp.run, productConfigApplyDefaults, hsmall, hlarge] at h

/-- If the saves succeed, it does so whenever it accepts its argument. -/
theorem run_ok_iff (h : SavesSucceed env) {op : ConfigOp} :
    (op.run env deviceId c).1 = .ok ↔ op.Accepts := by
  refine ⟨accepts_of_run, fun hv => ?_⟩
  cases op with
  | setPeer index peer =>
    obtain ⟨hi, hp⟩ := hv
    obtain ⟨i, hi⟩ := Option.isSome_iff_exists.mp hi
    simp only [ConfigOp.run, productConfigSetPeer_of_valid hi hp]
    exact h (peerKey i)
  | setSettings s =>
    simp only [ConfigOp.run, productConfigSetSettings_of_valid hv]
    exact h settingsKey
  | resetAll => exact persistSaveAll_ok h.savesAll
  | applyDefaults profile =>
    rcases hv with rfl | rfl
    · exact persistSaveAll_ok h.savesAll
    · exact persistSaveAll_ok h.savesAll

/-- **An operation made again changes nothing**, if the saves of the first time have succeeded. -/
theorem run_again (h : SavesSucceed env) (env' : StoreEnv) (op : ConfigOp) :
    (op.run env' deviceId (op.run env deviceId c).2).2 = (op.run env deviceId c).2 := by
  cases op with
  | setPeer index peer => exact setPeer_again h env' index peer
  | setSettings s => exact setSettings_again h env' s
  | resetAll => exact wipe_again h env' ⟨rfl, rfl⟩
  | applyDefaults profile =>
    unfold ConfigOp.run productConfigApplyDefaults
    dsimp only
    split_ifs
    · exact wipe_again h env' ⟨rfl, rfl⟩
    · exact wipe_again h env' ⟨rfl, rfl⟩
    · rfl

end MqttFieldBridge.Config
