import MqttFieldBridge.Config.Init
import Mathlib.Data.List.FinRange

/-! # Operations that fail

Every write to the configuration is one of four operations, `ConfigOp`. Each assigns to RAM first and
saves then, so an operation that fails may have changed something. `run_atomic_iff` says exactly when
it has not: when it refuses its argument before the first assignment, or when all it has assigned and
saved up to the save that fails was there already. -/

namespace MqttFieldBridge.Config

open MqttFieldBridge.CLib

/-- A call that writes the configuration. -/
inductive ConfigOp where
  | setPeer (index : ℤ) (peer : FieldBridgePeer)
  | setSettings (newSettings : FieldBridgeSettings)
  | resetAll
  | applyDefaults (profile : FieldBridgeDefaultsProfile)

def ConfigOp.run (env : StoreEnv) (deviceId : List Byte) :
    ConfigOp → ConfigState → Rc × ConfigState
  | setPeer index peer => productConfigSetPeer env index peer
  | setSettings newSettings => productConfigSetSettings env newSettings
  | resetAll => productConfigResetAll env deviceId
  | applyDefaults profile => productConfigApplyDefaults env deviceId profile

/-- The configuration after an operation, if there is one. -/
def afterOp (env : StoreEnv) (deviceId : List Byte) : Option ConfigOp → ConfigState → ConfigState
  | none, c => c
  | some op, c => (op.run env deviceId c).2

variable {env : StoreEnv} {deviceId : List Byte} {c : ConfigState}

/-! ### The saving loops -/

/-- The store after the loop that saves the peer slots. -/
def savePeers (env : StoreEnv) (peers : Fin fieldBridgePeerMax → FieldBridgePeer) :
    List (Fin fieldBridgePeerMax) → ConfigStore → ConfigStore
  | [], st => st
  | i :: is, st =>
    let r := saveRecord FieldBridgePeer.layout env st (peerKey i) (peers i)
    if r.1 ≠ .ok then st else savePeers env peers is r.2

/-- The saves of all peer slots succeed. -/
def PeersSave (env : StoreEnv) (is : List (Fin fieldBridgePeerMax)) : Prop :=
  ∀ i ∈ is, env.save (peerKey i) = .ok

instance (is : List (Fin fieldBridgePeerMax)) : Decidable (PeersSave env is) := by
  unfold PeersSave; infer_instance

theorem persistSavePeers_eq : ∀ (is : List (Fin fieldBridgePeerMax)) (c : ConfigState),
    persistSavePeers env is c =
      (if PeersSave env is then .ok else .err, { c with store := savePeers env c.peers is c.store })
  | [], c => by simp [persistSavePeers, savePeers, PeersSave]
  | i :: is, c => by
    rcases h : env.save (peerKey i) with _ | _
    · have ih := persistSavePeers_eq is { c with store :=
        (Function.update c.store (peerKey i) (some (FieldBridgePeer.layout.enc (c.peers i)))) }
      have hs : PeersSave env (i :: is) ↔ PeersSave env is := by simp [PeersSave, h]
      simp only [persistSavePeers, persistSave_eq, h, ne_eq, not_true, if_false, savePeers,
        saveRecord_ok h, hs]
      exact ih
    · have hs : ¬ PeersSave env (i :: is) := by simp [PeersSave, h]
      simp [persistSavePeers, persistSave_eq, h, savePeers, saveRecord_err h, hs]

/-- All saves of a wipe succeed. -/
def SavesAll (env : StoreEnv) : Prop :=
  PeersSave env (List.finRange fieldBridgePeerMax) ∧ env.save settingsKey = .ok

instance : Decidable (SavesAll env) := by unfold SavesAll; infer_instance

theorem persistSaveAll_ok (h : SavesAll env) : (persistSaveAll env c).1 = .ok := by
  obtain ⟨h1, h2⟩ := h
  simp only [persistSaveAll, persistSavePeers_eq, if_pos h1, persistSaveSettings_eq, h2]
  rfl

/-- A wipe that fails has saved some of the peer slots. -/
theorem persistSaveAll_err (h : ¬ SavesAll env) :
    persistSaveAll env c = (.err, { c with
      store := savePeers env c.peers (List.finRange fieldBridgePeerMax) c.store }) := by
  unfold persistSaveAll
  simp only [persistSavePeers_eq]
  by_cases h1 : PeersSave env (List.finRange fieldBridgePeerMax)
  · have h2 : env.save settingsKey = .err := Rc.ne_ok_iff.mp fun h2 => h ⟨h1, h2⟩
    simp [if_pos h1, persistSaveSettings_eq, h2, saveRecord_err h2]
  · simp [if_neg h1]

/-! ### When the loop leaves the store as it was -/

theorem savePeers_ne {peers : Fin fieldBridgePeerMax → FieldBridgePeer} {k : ℕ} :
    ∀ (is : List (Fin fieldBridgePeerMax)) (st : ConfigStore), (∀ i ∈ is, k ≠ peerKey i) →
      savePeers env peers is st k = st k
  | [], st, _ => rfl
  | i :: is, st, h => by
    rcases hs : env.save (peerKey i) with _ | _
    · simp only [savePeers, saveRecord_ok hs, ne_eq, not_true, if_false]
      rw [savePeers_ne is _ fun j hj => h j (List.mem_cons_of_mem _ hj)]
      exact Function.update_of_ne (h i List.mem_cons_self) _ _
    · simp [savePeers, saveRecord_err hs]

/-- A slot that is saved, and the slots after it. -/
theorem savePeers_cons_eq_self_iff {peers : Fin fieldBridgePeerMax → FieldBridgePeer}
    {i : Fin fieldBridgePeerMax} {is : List (Fin fieldBridgePeerMax)} {st : ConfigStore}
    (hs : env.save (peerKey i) = .ok) (hi : ∀ j ∈ is, i < j) :
    savePeers env peers (i :: is) st = st ↔
      Holds FieldBridgePeer.layout st (peerKey i) (peers i) ∧ savePeers env peers is st = st := by
  simp only [savePeers, saveRecord_ok hs, ne_eq, not_true, if_false]
  set st' := Function.update st (peerKey i) (some (FieldBridgePeer.layout.enc (peers i))) with hst'
  have hself : Holds FieldBridgePeer.layout st (peerKey i) (peers i) → st' = st := fun h => by
    rw [hst', ← h, Function.update_eq_self]
  constructor
  · intro h
    have hkey : ∀ j ∈ is, peerKey i ≠ peerKey j := fun j hj e => (hi j hj).ne (peerKey_injective e)
    have hholds : Holds FieldBridgePeer.layout st (peerKey i) (peers i) := by
      have hrow := congrFun h (peerKey i)
      rw [savePeers_ne is st' hkey, hst', Function.update_self] at hrow
      exact hrow.symm
    rw [hself hholds] at h
    exact ⟨hholds, h⟩
  · rintro ⟨hholds, h⟩
    rw [hself hholds]
    exact h

theorem savePeers_eq_self_iff {peers : Fin fieldBridgePeerMax → FieldBridgePeer} :
    ∀ (is : List (Fin fieldBridgePeerMax)) (st : ConfigStore), is.Pairwise (· < ·) →
      (savePeers env peers is st = st ↔ ∀ i ∈ is, (∀ j ∈ is, j ≤ i → env.save (peerKey j) = .ok) →
        Holds FieldBridgePeer.layout st (peerKey i) (peers i))
  | [], st, _ => by simp [savePeers]
  | i :: is, st, hp => by
    obtain ⟨hi, his⟩ := List.pairwise_cons.mp hp
    rcases hs : env.save (peerKey i) with _ | _
    · rw [savePeers_cons_eq_self_iff hs hi, savePeers_eq_self_iff is st his]
      constructor
      · rintro ⟨hholds, h⟩ k hk hsave
        rcases List.mem_cons.mp hk with rfl | hk
        · exact hholds
        · exact h k hk fun j hj hjk => hsave j (List.mem_cons_of_mem _ hj) hjk
      · intro h
        refine ⟨h i List.mem_cons_self fun j hj hji => ?_, fun k hk hsave => ?_⟩
        · rcases List.mem_cons.mp hj with rfl | hj
          · exact hs
          · exact absurd hji (not_le.mpr (hi j hj))
        · refine h k (List.mem_cons_of_mem _ hk) fun j hj hjk => ?_
          rcases List.mem_cons.mp hj with rfl | hj
          · exact hs
          · exact hsave j hj hjk
    · -- the save of the first slot fails, so none counts as saved
      simp only [savePeers, saveRecord_err hs, ne_eq, reduceCtorEq, not_false_iff, if_true, true_iff]
      intro k hk hsave
      have hle : i ≤ k := by
        rcases List.mem_cons.mp hk with rfl | hk
        · exact le_rfl
        · exact (hi k hk).le
      rw [hsave i List.mem_cons_self hle] at hs
      cases hs

/-! ### When an operation that fails has changed nothing -/

/-- A wipe to `settings` succeeds, or everything it assigns and saves before the save that fails was
there already. -/
def WipesCleanly (env : StoreEnv) (settings : FieldBridgeSettings) (c : ConfigState) : Prop :=
  SavesAll env ∨ ((∀ i, c.peers i = .zero) ∧ c.settings = settings ∧
    ∀ i, (∀ j ≤ i, env.save (peerKey j) = .ok) →
      Holds FieldBridgePeer.layout c.store (peerKey i) .zero)

/-- **When a call changes nothing if it fails.** -/
def FailsCleanly (env : StoreEnv) (deviceId : List Byte) (c : ConfigState) : ConfigOp → Prop
  | .setPeer index peer => ∀ i, peerIndex index = some i → PeerValid peer →
      env.save (peerKey i) = .ok ∨ c.peers i = peer
  | .setSettings newSettings => SettingsValid newSettings →
      env.save settingsKey = .ok ∨ c.settings = newSettings
  | .resetAll => WipesCleanly env (defaultSettings deviceId) c
  | .applyDefaults profile =>
    if profile = profileSmall then WipesCleanly env (defaultSettings deviceId) c
    else if profile = profileLarge then WipesCleanly env (largeDefaultSettings deviceId) c
    else ∀ i, c.peers i = .zero

theorem setPeer_atomic_iff {index : ℤ} {peer : FieldBridgePeer} :
    ((productConfigSetPeer env index peer c).1 = .err →
      (productConfigSetPeer env index peer c).2 = c) ↔
      FailsCleanly env deviceId c (.setPeer index peer) := by
  by_cases hv : ∃ i, peerIndex index = some i ∧ PeerValid peer
  · obtain ⟨i, hi, hv⟩ := hv
    have hclean : FailsCleanly env deviceId c (.setPeer index peer) ↔
        env.save (peerKey i) = .ok ∨ c.peers i = peer := by
      refine ⟨fun h => h i hi hv, fun h j hj _ => ?_⟩
      rw [hi] at hj
      cases hj
      exact h
    rw [hclean, productConfigSetPeer_of_valid hi hv]
    rcases hs : env.save (peerKey i) with _ | _
    · simp
    · rw [ConfigState.ext_iff]
      simp [saveRecord_err hs, eq_comm]
  · have hv' : ∀ i, peerIndex index = some i → ¬ PeerValid peer := fun i hi h => hv ⟨i, hi, h⟩
    rw [productConfigSetPeer_of_invalid hv']
    exact ⟨fun _ i hi h => absurd h (hv' i hi), fun _ _ => rfl⟩

theorem setSettings_atomic_iff {newSettings : FieldBridgeSettings} :
    ((productConfigSetSettings env newSettings c).1 = .err →
      (productConfigSetSettings env newSettings c).2 = c) ↔
      FailsCleanly env deviceId c (.setSettings newSettings) := by
  by_cases hv : SettingsValid newSettings
  · have hclean : FailsCleanly env deviceId c (.setSettings newSettings) ↔
        env.save settingsKey = .ok ∨ c.settings = newSettings := ⟨fun h => h hv, fun h _ => h⟩
    rw [hclean, productConfigSetSettings_of_valid hv]
    rcases hs : env.save settingsKey with _ | _
    · simp
    · rw [ConfigState.ext_iff]
      simp [saveRecord_err hs, eq_comm]
  · rw [productConfigSetSettings_of_invalid hv]
    exact ⟨fun _ h => absurd h hv, fun _ _ => rfl⟩

theorem wipe_atomic_iff {settings : FieldBridgeSettings} {r : Rc × ConfigState}
    (hr : r = persistSaveAll env { c with peers := fun _ => .zero, settings := settings }) :
    (r.1 = .err → r.2 = c) ↔ WipesCleanly env settings c := by
  subst hr
  by_cases h : SavesAll env
  · exact ⟨fun _ => Or.inl h, fun _ he => by rw [persistSaveAll_ok h] at he; cases he⟩
  · have hsaves := @savePeers_eq_self_iff env (fun _ => .zero)
      (List.finRange fieldBridgePeerMax) c.store (List.pairwise_lt_finRange _)
    have hmem : ∀ i : Fin fieldBridgePeerMax, i ∈ List.finRange fieldBridgePeerMax :=
      List.mem_finRange
    rw [persistSaveAll_err h]
    constructor
    · intro hc
      have hc := ConfigState.ext_iff.mp (hc rfl)
      refine Or.inr ⟨fun i => (congrFun hc.1 i).symm, hc.2.1.symm, fun i hi => ?_⟩
      exact hsaves.mp hc.2.2.2 i (hmem i) fun j _ hj => hi j hj
    · rintro (hs | ⟨hp, hset, hst⟩) _
      · exact absurd hs h
      · have hpeers : c.peers = fun _ => .zero := funext hp
        refine ConfigState.ext hpeers.symm hset.symm rfl (hsaves.mpr fun i _ hi => ?_)
        exact hst i fun j hj => hi j (hmem j) hj

/-- **A call that fails has changed nothing if and only if it fails cleanly.** -/
theorem run_atomic_iff {op : ConfigOp} :
    ((op.run env deviceId c).1 = .err → (op.run env deviceId c).2 = c) ↔
      FailsCleanly env deviceId c op := by
  cases op with
  | setPeer index peer => exact setPeer_atomic_iff
  | setSettings newSettings => exact setSettings_atomic_iff
  | resetAll => exact wipe_atomic_iff rfl
  | applyDefaults profile =>
    simp only [FailsCleanly, ConfigOp.run, productConfigApplyDefaults]
    split_ifs with hs hl
    · exact wipe_atomic_iff rfl
    · exact wipe_atomic_iff rfl
    · have hc : ({ c with peers := fun _ => .zero } : ConfigState) = c ↔
          ∀ i, c.peers i = .zero := by
        rw [ConfigState.ext_iff]
        simp only [and_true, funext_iff]
        exact forall_congr' fun i => eq_comm
      simpa only [true_implies] using hc

/-- A peer slot as the console saves it. -/
def examplePeer : FieldBridgePeer where
  name := (CharArray.zero _).snprintf (str "node2")
  host := (CharArray.zero _).snprintf (str "10.78.0.23")
  mqttPort := 1883
  p2pPort := 4884
  enabled := 1

/-- On a device with one configured peer, an unknown profile is refused and the peer is gone. -/
theorem applyDefaults_unknown_wipes :
    let c := (productConfigSetPeer .good 0 examplePeer
      (productConfigInit .good [] (powerOn .empty))).2
    (productConfigApplyDefaults .good [] 99 c).1 = .err ∧
      (productConfigApplyDefaults .good [] 99 c).2 ≠ c := by
  intro c
  refine ⟨rfl, fun h => ?_⟩
  have hc : c.peers 0 = examplePeer := rfl
  have h0 := congrFun (congrArg ConfigState.peers h) 0
  rw [hc] at h0
  exact absurd (congrArg FieldBridgePeer.enabled h0) (by decide)

end MqttFieldBridge.Config
