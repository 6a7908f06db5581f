import MqttFieldBridge.Config.Atomic

/-! # What every operation keeps

Let `P` be a property of settings and `Q` one of peers that the defaults have. If the live records
have it and every record of the store is one that has it (`Keeps`), then this is so after start-up
(`keeps_init`) and after every operation that is asked to store such records only (`Keeps.afterOp`),
whichever saves fail. -/

namespace MqttFieldBridge.Config

open MqttFieldBridge.CLib

section Records

variable (P : FieldBridgeSettings → Prop) (Q : FieldBridgePeer → Prop)

/-- A record that may be in the store under this key. -/
inductive RecordKept : ℕ → List Byte → Prop
  | settings {s : FieldBridgeSettings} (h : P s) :
    RecordKept settingsKey (FieldBridgeSettings.layout.enc s)
  | peer (i : Fin fieldBridgePeerMax) {p : FieldBridgePeer} (h : Q p) :
    RecordKept (peerKey i) (FieldBridgePeer.layout.enc p)

/-- There is no other record in the store. -/
def StoreKeeps (st : ConfigStore) : Prop := ∀ key b, st key = some b → RecordKept P Q key b

structure Keeps (c : ConfigState) : Prop where
  settings : P c.settings
  peers : ∀ i, Q (c.peers i)
  stored : StoreKeeps P Q c.store

/-- The records that the module makes by itself have the properties. -/
structure DefaultsKept : Prop where
  default : ∀ deviceId, P (defaultSettings deviceId)
  large : ∀ deviceId, P (largeDefaultSettings deviceId)
  zero : Q .zero

/-- What an operation is asked to store has the property, if it passes the checks. -/
def Admits : ConfigOp → Prop
  | .setPeer _ peer => PeerValid peer → Q peer
  | .setSettings newSettings => SettingsValid newSettings → P newSettings
  | .resetAll | .applyDefaults _ => True

end Records

variable {P : FieldBridgeSettings → Prop} {Q : FieldBridgePeer → Prop} {env : StoreEnv}
  {deviceId : List Byte} {c : ConfigState} {st : ConfigStore}

/-! ### The store -/

theorem storeKeeps_empty : StoreKeeps P Q .empty := fun _ _ h => (by cases h)

theorem StoreKeeps.save {α : Type} {L : Layout α} {key : ℕ} {a : α} (h : StoreKeeps P Q st)
    (hr : RecordKept P Q key (L.enc a)) : StoreKeeps P Q (saveRecord L env st key a).2 := by
  intro k b hk
  by_cases hkey : k = key
  · subst hkey
    rcases @saveRecord_self _ L env st k a with hs | hs
    · rw [hs] at hk
      exact Option.some.inj hk ▸ hr
    · exact h k b (hs.symm.trans hk)
  · rw [saveRecord_ne hkey] at hk
    exact h k b hk

theorem StoreKeeps.savePeers {peers : Fin fieldBridgePeerMax → FieldBridgePeer}
    (hp : ∀ i, Q (peers i)) : ∀ (is : List (Fin fieldBridgePeerMax)) (st : ConfigStore),
      StoreKeeps P Q st → StoreKeeps P Q (savePeers env peers is st)
  | [], _, h => h
  | i :: is, st, h => by
    unfold Config.savePeers
    dsimp only
    split_ifs
    · exact h
    · exact StoreKeeps.savePeers hp is _ (h.save (.peer i (hp i)))

/-- A settings record in the store has the property and the current size. -/
theorem StoreKeeps.settings {b : List Byte} (h : StoreKeeps P Q st)
    (hb : st settingsKey = some b) : ∃ s, P s ∧ b = FieldBridgeSettings.layout.enc s := by
  generalize hk : settingsKey = k at hb
  cases h k b hb with
  | settings hs => exact ⟨_, hs, rfl⟩
  | peer i => exact absurd hk.symm (peerKey_ne_settingsKey i)

theorem StoreKeeps.peer {i : Fin fieldBridgePeerMax} {b : List Byte} (h : StoreKeeps P Q st)
    (hb : st (peerKey i) = some b) : ∃ p, Q p ∧ b = FieldBridgePeer.layout.enc p := by
  generalize hk : peerKey i = k at hb
  cases h k b hb with
  | settings => exact absurd hk (peerKey_ne_settingsKey i)
  | peer j hp => exact ⟨_, hp, rfl⟩

/-! ### Start-up -/

theorem StoreKeeps.loadSettings {s : FieldBridgeSettings} (h : StoreKeeps P Q st)
    (hl : loadSettings env st = some s) : P s := by
  obtain ⟨hl, -⟩ := loadSettings_eq_some.mp hl
  obtain ⟨b, hb, -, rfl⟩ := loadRecord_eq_some hl
  obtain ⟨s, hs, rfl⟩ := h.settings hb
  rw [Layout.dec_enc]
  exact hs

/-- There is no record of the older size. -/
theorem StoreKeeps.loadLegacySettings (h : StoreKeeps P Q st) :
    loadLegacySettings env st = none := by
  refine Option.eq_none_iff_forall_ne_some.mpr fun s hs => ?_
  obtain ⟨l, hl, -, -⟩ := loadLegacySettings_eq_some.mp hs
  obtain ⟨b, hb, hlen, -⟩ := loadRecord_eq_some hl
  obtain ⟨s, -, rfl⟩ := h.settings hb
  rw [Layout.length_enc] at hlen
  exact absurd hlen (by decide)

theorem StoreKeeps.loadPeer (hd : DefaultsKept P Q) (h : StoreKeeps P Q st)
    (i : Fin fieldBridgePeerMax) : Q (loadPeer env st i) := by
  unfold Config.loadPeer
  rcases hl : loadRecord FieldBridgePeer.layout env st (peerKey i) with _ | p
  · exact hd.zero
  · obtain ⟨b, hb, -, rfl⟩ := loadRecord_eq_some hl
    obtain ⟨p, hp, rfl⟩ := h.peer hb
    rw [Option.getD_some, Layout.dec_enc]
    exact hp

theorem keeps_init (hd : DefaultsKept P Q) (h : StoreKeeps P Q c.store) :
    Keeps P Q (productConfigInit env deviceId c) := by
  refine ⟨?_, fun i => ?_, ?_⟩
  · rw [productConfigInit_settings, initSettings, h.loadLegacySettings, Option.or_none]
    split_ifs
    · rcases hs : loadSettings env c.store with _ | s
      · exact hd.default deviceId
      · exact h.loadSettings hs
    · exact hd.default deviceId
  · rw [productConfigInit_peers, initPeers]
    split_ifs
    · exact h.loadPeer hd i
    · exact hd.zero
  · rcases @productConfigInit_store env deviceId c with hst | ⟨s, -, hl, -⟩
    · rw [hst]
      exact h
    · rw [h.loadLegacySettings] at hl
      cases hl

/-! ### Operations -/

theorem Keeps.persistSaveSettings (h : Keeps P Q c) : Keeps P Q (persistSaveSettings env c).2 := by
  rw [persistSaveSettings_eq]
  exact ⟨h.settings, h.peers, h.stored.save (.settings h.settings)⟩

theorem Keeps.persistSavePeers (h : Keeps P Q c) (is : List (Fin fieldBridgePeerMax)) :
    Keeps P Q (persistSavePeers env is c).2 := by
  rw [persistSavePeers_eq]
  exact ⟨h.settings, h.peers, h.stored.savePeers h.peers is c.store⟩

theorem Keeps.persistSaveAll (h : Keeps P Q c) : Keeps P Q (persistSaveAll env c).2 := by
  have hpeers : Keeps P Q (Config.persistSavePeers env (List.finRange fieldBridgePeerMax) c).2 :=
    h.persistSavePeers _
  have hall : Keeps P Q (Config.persistSaveSettings env
      (Config.persistSavePeers env (List.finRange fieldBridgePeerMax) c).2).2 :=
    hpeers.persistSaveSettings
  unfold Config.persistSaveAll
  dsimp only
  split_ifs
  · exact hpeers
  · exact hall
  · exact ⟨hall.settings, hall.peers, hall.stored⟩

theorem Keeps.setPeer {index : ℤ} {peer : FieldBridgePeer} (h : Keeps P Q c)
    (ha : Admits P Q (.setPeer index peer)) :
    Keeps P Q (productConfigSetPeer env index peer c).2 := by
  by_cases hv : ∃ i, peerIndex index = some i ∧ PeerValid peer
  · obtain ⟨i, hi, hv⟩ := hv
    rw [productConfigSetPeer_of_valid hi hv]
    refine ⟨h.settings, fun j => ?_, h.stored.save (.peer i (ha hv))⟩
    by_cases hj : j = i
    · subst hj
      simpa using ha hv
    · simpa [Function.update_of_ne hj] using h.peers j
  · rw [productConfigSetPeer_of_invalid fun i hi hp => hv ⟨i, hi, hp⟩]
    exact h

theorem Keeps.setSettings {s : FieldBridgeSettings} (h : Keeps P Q c)
    (ha : Admits P Q (.setSettings s)) : Keeps P Q (productConfigSetSettings env s c).2 := by
  by_cases hv : SettingsValid s
  · rw [productConfigSetSettings_of_valid hv]
    exact ⟨ha hv, h.peers, h.stored.save (.settings (ha hv))⟩
  · rw [productConfigSetSettings_of_invalid hv]
    exact h

/-- A wipe to settings that have the property. -/
theorem Keeps.wipe {s : FieldBridgeSettings} (h : Keeps P Q c) (hd : DefaultsKept P Q) (hs : P s) :
    Keeps P Q (Config.persistSaveAll env { c with peers := fun _ => .zero, settings := s }).2 :=
  Keeps.persistSaveAll ⟨hs, fun _ => hd.zero, h.stored⟩

/-- **Every operation keeps what it is asked to keep.** -/
theorem Keeps.run {op : ConfigOp} (h : Keeps P Q c) (hd : DefaultsKept P Q) (ha : Admits P Q op) :
    Keeps P Q (op.run env deviceId c).2 := by
  cases op with
  | setPeer index peer => exact h.setPeer ha
  | setSettings newSettings => exact h.setSettings ha
  | resetAll => exact h.wipe hd (hd.default deviceId)
  | applyDefaults profile =>
    simp only [ConfigOp.run, productConfigApplyDefaults]
    split_ifs
    · exact h.wipe hd (hd.default deviceId)
    · exact h.wipe hd (hd.large deviceId)
    · exact ⟨h.settings, fun _ => hd.zero, h.stored⟩

theorem Keeps.afterOp {op : Option ConfigOp} (h : Keeps P Q c) (hd : DefaultsKept P Q)
    (ha : ∀ o, op = some o → Admits P Q o) : Keeps P Q (afterOp env deviceId op c) := by
  cases op with
  | none => exact h
  | some op => exact h.run hd (ha op rfl)

end MqttFieldBridge.Config
