import MqttFieldBridge.Config.Api

/-! # What start-up makes of the store

The settings that `product_config_init` leaves are a current record that loads and passes the checks,
or else a v1 record that does after its migration, or else the defaults (`initSettings`); the peer
slots are what the peer keys hold.

* `productConfigInit_migrates_iff`: a valid v1 record is carried over unless one of its ports is the
  fallback port that the migration invents.
* `productConfigInit_sound_iff`: the configuration is sound if and only if the records that load
  are, since nothing looks at a peer record or for the end of a string. -/

namespace MqttFieldBridge.Config

open MqttFieldBridge.CLib

variable {env : StoreEnv} {deviceId : List Byte} {c : ConfigState}

theorem loadSettings_eq_some {st : ConfigStore} {s : FieldBridgeSettings} :
    loadSettings env st = some s ↔
      loadRecord FieldBridgeSettings.layout env st settingsKey = some s ∧ SettingsValid s := by
  unfold loadSettings
  rcases hl : loadRecord FieldBridgeSettings.layout env st settingsKey with _ | s'
  · simp
  · by_cases hv : validateSettings s' = .ok
    · simp only [if_pos hv, Option.some.injEq]
      exact ⟨fun h => ⟨h, h ▸ validateSettings_ok_iff.mp hv⟩, fun h => h.1⟩
    · simp only [if_neg hv, Option.some.injEq, reduceCtorEq, false_iff]
      exact fun h => hv (validateSettings_ok_iff.mpr (h.1 ▸ h.2))

theorem loadLegacySettings_eq_some {st : ConfigStore} {s : FieldBridgeSettings} :
    loadLegacySettings env st = some s ↔
      ∃ l, loadRecord FieldBridgeSettingsV1.layout env st settingsKey = some l ∧
        s = migrateLegacy l ∧ SettingsValid (migrateLegacy l) := by
  unfold loadLegacySettings
  rcases hl : loadRecord FieldBridgeSettingsV1.layout env st settingsKey with _ | l
  · simp
  · simp only [Option.some.injEq, exists_eq_left']
    by_cases hv : validateSettings (migrateLegacy l) = .ok
    · rw [if_pos hv]
      exact ⟨fun h => ⟨(Option.some.inj h).symm, validateSettings_ok_iff.mp hv⟩,
        fun h => by rw [h.1]⟩
    · rw [if_neg hv]
      exact ⟨fun h => by simp at h, fun h => absurd (validateSettings_ok_iff.mpr h.2) hv⟩

/-- The settings that start-up leaves. -/
def initSettings (env : StoreEnv) (deviceId : List Byte) (st : ConfigStore) :
    FieldBridgeSettings :=
  if env.init = .ok then
    ((loadSettings env st).or (loadLegacySettings env st)).getD (defaultSettings deviceId)
  else defaultSettings deviceId

/-- The peer slots that start-up leaves. -/
def initPeers (env : StoreEnv) (st : ConfigStore) (i : Fin fieldBridgePeerMax) :
    FieldBridgePeer :=
  if env.init = .ok then loadPeer env st i else .zero

theorem productConfigInit_settings :
    (productConfigInit env deviceId c).settings = initSettings env deviceId c.store := by
  unfold productConfigInit persistLoad initSettings
  by_cases hi : env.init = .ok
  · rcases hs : loadSettings env c.store with _ | s
    · rcases hl : loadLegacySettings env c.store with _ | s
      · simp [hi, hs, hl, settingsDefaults_eq]
      · simp [hi, hs, hl, persistSaveSettings]
    · simp [hi, hs]
  · simp [Rc.ne_ok_iff.mp hi, settingsDefaults_eq]

theorem productConfigInit_peers :
    (productConfigInit env deviceId c).peers = initPeers env c.store := by
  unfold productConfigInit persistLoad
  funext i
  unfold initPeers
  by_cases hi : env.init = .ok
  · rcases hs : loadSettings env c.store with _ | s
    · rcases hl : loadLegacySettings env c.store with _ | s
      · simp [hi, hs, hl]
      · simp [hi, hs, hl, persistSaveSettings]
    · simp [hi, hs]
  · simp [Rc.ne_ok_iff.mp hi]

/-- Start-up writes to the store only to save a migrated record. -/
theorem productConfigInit_store :
    (productConfigInit env deviceId c).store = c.store ∨
      ∃ s, loadSettings env c.store = none ∧ loadLegacySettings env c.store = some s ∧
        (productConfigInit env deviceId c).store =
          (saveRecord FieldBridgeSettings.layout env c.store settingsKey s).2 := by
  unfold productConfigInit persistLoad
  by_cases hi : env.init = .ok
  · rcases hs : loadSettings env c.store with _ | s
    · rcases hl : loadLegacySettings env c.store with _ | s
      · simp [hi, hs, hl]
      · exact Or.inr ⟨s, rfl, rfl, by simp [hi, hs, hl, persistSaveSettings]⟩
    · simp [hi, hs]
  · simp [Rc.ne_ok_iff.mp hi]

theorem settingsValid_initSettings (st : ConfigStore) :
    SettingsValid (initSettings env deviceId st) := by
  unfold initSettings
  split_ifs
  · rcases hs : loadSettings env st with _ | s
    · rcases hl : loadLegacySettings env st with _ | s
      · exact (settingsSound_default deviceId).valid
      · obtain ⟨l, -, rfl, hv⟩ := loadLegacySettings_eq_some.mp hl
        exact hv
    · exact (loadSettings_eq_some.mp hs).2
  · exact (settingsSound_default deviceId).valid

/-! ### Migration -/

/-- The settings carry every value of a v1 record. -/
structure CarriesV1 (legacy : FieldBridgeSettingsV1) (s : FieldBridgeSettings) : Prop where
  system : s.system = legacy.system
  network : s.network = legacy.network
  brokerIp : s.broker.brokerIp.text = legacy.broker.brokerIp.text
  siteId : s.broker.siteId.text = legacy.broker.siteId.text
  topicPrefix : s.broker.topicPrefix.text = legacy.broker.topicPrefix.text
  mqttPort : s.broker.mqttPort = legacy.broker.mqttPort
  p2pPort : s.broker.p2pPort = legacy.broker.p2pPort
  brokerEnabled : s.broker.brokerEnabled = legacy.broker.brokerEnabled
  bridgeEnabled : s.broker.bridgeEnabled = legacy.broker.bridgeEnabled
  meshEnabled : s.broker.meshEnabled = legacy.broker.meshEnabled

structure TerminatedV1 (legacy : FieldBridgeSettingsV1) : Prop where
  deviceName : legacy.system.deviceName.Terminated
  network : NetworkTerminated legacy.network
  brokerIp : legacy.broker.brokerIp.Terminated
  siteId : legacy.broker.siteId.Terminated
  topicPrefix : legacy.broker.topicPrefix.Terminated

theorem text_migrate {n : ℕ} (a : CharArray n) (h : a.Terminated) :
    ((CharArray.zero n).strncpy a.text).text = a.text := by
  have hl := CharArray.length_text_lt h
  exact CharArray.text_strncpy (CharArray.getLast?_zero (by omega)) a.zero_notMem_text hl

theorem first_migrate {n : ℕ} (a : CharArray n) (h : a.Terminated) :
    ((CharArray.zero n).strncpy a.text).first = 0 ↔ a.first = 0 := by
  rw [← CharArray.text_eq_nil_iff, text_migrate a h, CharArray.text_eq_nil_iff]

theorem carriesV1_migrateLegacy {legacy : FieldBridgeSettingsV1} (ht : TerminatedV1 legacy) :
    CarriesV1 legacy (migrateLegacy legacy) :=
  ⟨rfl, rfl, text_migrate _ ht.brokerIp, text_migrate _ ht.siteId, text_migrate _ ht.topicPrefix,
    rfl, rfl, rfl, rfl, rfl⟩

/-- **The migrated record passes the checks** if no v1 port is the invented one. -/
theorem settingsValid_migrateLegacy_iff {legacy : FieldBridgeSettingsV1}
    (ht : TerminatedV1 legacy)
    (hv : SettingsValidV1 legacy.system legacy.network legacy.broker) :
    SettingsValid (migrateLegacy legacy) ↔
      legacy.broker.mqttPort ≠ 1884 ∧ legacy.broker.p2pPort ≠ 1884 := by
  constructor
  · intro h
    exact ⟨fun e => h.ne_mqttPort e.symm, fun e => h.ne_p2pPort e.symm⟩
  · rintro ⟨hm, hp⟩
    have hfirst {n : ℕ} {a : CharArray n} (ha : a.Terminated) (hne : a.first ≠ 0) :
        ((CharArray.zero n).strncpy a.text).first ≠ 0 := fun e => hne ((first_migrate a ha).mp e)
    exact
      { v1 :=
          { hv with
            brokerIp := hfirst ht.brokerIp hv.brokerIp
            siteId := hfirst ht.siteId hv.siteId
            topicPrefix := hfirst ht.topicPrefix hv.topicPrefix }
        fallbackPort := by simp [migrateLegacy]
        ne_mqttPort := hm.symm
        ne_p2pPort := hp.symm
        ne_http := by simp [migrateLegacy] }

/-- Nothing fails when the settings are read. -/
structure Readable (env : StoreEnv) : Prop where
  init : env.init = .ok
  load : ∀ size, env.load settingsKey size = .ok

/-- What migration promises for the state `c'` that start-up leaves. -/
structure Migrated (env : StoreEnv) (legacy : FieldBridgeSettingsV1) (c' : ConfigState) : Prop where
  carries : CarriesV1 legacy c'.settings
  valid : SettingsValid c'.settings
  stored : env.save settingsKey = .ok →
    Holds FieldBridgeSettings.layout c'.store settingsKey c'.settings
  loaded : productConfigHasSavedSettings c' = true

theorem productConfigInit_of_legacy {legacy : FieldBridgeSettingsV1} (hr : Readable env)
    (hst : Holds FieldBridgeSettingsV1.layout c.store settingsKey legacy)
    (hv : SettingsValid (migrateLegacy legacy)) :
    productConfigInit env deviceId c =
      { peers := loadPeer env c.store
        settings := migrateLegacy legacy
        settingsLoadedFromStore := true
        store := (saveRecord FieldBridgeSettings.layout env c.store settingsKey
          (migrateLegacy legacy)).2 } := by
  have h2 : loadSettings env c.store = none := by
    unfold loadSettings
    rw [loadRecord_size_ne hst (by decide)]
  have h1 : loadLegacySettings env c.store = some (migrateLegacy legacy) :=
    loadLegacySettings_eq_some.mpr ⟨legacy, loadRecord_of_holds hst (hr.load _), rfl, hv⟩
  simp [productConfigInit, persistLoad, hr.init, h1, h2, persistSaveSettings]

/-- Where the migrated record is refused, the defaults take its place. -/
theorem productConfigInit_of_refused {legacy : FieldBridgeSettingsV1} (hr : Readable env)
    (hst : Holds FieldBridgeSettingsV1.layout c.store settingsKey legacy)
    (hv : ¬ SettingsValid (migrateLegacy legacy)) :
    productConfigInit env deviceId c =
      { peers := loadPeer env c.store
        settings := defaultSettings deviceId
        settingsLoadedFromStore := false
        store := c.store } := by
  have h2 : loadSettings env c.store = none := by
    unfold loadSettings
    rw [loadRecord_size_ne hst (by decide)]
  have h1 : loadLegacySettings env c.store = none := by
    refine Option.eq_none_iff_forall_ne_some.mpr fun s hs => ?_
    obtain ⟨l, hl, -, hvl⟩ := loadLegacySettings_eq_some.mp hs
    rw [eq_of_loadRecord hst hl] at hvl
    exact hv hvl
  simp [productConfigInit, persistLoad, hr.init, h1, h2, settingsDefaults_eq]

/-- **A valid v1 record is migrated if and only if the invented fallback port is free.** -/
theorem productConfigInit_migrates_iff {legacy : FieldBridgeSettingsV1} (hr : Readable env)
    (hst : Holds FieldBridgeSettingsV1.layout c.store settingsKey legacy)
    (ht : TerminatedV1 legacy)
    (hv : SettingsValidV1 legacy.system legacy.network legacy.broker) :
    Migrated env legacy (productConfigInit env deviceId c) ↔
      legacy.broker.mqttPort ≠ 1884 ∧ legacy.broker.p2pPort ≠ 1884 := by
  rw [← settingsValid_migrateLegacy_iff ht hv]
  constructor
  · intro h
    by_contra hm
    have := h.loaded
    rw [productConfigInit_of_refused hr hst hm] at this
    simp [productConfigHasSavedSettings] at this
  · intro hm
    rw [productConfigInit_of_legacy hr hst hm]
    exact ⟨carriesV1_migrateLegacy ht, hm, holds_saveRecord, rfl⟩

/-- The state at power-on: RAM is zeroed and the store holds `st`. -/
def powerOn (st : ConfigStore) : ConfigState := ⟨fun _ => .zero, .zero, false, st⟩

/-- The configuration after start-up with an empty store. -/
def freshConfig : ConfigState := productConfigInit .good [] (powerOn .empty)

/-- The v1 record of a device whose broker listens on `mqttPort`. -/
def legacyExample (mqttPort : UInt16) : FieldBridgeSettingsV1 :=
  let d := defaultSettings []
  { system := d.system
    network := d.network
    broker := { d.broker.toV1 with mqttPort := mqttPort } }

/-- The store of this device. -/
def legacyStore (mqttPort : UInt16) : ConfigStore :=
  Function.update ConfigStore.empty settingsKey
    (some (FieldBridgeSettingsV1.layout.enc (legacyExample mqttPort)))

theorem holds_legacyStore (mqttPort : UInt16) :
    Holds FieldBridgeSettingsV1.layout (legacyStore mqttPort) settingsKey
      (legacyExample mqttPort) :=
  holds_update

theorem terminatedV1_legacyExample (mqttPort : UInt16) :
    TerminatedV1 (legacyExample mqttPort) := by
  obtain ⟨a, n, b, d, e⟩ := (settingsSound_default []).terminated
  exact ⟨a, n, b, d, e⟩

theorem settingsValidV1_legacyExample {mqttPort : UInt16} (h : mqttPort ≠ 0) :
    SettingsValidV1 (legacyExample mqttPort).system (legacyExample mqttPort).network
      (legacyExample mqttPort).broker :=
  { (settingsSound_default []).valid.v1 with mqttPort := h }

theorem productConfigInit_migrates_1883 :
    Migrated .good (legacyExample 1883) (productConfigInit .good [] (powerOn (legacyStore 1883))) :=
  (productConfigInit_migrates_iff ⟨rfl, fun _ => rfl⟩ (holds_legacyStore _)
    (terminatedV1_legacyExample _) (settingsValidV1_legacyExample (by decide))).mpr (by decide)

/-- A v1 device whose broker listens on port 1884 loses its configuration. -/
theorem productConfigInit_loses_1884 :
    TerminatedV1 (legacyExample 1884) ∧
      SettingsValidV1 (legacyExample 1884).system (legacyExample 1884).network
        (legacyExample 1884).broker ∧
      ¬ Migrated .good (legacyExample 1884)
        (productConfigInit .good [] (powerOn (legacyStore 1884))) := by
  refine ⟨terminatedV1_legacyExample _, settingsValidV1_legacyExample (by decide), fun h => ?_⟩
  have hm : ¬ SettingsValid (migrateLegacy (legacyExample 1884)) := fun hv =>
    hv.ne_mqttPort rfl
  have := h.loaded
  rw [productConfigInit_of_refused ⟨rfl, fun _ => rfl⟩ (holds_legacyStore 1884) hm] at this
  simp [productConfigHasSavedSettings] at this

/-! ### Sanitising -/

/-- The configuration every reader of the module may rely on. -/
structure ConfigSound (c : ConfigState) : Prop where
  settings : SettingsSound c.settings
  peers : ∀ i, PeerSound (c.peers i)

/-- The records that start-up adopts are sound. -/
structure RecordsSound (env : StoreEnv) (st : ConfigStore) : Prop where
  peers : ∀ i p, loadRecord FieldBridgePeer.layout env st (peerKey i) = some p → PeerSound p
  settings : ∀ s, loadRecord FieldBridgeSettings.layout env st settingsKey = some s →
    SettingsValid s → SettingsTerminated s
  legacy : (∀ s, loadRecord FieldBridgeSettings.layout env st settingsKey = some s →
      ¬ SettingsValid s) →
    ∀ l, loadRecord FieldBridgeSettingsV1.layout env st settingsKey = some l →
      SettingsValid (migrateLegacy l) →
        l.system.deviceName.Terminated ∧ NetworkTerminated l.network

theorem terminated_migrate {n : ℕ} (a : CharArray n) (hn : 0 < n) :
    ((CharArray.zero n).strncpy a.text).Terminated :=
  CharArray.terminated_strncpy (CharArray.getLast?_zero hn)

/-- Migration copies the broker's strings one by one, the other structures whole. -/
theorem settingsTerminated_migrateLegacy_iff {l : FieldBridgeSettingsV1} :
    SettingsTerminated (migrateLegacy l) ↔
      l.system.deviceName.Terminated ∧ NetworkTerminated l.network :=
  ⟨fun h => ⟨h.deviceName, h.network⟩, fun h =>
    ⟨h.1, h.2, terminated_migrate _ (by decide), terminated_migrate _ (by decide),
      terminated_migrate _ (by decide)⟩⟩

theorem peerSound_loadPeer_iff {st : ConfigStore} {i : Fin fieldBridgePeerMax} :
    PeerSound (loadPeer env st i) ↔
      ∀ p, loadRecord FieldBridgePeer.layout env st (peerKey i) = some p → PeerSound p := by
  unfold loadPeer
  rcases loadRecord FieldBridgePeer.layout env st (peerKey i) with _ | p
  · simp [peerSound_zero]
  · simp

theorem settingsSound_initSettings_iff {st : ConfigStore} (hi : env.init = .ok) :
    SettingsSound (initSettings env deviceId st) ↔
      (∀ s, loadSettings env st = some s → SettingsTerminated s) ∧
      (loadSettings env st = none → ∀ s, loadLegacySettings env st = some s →
        SettingsTerminated s) := by
  have hsound : SettingsSound (initSettings env deviceId st) ↔
      SettingsTerminated (initSettings env deviceId st) :=
    ⟨fun h => h.terminated, fun h => ⟨settingsValid_initSettings st, h⟩⟩
  rw [hsound]
  unfold initSettings
  rw [if_pos hi]
  rcases hs : loadSettings env st with _ | s
  · rcases hl : loadLegacySettings env st with _ | s
    · simp [(settingsSound_default deviceId).terminated]
    · simp
  · simp

theorem recordsSound_iff {st : ConfigStore} : RecordsSound env st ↔
    (∀ i, PeerSound (loadPeer env st i)) ∧
      (∀ s, loadSettings env st = some s → SettingsTerminated s) ∧
      (loadSettings env st = none → ∀ s, loadLegacySettings env st = some s →
        SettingsTerminated s) := by
  have hnone : loadSettings env st = none ↔
      ∀ s, loadRecord FieldBridgeSettings.layout env st settingsKey = some s →
        ¬ SettingsValid s := by
    rw [Option.eq_none_iff_forall_ne_some]
    refine forall_congr' fun s => ?_
    rw [ne_eq, loadSettings_eq_some, not_and]
  constructor
  · rintro ⟨h1, h2, h3⟩
    refine ⟨fun i => peerSound_loadPeer_iff.mpr (h1 i), fun s hs => ?_, fun hn s hs => ?_⟩
    · obtain ⟨hl, hv⟩ := loadSettings_eq_some.mp hs
      exact h2 s hl hv
    · obtain ⟨l, hl, rfl, hv⟩ := loadLegacySettings_eq_some.mp hs
      exact settingsTerminated_migrateLegacy_iff.mpr (h3 (hnone.mp hn) l hl hv)
  · rintro ⟨h1, h2, h3⟩
    refine ⟨fun i => peerSound_loadPeer_iff.mp (h1 i), fun s hl hv => ?_, fun hn l hl hv => ?_⟩
    · exact h2 s (loadSettings_eq_some.mpr ⟨hl, hv⟩)
    · have := h3 (hnone.mpr hn) _ (loadLegacySettings_eq_some.mpr ⟨l, hl, rfl, hv⟩)
      exact settingsTerminated_migrateLegacy_iff.mp this

/-- **Start-up leaves a sound configuration if and only if the records it adopts are sound.** -/
theorem productConfigInit_sound_iff :
    ConfigSound (productConfigInit env deviceId c) ↔
      (env.init = .ok → RecordsSound env c.store) := by
  have hsound : ConfigSound (productConfigInit env deviceId c) ↔
      SettingsSound (initSettings env deviceId c.store) ∧
        ∀ i, PeerSound (initPeers env c.store i) := by
    rw [← productConfigInit_settings, ← productConfigInit_peers]
    exact ⟨fun h => ⟨h.settings, h.peers⟩, fun h => ⟨h.1, h.2⟩⟩
  rw [hsound]
  by_cases hi : env.init = .ok
  · have hp : ∀ i, initPeers env c.store i = loadPeer env c.store i := fun i => if_pos hi
    rw [settingsSound_initSettings_iff hi, recordsSound_iff]
    simp only [hp, hi, true_implies]
    exact and_comm
  · have hd : initSettings env deviceId c.store = defaultSettings deviceId := if_neg hi
    have hp : ∀ i, initPeers env c.store i = .zero := fun i => if_neg hi
    rw [hd]
    refine ⟨fun _ h => absurd h hi, fun _ => ⟨settingsSound_default deviceId, fun i => ?_⟩⟩
    rw [hp i]
    exact peerSound_zero

/-- A peer record no caller of the module could have stored. -/
def badPeer : FieldBridgePeer := { FieldBridgePeer.zero with enabled := 2 }

/-- A store that holds it. -/
def badPeerStore : ConfigStore :=
  Function.update ConfigStore.empty (peerKey 0) (some (FieldBridgePeer.layout.enc badPeer))

theorem productConfigInit_keeps_badPeer :
    ¬ ConfigSound (productConfigInit .good []
      (powerOn badPeerStore)) := by
  intro h
  have hl : loadRecord FieldBridgePeer.layout .good badPeerStore (peerKey 0) = some badPeer :=
    loadRecord_of_holds holds_update rfl
  have hp : initPeers .good badPeerStore 0 = badPeer := by
    rw [initPeers, if_pos (show StoreEnv.good.init = .ok from rfl), loadPeer, hl]
    rfl
  have hv := (h.peers 0).valid
  rw [productConfigInit_peers] at hv
  have hb : PeerValid badPeer := hp ▸ hv
  exact absurd hb.enabled (by decide)

end MqttFieldBridge.Config
