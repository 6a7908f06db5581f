import MqttFieldBridge.Boot.Main
import MqttFieldBridge.Config.Threads
import MqttFieldBridge.Lts.Settle

/-! # Boots that follow each other

Start-up writes to the flash in two places: it saves a migrated record, and it saves the settings of
the run if the broker was off. Neither is repeated once it has been done, so however often a device is
switched on, and whatever the network and the flash answer in each boot, its flash changes at most
twice (`boots_change_twice`), and not at all after a boot that could write what it wanted to
(`settled_after_boot`). -/

namespace MqttFieldBridge.Boot

open MqttFieldBridge.CLib MqttFieldBridge.Config MqttFieldBridge.Runtime MqttFieldBridge.Lts

/-- A boot: how the flash answers the loads and the write-back, and what Ethernet gives. -/
structure BootEnv where
  w : World
  w' : World
  eth : Ethernet

/-- A device that has been switched off. -/
def switchedOff (st : ConfigStore) : App := ⟨powerOn st, productRuntimeInit, []⟩

/-- The device after a boot. -/
def boot (b : BootEnv) (st : ConfigStore) : App := mainBoot b.w b.w' b.eth (switchedOff st)

/-- The flash after a boot. -/
def bootStore (b : BootEnv) (st : ConfigStore) : ConfigStore := (boot b st).config.store

/-- How many writes a store may still cause: a v1 record two, a record with the broker off one. -/
def pendingWrites (st : ConfigStore) : ℕ :=
  match loadSettings .good st with
  | some s => if s.broker.brokerEnabled = 0 then 1 else 0
  | none => if (loadLegacySettings .good st).isSome then 2 else 0

/-! ### What a store holds, whether it loads or not -/

variable {env : StoreEnv} {deviceId : List Byte} {st : ConfigStore} {s : FieldBridgeSettings}

/-- A record that loads would load if nothing failed. -/
theorem loadRecord_good {α : Type} {L : Layout α} {key : ℕ} {a : α}
    (h : loadRecord L env st key = some a) : loadRecord L .good st key = some a := by
  unfold loadRecord dephyConfigStoreLoad at h ⊢
  split_ifs at h with hload
  · rw [if_pos (show StoreEnv.good.load key L.size = .ok from rfl)]
    exact h
  · cases h

theorem pendingWrites_of_holds (h : Holds FieldBridgeSettings.layout st settingsKey s)
    (hv : SettingsValid s) : pendingWrites st = if s.broker.brokerEnabled = 0 then 1 else 0 := by
  have hload : loadSettings .good st = some s :=
    loadSettings_eq_some.mpr ⟨loadRecord_of_holds h rfl, hv⟩
  unfold pendingWrites
  rw [hload]

theorem pendingWrites_of_load (h : loadSettings env st = some s) :
    pendingWrites st = if s.broker.brokerEnabled = 0 then 1 else 0 := by
  obtain ⟨hload, hv⟩ := loadSettings_eq_some.mp h
  have hgood : loadSettings .good st = some s :=
    loadSettings_eq_some.mpr ⟨loadRecord_good hload, hv⟩
  unfold pendingWrites
  rw [hgood]

/-- The two records differ in size, so a v1 record is no current one. -/
theorem pendingWrites_of_legacy (h : loadLegacySettings env st = some s) : pendingWrites st = 2 := by
  obtain ⟨l, hload, rfl, hv⟩ := loadLegacySettings_eq_some.mp h
  have hgood : loadLegacySettings .good st = some (migrateLegacy l) :=
    loadLegacySettings_eq_some.mpr ⟨l, loadRecord_good hload, rfl, hv⟩
  have hnone : loadSettings .good st = none := by
    rcases hl : loadSettings .good st with _ | s'
    · rfl
    · obtain ⟨b, hb, hlen, -⟩ := loadRecord_eq_some hload
      obtain ⟨b', hb', hlen', -⟩ := loadRecord_eq_some (loadSettings_eq_some.mp hl).1
      rw [hb, Option.some.injEq] at hb'
      rw [hb', hlen'] at hlen
      exact absurd hlen (by decide)
  unfold pendingWrites
  rw [hnone, hgood]
  rfl

theorem pendingWrites_le : pendingWrites st ≤ 2 := by
  unfold pendingWrites
  split
  · split_ifs
    · decide
    · decide
  · split_ifs
    · decide
    · decide

/-! ### What one boot does to the flash -/

variable {b : BootEnv}

/-- The settings after `product_config_init`. -/
def loadedSettings (b : BootEnv) (st : ConfigStore) : FieldBridgeSettings :=
  (mainInit b.w (switchedOff st)).config.settings

/-- The flash after `product_config_init`. -/
def loadedStore (b : BootEnv) (st : ConfigStore) : ConfigStore :=
  (mainInit b.w (switchedOff st)).config.store

theorem settingsValid_loaded (b : BootEnv) (st : ConfigStore) : SettingsValid (loadedSettings b st) := by
  unfold loadedSettings mainInit
  rw [productConfigInit_settings]
  exact settingsValid_initSettings st

/-- Loading leaves the flash, or saves a migrated record. -/
theorem loadedStore_cases (b : BootEnv) (st : ConfigStore) : loadedStore b st = st ∨
    pendingWrites st = 2 ∧ pendingWrites (loadedStore b st) ≤ 1 := by
  have hinit := @productConfigInit_store b.w.store b.w.deviceId (switchedOff st).config
  rcases hinit with h | ⟨s, -, hlegacy, hsaved⟩
  · exact Or.inl h
  have hv : SettingsValid s := by
    obtain ⟨l, -, rfl, hv⟩ := loadLegacySettings_eq_some.mp hlegacy
    exact hv
  rcases hsave : b.w.store.save settingsKey with _ | _
  · have hholds : Holds FieldBridgeSettings.layout (loadedStore b st) settingsKey s := by
      have heq : loadedStore b st = _ := hsaved
      rw [heq]
      exact holds_saveRecord hsave
    refine Or.inr ⟨pendingWrites_of_legacy hlegacy, ?_⟩
    rw [pendingWrites_of_holds hholds hv]
    split_ifs
    · exact le_rfl
    · exact Nat.zero_le 1
  · rw [saveRecord_err hsave] at hsaved
    exact Or.inl hsaved

theorem brokerEnabled_default (deviceId : List Byte) :
    (defaultSettings deviceId).broker.brokerEnabled = 1 := by
  unfold defaultSettings settingsDefaults settingsDefaultsAssigns
  rw [runAssigns_append]
  rfl

/-- A device whose broker is off after loading has loaded a record that still causes a write. -/
theorem pendingWrites_of_off (h : (loadedSettings b st).broker.brokerEnabled = 0) :
    0 < pendingWrites st := by
  have hdefault : (defaultSettings b.w.deviceId).broker.brokerEnabled ≠ 0 := by
    rw [brokerEnabled_default]
    decide
  have hset : loadedSettings b st = initSettings b.w.store b.w.deviceId st := productConfigInit_settings
  rw [hset] at h
  unfold initSettings at h
  split_ifs at h
  · rcases hs : loadSettings b.w.store st with _ | s
    · rcases hl : loadLegacySettings b.w.store st with _ | s
      · rw [hs, hl] at h
        exact absurd h hdefault
      · rw [pendingWrites_of_legacy hl]
        decide
    · rw [hs] at h
      have hoff : s.broker.brokerEnabled = 0 := h
      rw [pendingWrites_of_load hs, if_pos hoff]
      decide
  · exact absurd h hdefault

/-- The write-back leaves the flash, or saves a valid record with the broker on. -/
theorem bootStore_cases (b : BootEnv) (st : ConfigStore) : bootStore b st = loadedStore b st ∨
    (loadedSettings b st).broker.brokerEnabled = 0 ∧ pendingWrites (bootStore b st) = 0 := by
  have hconfig := @mainBoot_config b.w b.w' b.eth (switchedOff st)
  have hstore : bootStore b st = (afterOp b.w'.store b.w'.deviceId
      ((writeBack b.eth (loadedSettings b st)).map .setSettings)
      (mainInit b.w (switchedOff st)).config).store := congrArg ConfigState.store hconfig
  rcases hwrite : writeBack b.eth (loadedSettings b st) with _ | n
  · rw [hwrite] at hstore
    exact Or.inl hstore
  rw [hwrite] at hstore
  have hon : n.broker.brokerEnabled = 1 := by
    obtain ⟨mode, rfl⟩ := writeBack_overlay hwrite
    rfl
  have hoff : (loadedSettings b st).broker.brokerEnabled = 0 := by
    unfold writeBack at hwrite
    split_ifs at hwrite
    obtain ⟨r, hstart, hr⟩ := Option.bind_eq_some_iff.mp hwrite
    dsimp only at hr
    split_ifs at hr with hzero
    obtain ⟨deviceIp, brokerIp, dhcp, heq, -, -⟩ :=
      runtimeSettings_prints (loadedSettings b st) r.1 r.2
    rw [heq] at hzero
    exact hzero.2
  by_cases hv : SettingsValid n
  · have hset : bootStore b st =
        (productConfigSetSettings b.w'.store n (mainInit b.w (switchedOff st)).config).2.store := hstore
    rw [productConfigSetSettings_of_valid hv] at hset
    rcases hsave : b.w'.store.save settingsKey with _ | _
    · refine Or.inr ⟨hoff, ?_⟩
      have hholds : Holds FieldBridgeSettings.layout (bootStore b st) settingsKey n := by
        rw [hset]
        exact holds_saveRecord hsave
      rw [pendingWrites_of_holds hholds hv, hon]
      rfl
    · refine Or.inl (hset.trans ?_)
      exact congrArg Prod.snd (saveRecord_err hsave)
  · refine Or.inl (hstore.trans ?_)
    exact congrArg (fun r => r.2.store) (productConfigSetSettings_of_invalid hv)

/-- **A boot leaves the flash as it is, or fewer writes are pending.** -/
theorem bootStore_settles : Settling bootStore pendingWrites := by
  intro b st
  rcases bootStore_cases b st with hkept | ⟨hoff, hzero⟩
  · rw [hkept]
    rcases loadedStore_cases b st with hsame | ⟨htwo, hone⟩
    · exact Or.inl hsame
    · exact Or.inr (by omega)
  · have hpos := pendingWrites_of_off hoff
    exact Or.inr (by omega)

/-- **The flash changes at most twice**, however often the device is switched on. -/
theorem boots_change_twice (bs : List BootEnv) (st : ConfigStore) : changes bootStore bs st ≤ 2 :=
  (changes_le_rank bootStore_settles bs st).trans pendingWrites_le

/-! ### After a boot that could write -/

/-- A boot in which nothing fails: the record loads, it can be saved, and Ethernet acquires an
address. -/
structure BootEnv.Complete (b : BootEnv) : Prop where
  readable : Readable b.w.store
  saves : b.w.store.save settingsKey = .ok
  savesBack : b.w'.store.save settingsKey = .ok
  ready : b.eth.ready = true
  address : b.eth.ip.val ≠ []

theorem loadRecord_readable {α : Type} {L : Layout α} (hr : Readable env) :
    loadRecord L env st settingsKey = loadRecord L .good st settingsKey := by
  unfold loadRecord dephyConfigStoreLoad
  rw [if_pos (hr.load L.size), if_pos (show StoreEnv.good.load settingsKey L.size = .ok from rfl)]

theorem initSettings_readable (hr : Readable env) :
    initSettings env deviceId st = initSettings .good deviceId st := by
  unfold initSettings loadSettings loadLegacySettings
  rw [if_pos hr.init, if_pos (show StoreEnv.good.init = .ok from rfl), loadRecord_readable hr,
    loadRecord_readable hr]

theorem loadedSettings_eq (hr : Readable b.w.store) :
    loadedSettings b st = initSettings .good b.w.deviceId st :=
  productConfigInit_settings.trans (initSettings_readable hr)

/-- A v1 record that loads is migrated and saved. -/
theorem loadedStore_of_legacy (hb : b.Complete) (hnone : loadSettings b.w.store st = none)
    (hlegacy : loadLegacySettings b.w.store st = some s) :
    loadedSettings b st = s ∧ Holds FieldBridgeSettings.layout (loadedStore b st) settingsKey s := by
  have hconfig : (mainInit b.w (switchedOff st)).config.settings = s ∧
      (mainInit b.w (switchedOff st)).config.store =
        (saveRecord FieldBridgeSettings.layout b.w.store st settingsKey s).2 := by
    unfold mainInit switchedOff productConfigInit persistLoad
    simp [hb.readable.init, hnone, hlegacy, powerOn, persistSaveSettings]
  refine ⟨hconfig.1, ?_⟩
  have hstore : loadedStore b st = _ := hconfig.2
  rw [hstore]
  exact holds_saveRecord hb.saves

/-- After loading, the flash loads as it did before, and causes a write only if the broker is off. -/
theorem loadedStore_complete (hb : b.Complete) (st : ConfigStore) :
    initSettings .good b.w.deviceId (loadedStore b st) = loadedSettings b st ∧
      ((loadedSettings b st).broker.brokerEnabled ≠ 0 → pendingWrites (loadedStore b st) = 0) := by
  have hset : loadedSettings b st = initSettings .good b.w.deviceId st :=
    loadedSettings_eq hb.readable
  -- a record that is not migrated stays as it is
  have hkept : loadSettings b.w.store st ≠ none ∨ loadLegacySettings b.w.store st = none →
      loadedStore b st = st := by
    intro hnot
    rcases @productConfigInit_store b.w.store b.w.deviceId (switchedOff st).config with h | ⟨s, hs, hl, -⟩
    · exact h
    · rcases hnot with h | h
      · exact absurd hs h
      · rw [show (switchedOff st).config.store = st from rfl, h] at hl
        cases hl
  rcases hs : loadSettings b.w.store st with _ | s
  · rcases hl : loadLegacySettings b.w.store st with _ | s
    · rw [hkept (Or.inr hl)]
      refine ⟨hset.symm, fun _ => ?_⟩
      unfold loadSettings at hs
      unfold loadLegacySettings at hl
      rw [loadRecord_readable hb.readable] at hs hl
      unfold pendingWrites loadSettings loadLegacySettings
      rw [hs, hl]
      rfl
    · obtain ⟨hloaded, hholds⟩ := loadedStore_of_legacy hb hs hl
      have hv := settingsValid_loaded b st
      rw [hloaded] at hv ⊢
      rw [pendingWrites_of_holds hholds hv]
      exact ⟨initSettings_of_holds hholds hv, fun hon => if_neg hon⟩
  · have hloaded : loadedSettings b st = s := by
      have heq : loadedSettings b st = initSettings b.w.store b.w.deviceId st :=
        productConfigInit_settings
      rw [heq]
      unfold initSettings
      rw [if_pos hb.readable.init, hs]
      rfl
    rw [hkept (Or.inl (by rw [hs]; exact Option.some_ne_none s))]
    refine ⟨hset.symm, fun hon => ?_⟩
    rw [pendingWrites_of_load hs, ← hloaded]
    exact if_neg hon

/-- What a complete boot leaves: the flash holds the live settings, or nothing and they are the
defaults, and no write is pending. -/
theorem boot_complete (hb : b.Complete) (st : ConfigStore) : pendingWrites (bootStore b st) = 0 ∧
    initSettings .good b.w.deviceId (bootStore b st) = (boot b st).config.settings := by
  have hv := settingsValid_loaded b st
  have hconfig := @mainBoot_config b.w b.w' b.eth (switchedOff st)
  have hwrite : writeBack b.eth (loadedSettings b st) =
      if (loadedSettings b st).broker.brokerEnabled = 0 then
        some (withBrokerEnabled 1 (runtimeSettings (loadedSettings b st) b.eth.ip.val networkModeEth))
      else none := by
    unfold writeBack
    rw [hb.ready, startBrokerNetwork_of_valid hv, Option.bind_some]
    simp only [Bool.not_true, Bool.false_eq_true, if_false, true_and]
    rw [brokerEnabled_runtimeSettings hb.address hv]
  have hboot : (boot b st).config = afterOp b.w'.store b.w'.deviceId
      ((writeBack b.eth (loadedSettings b st)).map .setSettings)
      (mainInit b.w (switchedOff st)).config := hconfig
  rw [hwrite] at hboot
  unfold bootStore
  by_cases hoff : (loadedSettings b st).broker.brokerEnabled = 0
  · rw [if_pos hoff] at hboot
    have hvalid := settingsValid_withBrokerEnabled (settingsValid_runtimeSettings hb.address hv)
    set n := withBrokerEnabled 1 (runtimeSettings (loadedSettings b st) b.eth.ip.val networkModeEth)
    have hset : (boot b st).config =
        (productConfigSetSettings b.w'.store n (mainInit b.w (switchedOff st)).config).2 := hboot
    rw [productConfigSetSettings_of_valid hvalid] at hset
    have hholds : Holds FieldBridgeSettings.layout (boot b st).config.store settingsKey n := by
      rw [hset]
      exact holds_saveRecord hb.savesBack
    have hlive : (boot b st).config.settings = n := congrArg ConfigState.settings hset
    rw [pendingWrites_of_holds hholds hvalid, hlive]
    exact ⟨rfl, initSettings_of_holds hholds hvalid⟩
  · rw [if_neg hoff] at hboot
    have hset : (boot b st).config = (mainInit b.w (switchedOff st)).config := hboot
    obtain ⟨hload, hpending⟩ := loadedStore_complete hb st
    rw [hset]
    exact ⟨hpending hoff, hload⟩

/-- **After a complete boot nothing changes any more**: the flash stays through all later boots, and
each that can read it runs with the settings of the first. -/
theorem settled_after_boot (b : BootEnv) (hb : b.Complete) (st : ConfigStore) (bs : List BootEnv) :
    run bootStore bs (bootStore b st) = bootStore b st ∧
      ∀ b' : BootEnv, Readable b'.w.store → b'.w.deviceId = b.w.deviceId →
        (boot b' (run bootStore bs (bootStore b st))).config.settings =
          (boot b st).config.settings := by
  obtain ⟨hzero, hlive⟩ := boot_complete hb st
  have hstays := run_of_rank_eq_zero bootStore_settles bs (bootStore b st) hzero
  refine ⟨hstays, fun b' hr hid => ?_⟩
  rw [hstays]
  have hloaded : loadedSettings b' (bootStore b st) = (boot b st).config.settings := by
    rw [loadedSettings_eq hr, hid]
    exact hlive
  have hon : (loadedSettings b' (bootStore b st)).broker.brokerEnabled ≠ 0 := fun hoff => by
    have hpos := pendingWrites_of_off hoff
    omega
  have hconfig := @mainBoot_config b'.w b'.w' b'.eth (switchedOff (bootStore b st))
  have hwrite : writeBack b'.eth (loadedSettings b' (bootStore b st)) = none := by
    unfold writeBack
    split_ifs
    · rfl
    · rcases hstart : startBrokerNetwork (loadedSettings b' (bootStore b st)) b'.eth.ip.val with _ | r
      · rfl
      · obtain ⟨deviceIp, brokerIp, dhcp, heq, -, -⟩ :=
          runtimeSettings_prints (loadedSettings b' (bootStore b st)) r.1 r.2
        rw [Option.bind_some]
        refine if_neg fun hand => hon ?_
        rw [heq] at hand
        exact hand.2
  have hboot : (boot b' (bootStore b st)).config = afterOp b'.w'.store b'.w'.deviceId
      ((writeBack b'.eth (loadedSettings b' (bootStore b st))).map .setSettings)
      (mainInit b'.w (switchedOff (bootStore b st))).config := hconfig
  rw [hwrite] at hboot
  rw [hboot]
  exact hloaded

/-- Ethernet does not come up. -/
def acquiredNothing : Ethernet := ⟨false, .empty⟩

/-- A boot in which nothing fails. -/
def goodBoot : BootEnv := ⟨.good, .good, exampleEthernet⟩

theorem complete_goodBoot : goodBoot.Complete :=
  ⟨⟨rfl, fun _ => rfl⟩, rfl, rfl, rfl, by decide⟩

theorem settled_after_goodBoot :
    run bootStore [goodBoot, ⟨.good, .good, acquiredNothing⟩]
        (bootStore goodBoot (poweredOff (savedExample networkModeAuto)).config.store) =
        bootStore goodBoot (poweredOff (savedExample networkModeAuto)).config.store :=
  (settled_after_boot goodBoot complete_goodBoot _ _).1

end MqttFieldBridge.Boot
