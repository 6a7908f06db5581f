import MqttFieldBridge.Config.Defaults
import MqttFieldBridge.Config.Store

/-! # The configuration module

The functions of `product_config.c` over its global variables and the store. A function that can
fail returns its code together with the state, since several of them have already assigned to the
globals when a save fails. A `NULL` argument is not modelled: no caller passes one. -/

namespace MqttFieldBridge.Config

open MqttFieldBridge.CLib

/-- The global variables of `product_config.c`, and the store. -/
@[ext] structure ConfigState where
  peers : Fin fieldBridgePeerMax → FieldBridgePeer
  settings : FieldBridgeSettings
  settingsLoadedFromStore : Bool
  store : ConfigStore

abbrev peerKeyBase : ℕ := 1
abbrev settingsKey : ℕ := 100

/-- The key of a peer slot. -/
def peerKey (i : Fin fieldBridgePeerMax) : ℕ := peerKeyBase + i

theorem peerKey_ne_settingsKey (i : Fin fieldBridgePeerMax) : peerKey i ≠ settingsKey := by
  have := i.isLt
  simp only [peerKey, peerKeyBase, settingsKey, fieldBridgePeerMax] at *
  omega

theorem peerKey_injective : Function.Injective peerKey := fun i j h => by
  simp only [peerKey] at h
  omega

/-- A slot index that passes the bounds check. -/
def peerIndex (index : ℤ) : Option (Fin fieldBridgePeerMax) :=
  if h : 0 ≤ index ∧ index < fieldBridgePeerMax then some ⟨index.toNat, by omega⟩ else none

/-! ### Loading -/

/-- A v1 record as current settings, with an invented fallback port. -/
def migrateLegacy (legacy : FieldBridgeSettingsV1) : FieldBridgeSettings where
  system := legacy.system
  network := legacy.network
  broker :=
    { brokerIp := (CharArray.zero _).strncpy legacy.broker.brokerIp.text
      siteId := (CharArray.zero _).strncpy legacy.broker.siteId.text
      topicPrefix := (CharArray.zero _).strncpy legacy.broker.topicPrefix.text
      mqttPort := legacy.broker.mqttPort
      p2pPort := legacy.broker.p2pPort
      fallbackPort := 1884
      brokerEnabled := legacy.broker.brokerEnabled
      bridgeEnabled := legacy.broker.bridgeEnabled
      meshEnabled := legacy.broker.meshEnabled }

/-- `load_legacy_settings`: the migrated record, if it loads and passes the checks. -/
def loadLegacySettings (env : StoreEnv) (st : ConfigStore) : Option FieldBridgeSettings :=
  match loadRecord FieldBridgeSettingsV1.layout env st settingsKey with
  | none => none
  | some legacy =>
    if validateSettings (migrateLegacy legacy) = .ok then some (migrateLegacy legacy) else none

def persistSave (env : StoreEnv) (i : Fin fieldBridgePeerMax) (c : ConfigState) :
    Rc × ConfigState :=
  let r := saveRecord FieldBridgePeer.layout env c.store (peerKey i) (c.peers i)
  (r.1, { c with store := r.2 })

def persistSaveSettings (env : StoreEnv) (c : ConfigState) : Rc × ConfigState :=
  let r := saveRecord FieldBridgeSettings.layout env c.store settingsKey c.settings
  (r.1, { c with store := r.2 })

/-- What `persist_load` reads into a peer slot. -/
def loadPeer (env : StoreEnv) (st : ConfigStore) (i : Fin fieldBridgePeerMax) : FieldBridgePeer :=
  (loadRecord FieldBridgePeer.layout env st (peerKey i)).getD .zero

/-- A current settings record that loads and passes the checks. -/
def loadSettings (env : StoreEnv) (st : ConfigStore) : Option FieldBridgeSettings :=
  match loadRecord FieldBridgeSettings.layout env st settingsKey with
  | none => none
  | some s => if validateSettings s = .ok then some s else none

def persistLoad (env : StoreEnv) (deviceId : List Byte) (c : ConfigState) : ConfigState :=
  let c := { c with settingsLoadedFromStore := false }
  if env.init ≠ .ok then c
  else
    let c := { c with peers := loadPeer env c.store }
    match loadSettings env c.store with
    | some s => { c with settings := s, settingsLoadedFromStore := true }
    | none =>
      match loadLegacySettings env c.store with
      | some s =>
        let c := (persistSaveSettings env { c with settings := s }).2
        { c with settingsLoadedFromStore := true }
      | none => { c with settings := settingsDefaults deviceId c.settings }

def productConfigInit (env : StoreEnv) (deviceId : List Byte) (c : ConfigState) : ConfigState :=
  persistLoad env deviceId
    { c with
      peers := fun _ => .zero
      settings := settingsDefaults deviceId c.settings
      settingsLoadedFromStore := false }

/-! ### The interface -/

def productConfigHasSavedSettings (c : ConfigState) : Bool := c.settingsLoadedFromStore

def productConfigPeerCount : ℕ := fieldBridgePeerMax

def productConfigGetPeer (index : ℤ) (c : ConfigState) : Option FieldBridgePeer :=
  (peerIndex index).map c.peers

def productConfigSetPeer (env : StoreEnv) (index : ℤ) (peer : FieldBridgePeer) (c : ConfigState) :
    Rc × ConfigState :=
  match peerIndex index with
  | none => (.err, c)
  | some i =>
    if validatePeer peer ≠ .ok then (.err, c)
    else persistSave env i { c with peers := Function.update c.peers i peer }

def productConfigGetSettings (c : ConfigState) : FieldBridgeSettings := c.settings

def productConfigSetSettings (env : StoreEnv) (newSettings : FieldBridgeSettings)
    (c : ConfigState) : Rc × ConfigState :=
  if validateSettings newSettings ≠ .ok then (.err, c)
  else
    let r := persistSaveSettings env { c with settings := newSettings }
    if r.1 ≠ .ok then (.err, r.2) else (.ok, { r.2 with settingsLoadedFromStore := true })

/-- The loop that saves the peer slots; it stops at the first save that fails. -/
def persistSavePeers (env : StoreEnv) :
    List (Fin fieldBridgePeerMax) → ConfigState → Rc × ConfigState
  | [], c => (.ok, c)
  | i :: is, c =>
    let r := persistSave env i c
    if r.1 ≠ .ok then (.err, r.2) else persistSavePeers env is r.2

/-- How `product_config_reset_all` and `product_config_apply_defaults` end. -/
def persistSaveAll (env : StoreEnv) (c : ConfigState) : Rc × ConfigState :=
  let r := persistSavePeers env (List.finRange fieldBridgePeerMax) c
  if r.1 ≠ .ok then (.err, r.2)
  else
    let r := persistSaveSettings env r.2
    if r.1 ≠ .ok then (.err, r.2) else (.ok, { r.2 with settingsLoadedFromStore := true })

def productConfigResetAll (env : StoreEnv) (deviceId : List Byte) (c : ConfigState) :
    Rc × ConfigState :=
  persistSaveAll env
    { c with peers := fun _ => .zero, settings := settingsDefaults deviceId c.settings }

def productConfigApplyDefaults (env : StoreEnv) (deviceId : List Byte)
    (profile : FieldBridgeDefaultsProfile) (c : ConfigState) : Rc × ConfigState :=
  let c := { c with peers := fun _ => .zero }
  if profile = profileSmall then
    persistSaveAll env { c with settings := settingsDefaults deviceId c.settings }
  else if profile = profileLarge then
    persistSaveAll env { c with settings := settingsLargeDefaults deviceId c.settings }
  else (.err, c)

def productConfigNetworkModeName (mode : UInt8) : Text :=
  if mode = networkModeAuto then str "auto"
  else if mode = networkModeEth then str "eth"
  else str "unknown"

def productConfigNetworkModeFromName (name : Text) : Option UInt8 :=
  if name = str "auto" then some networkModeAuto
  else if name = str "eth" ∨ name = str "ethernet" then some networkModeEth
  else none

/-! ### What an operation leaves -/

variable {env : StoreEnv} {c : ConfigState}

theorem persistSave_eq {i : Fin fieldBridgePeerMax} : persistSave env i c =
    (env.save (peerKey i), { c with
      store := (saveRecord FieldBridgePeer.layout env c.store (peerKey i) (c.peers i)).2 }) := by
  simp only [persistSave, saveRecord_fst]

theorem persistSaveSettings_eq : persistSaveSettings env c =
    (env.save settingsKey, { c with
      store := (saveRecord FieldBridgeSettings.layout env c.store settingsKey c.settings).2 }) := by
  simp only [persistSaveSettings, saveRecord_fst]

theorem productConfigSetSettings_of_valid {s : FieldBridgeSettings} (hv : SettingsValid s) :
    productConfigSetSettings env s c = (env.save settingsKey,
      { c with
        settings := s
        settingsLoadedFromStore :=
          if env.save settingsKey = .ok then true else c.settingsLoadedFromStore
        store := (saveRecord FieldBridgeSettings.layout env c.store settingsKey s).2 }) := by
  have hok := validateSettings_ok_iff.mpr hv
  unfold productConfigSetSettings
  rw [if_neg (not_not.mpr hok)]
  simp only [persistSaveSettings_eq]
  rcases hs : env.save settingsKey with _ | _
  · rw [if_neg (by simp)]
    rfl
  · rw [if_pos (by simp)]
    rfl

theorem productConfigSetSettings_of_invalid {s : FieldBridgeSettings} (hv : ¬ SettingsValid s) :
    productConfigSetSettings env s c = (.err, c) := by
  unfold productConfigSetSettings
  exact if_pos fun h => hv (validateSettings_ok_iff.mp h)

theorem productConfigSetPeer_of_valid {index : ℤ} {i : Fin fieldBridgePeerMax}
    {peer : FieldBridgePeer} (hi : peerIndex index = some i) (hv : PeerValid peer) :
    productConfigSetPeer env index peer c = (env.save (peerKey i),
      { c with
        peers := Function.update c.peers i peer
        store := (saveRecord FieldBridgePeer.layout env c.store (peerKey i) peer).2 }) := by
  have hok := validatePeer_ok_iff.mpr hv
  simp only [productConfigSetPeer, hi, hok, ne_eq, not_true, if_false, persistSave_eq,
    Function.update_self]

theorem productConfigSetPeer_of_invalid {index : ℤ} {peer : FieldBridgePeer}
    (hv : ∀ i, peerIndex index = some i → ¬ PeerValid peer) :
    productConfigSetPeer env index peer c = (.err, c) := by
  unfold productConfigSetPeer
  rcases hi : peerIndex index with _ | i
  · rfl
  · exact if_pos fun h => hv i hi (validatePeer_ok_iff.mp h)

end MqttFieldBridge.Config
