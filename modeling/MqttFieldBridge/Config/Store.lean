import MqttFieldBridge.Config.Types
import MqttFieldBridge.Config.Validate
import Mathlib.Logic.Function.Basic

/-! # The config store

The key-value store behind `dephy_config_store_*` is a library of its own. What the module relies on
is its contract: a load gives the last record saved under the key if it has the requested size, or
fails; a failed save leaves the record as it was. `StoreEnv` says which calls fail, and everything
is stated for every `StoreEnv`. -/

namespace MqttFieldBridge.Config

open MqttFieldBridge.CLib

/-- The bytes of the record under each key. -/
abbrev ConfigStore := ℕ → Option (List Byte)

/-- The store with no records. -/
def ConfigStore.empty : ConfigStore := fun _ => none

/-- What the calls of the store return: `init`, a load of a key with a size, a save of a key. -/
structure StoreEnv where
  init : Rc
  load : ℕ → ℕ → Rc
  save : ℕ → Rc

/-- Nothing fails. -/
def StoreEnv.good : StoreEnv := ⟨.ok, fun _ _ => .ok, fun _ => .ok⟩

def dephyConfigStoreLoad (env : StoreEnv) (st : ConfigStore) (key size : ℕ) :
    Option (List Byte) :=
  if env.load key size = .ok then (st key).filter fun b => b.length = size else none

def dephyConfigStoreSave (env : StoreEnv) (st : ConfigStore) (key : ℕ) (b : List Byte) :
    Rc × ConfigStore :=
  if env.save key = .ok then (.ok, Function.update st key (some b)) else (.err, st)

section Records
variable {α : Type} (L : Layout α)

/-- A load into a variable of type `α`. -/
def loadRecord (env : StoreEnv) (st : ConfigStore) (key : ℕ) : Option α :=
  (dephyConfigStoreLoad env st key L.size).map L.dec

/-- A save from a variable of type `α`. -/
def saveRecord (env : StoreEnv) (st : ConfigStore) (key : ℕ) (a : α) : Rc × ConfigStore :=
  dephyConfigStoreSave env st key (L.enc a)

/-- The record under `key` is the value `a`. -/
def Holds (st : ConfigStore) (key : ℕ) (a : α) : Prop := st key = some (L.enc a)

variable {L} {env : StoreEnv} {st : ConfigStore} {key : ℕ} {a : α}

theorem saveRecord_ok (h : env.save key = .ok) :
    saveRecord L env st key a = (.ok, Function.update st key (some (L.enc a))) := by
  simp [saveRecord, dephyConfigStoreSave, h]

theorem saveRecord_err (h : env.save key = .err) : saveRecord L env st key a = (.err, st) := by
  simp [saveRecord, dephyConfigStoreSave, h]

theorem saveRecord_fst : (saveRecord L env st key a).1 = env.save key := by
  rcases h : env.save key with _ | _
  · rw [saveRecord_ok h]
  · rw [saveRecord_err h]

theorem holds_update : Holds L (Function.update st key (some (L.enc a))) key a := by
  rw [Holds, Function.update_self]

theorem holds_saveRecord (h : env.save key = .ok) :
    Holds L (saveRecord L env st key a).2 key a := by
  rw [saveRecord_ok h]
  exact holds_update

/-- Another key's record is not touched. -/
theorem saveRecord_ne {k : ℕ} (hk : k ≠ key) : (saveRecord L env st key a).2 k = st k := by
  rcases h : env.save key with _ | _
  · rw [saveRecord_ok h]
    exact Function.update_of_ne hk _ _
  · rw [saveRecord_err h]

/-- A save leaves the new record or the old one. -/
theorem saveRecord_self : (saveRecord L env st key a).2 key = some (L.enc a) ∨
    (saveRecord L env st key a).2 key = st key := by
  rcases h : env.save key with _ | _
  · rw [saveRecord_ok h]
    exact Or.inl (Function.update_self _ _ _)
  · rw [saveRecord_err h]
    exact Or.inr rfl

theorem loadRecord_of_holds (h : Holds L st key a) (he : env.load key L.size = .ok) :
    loadRecord L env st key = some a := by
  have h' : st key = some (L.enc a) := h
  simp [loadRecord, dephyConfigStoreLoad, he, h', L.length_enc, L.dec_enc]

/-- A record that loads is the stored one. -/
theorem loadRecord_eq_some (h : loadRecord L env st key = some a) :
    ∃ b, st key = some b ∧ b.length = L.size ∧ L.dec b = a := by
  simp only [loadRecord, dephyConfigStoreLoad, Option.map_eq_some_iff] at h
  obtain ⟨b, hb, rfl⟩ := h
  split_ifs at hb
  obtain ⟨h1, h2⟩ := Option.filter_eq_some_iff.mp hb
  exact ⟨b, h1, by simpa using h2, rfl⟩

/-- What loads of a key that holds `a` is `a` again. -/
theorem eq_of_loadRecord {a' : α} (h : Holds L st key a) (hl : loadRecord L env st key = some a') :
    a' = a := by
  obtain ⟨b, hb, -, rfl⟩ := loadRecord_eq_some hl
  rw [h] at hb
  cases hb
  exact L.dec_enc a

/-- A record of another size does not load. -/
theorem loadRecord_size_ne {β : Type} {M : Layout β} (h : Holds L st key a)
    (hs : L.size ≠ M.size) : loadRecord M env st key = none := by
  rcases hl : loadRecord M env st key with _ | b
  · rfl
  · obtain ⟨b', hb, hlen, -⟩ := loadRecord_eq_some hl
    rw [h] at hb
    cases hb
    exact absurd (L.length_enc a ▸ hlen) hs

end Records

end MqttFieldBridge.Config
