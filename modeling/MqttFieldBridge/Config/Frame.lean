import MqttFieldBridge.Config.Atomic

/-! # What an operation changes

With every save succeeding, an operation on the configuration either refuses its argument and changes
nothing, or changes only the records it is about. `Frames c r P` states both of a call that was made
in `c`; what the front ends do to the configuration is stated in the same form. -/

namespace MqttFieldBridge.Config

open MqttFieldBridge.CLib

/-- Every save succeeds. -/
def SavesSucceed (env : StoreEnv) : Prop := ∀ key, env.save key = .ok

/-- A call made in `c` that fails has changed nothing, and one that succeeds leaves a `P`. -/
structure Frames (c : ConfigState) (r : Rc × ConfigState) (P : ConfigState → Prop) : Prop where
  refused : r.1 = .err → r.2 = c
  done : r.1 = .ok → P r.2

variable {env : StoreEnv} {deviceId : List Byte} {c : ConfigState}

theorem Frames.mono {r : Rc × ConfigState} {P Q : ConfigState → Prop} (h : Frames c r P)
    (hPQ : ∀ c', P c' → Q c') : Frames c r Q :=
  ⟨h.refused, fun hr => hPQ _ (h.done hr)⟩

/-- A call that fails without an effect. -/
theorem frames_err {P : ConfigState → Prop} : Frames c (.err, c) P := ⟨fun _ => rfl, nofun⟩

/-- A call that succeeds. -/
theorem frames_ok {c' : ConfigState} {P : ConfigState → Prop} (h : P c') : Frames c (.ok, c') P :=
  ⟨nofun, fun _ => h⟩

theorem SavesSucceed.savesAll (h : SavesSucceed env) : SavesAll env := ⟨fun _ _ => h _, h _⟩

theorem setSettings_frames (h : SavesSucceed env) (s : FieldBridgeSettings) :
    Frames c (productConfigSetSettings env s c) fun c' =>
      c'.settings = s ∧ c'.peers = c.peers := by
  by_cases hv : SettingsValid s
  · rw [productConfigSetSettings_of_valid hv, h settingsKey]
    exact frames_ok ⟨rfl, rfl⟩
  · rw [productConfigSetSettings_of_invalid hv]
    exact frames_err

theorem setPeer_frames (h : SavesSucceed env) (index : ℤ) (peer : FieldBridgePeer) :
    Frames c (productConfigSetPeer env index peer c) fun c' =>
      c'.settings = c.settings ∧
        ∃ i, peerIndex index = some i ∧ c'.peers = Function.update c.peers i peer := by
  by_cases hv : ∃ i, peerIndex index = some i ∧ PeerValid peer
  · obtain ⟨i, hi, hv⟩ := hv
    rw [productConfigSetPeer_of_valid hi hv, h (peerKey i)]
    exact frames_ok ⟨rfl, i, hi, rfl⟩
  · rw [productConfigSetPeer_of_invalid fun i hi hp => hv ⟨i, hi, hp⟩]
    exact frames_err

/-- Saving everything changes no live record. -/
theorem persistSaveAll_live : (persistSaveAll env c).2.settings = c.settings ∧
    (persistSaveAll env c).2.peers = c.peers := by
  by_cases h : SavesAll env
  · obtain ⟨h1, h2⟩ := h
    simp only [persistSaveAll, persistSavePeers_eq, if_pos h1, persistSaveSettings_eq, h2]
    exact ⟨rfl, rfl⟩
  · rw [persistSaveAll_err h]
    exact ⟨rfl, rfl⟩

/-- Everything is replaced by the settings `s` and empty slots. -/
def Wiped (s : FieldBridgeSettings) (c' : ConfigState) : Prop :=
  c'.settings = s ∧ c'.peers = fun _ => .zero

theorem saveAll_frames (h : SavesSucceed env) {c₁ : ConfigState} {s : FieldBridgeSettings}
    (hw : Wiped s c₁) : Frames c (persistSaveAll env c₁) (Wiped s) := by
  have hok : (persistSaveAll env c₁).1 = .ok := persistSaveAll_ok h.savesAll
  obtain ⟨hs, hp⟩ := @persistSaveAll_live env c₁
  refine ⟨fun herr => ?_, fun _ => ⟨hs.trans hw.1, hp.trans hw.2⟩⟩
  rw [hok] at herr
  cases herr

theorem resetAll_frames (h : SavesSucceed env) :
    Frames c (productConfigResetAll env deviceId c) (Wiped (defaultSettings deviceId)) :=
  saveAll_frames h ⟨rfl, rfl⟩

theorem applySmall_frames (h : SavesSucceed env) :
    Frames c (productConfigApplyDefaults env deviceId profileSmall c)
      (Wiped (defaultSettings deviceId)) :=
  saveAll_frames h ⟨rfl, rfl⟩

theorem applyLarge_frames (h : SavesSucceed env) :
    Frames c (productConfigApplyDefaults env deviceId profileLarge c)
      (Wiped (largeDefaultSettings deviceId)) :=
  saveAll_frames h ⟨rfl, rfl⟩

end MqttFieldBridge.Config
