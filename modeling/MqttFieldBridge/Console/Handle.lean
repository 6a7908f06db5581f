import MqttFieldBridge.Config.Atomic
import MqttFieldBridge.Console.Line
import MqttFieldBridge.Runtime.Bridge

/-! # What a console line does

`product_console_handle_line` over the state of the device and the current menu. A line prints one
screen or one text, and all it does to the configuration is at most one operation of its own,
`Request.configOp`. -/

namespace MqttFieldBridge.Console

open MqttFieldBridge.CLib MqttFieldBridge.Config MqttFieldBridge.Runtime

/-- What a line prints. The screens are fixed but for the values they show. -/
inductive Output where
  | menu (m : Menu)
  | usage (u : Usage)
  | help
  | status (s : FieldBridgeRuntimeStatus)
  | summary (s : FieldBridgeRuntimeStatus) (cfg : FieldBridgeSettings)
  | showConfig (cfg : FieldBridgeSettings)
  | text (t : Text)

/-- The device and `current_menu`. -/
@[ext] structure ConsoleState where
  menu : Menu
  app : App

/-- What a line returns, prints and leaves, and whether it asks for a reboot. -/
structure LineResult where
  rc : Rc
  output : Option Output
  state : ConsoleState
  reboot : Bool

/-- `pc_write` of a text; its buffer holds 256 bytes. -/
def pcWrite (t : Text) : Option Output := some (.text (t.take 255))

section Perform

variable (w : World) (k : ConsoleState)

/-- Prints a screen. -/
def displays (o : Output) : LineResult := ⟨.ok, some o, k, false⟩

/-- Prints an error. -/
def fails (t : Text) : LineResult := ⟨.err, pcWrite t, k, false⟩

/-- An operation on the configuration, and what is printed if it fails and if it does not. -/
def saves (r : Rc × ConfigState) (failed saved : Text) : LineResult :=
  let k := { k with app.config := r.2 }
  if r.1 ≠ .ok then fails k failed else ⟨.ok, pcWrite saved, k, false⟩

/-- The commands that edit the settings: read them, edit the copy, save it. -/
def performSettings (cmd : SettingsCommand) : LineResult :=
  let settings := cmd.edit (productConfigGetSettings k.app.config)
  let r := saves k (productConfigSetSettings w.store settings k.app.config) cmd.failed
    (cmd.saved settings)
  if r.rc ≠ .ok then r
  else { r with state.app.runtime := cmd.after r.state.app.runtime }

def performPeer (index : ℤ) (peer : FieldBridgePeer) : LineResult :=
  match productConfigGetPeer index k.app.config with
  | none => fails k (str "ERR invalid peer index\n")
  | some _ => saves k (productConfigSetPeer w.store index peer k.app.config)
      (str "ERR save peer failed\n") (str "OK saved peer " ++ decimal index.toNat ++ str "\n")

def performDefaults (profile : FieldBridgeDefaultsProfile) : LineResult :=
  saves k (productConfigApplyDefaults w.store w.deviceId profile k.app.config)
    (str "ERR defaults failed\n")
    (str "OK defaults applied; reboot to apply network/broker\n")

def performReset : LineResult :=
  saves k (productConfigResetAll w.store w.deviceId k.app.config) (str "ERR reset failed\n")
    (str "OK reset defaults; reboot to apply\n")

/-- The state after the runtime status has been asked for. -/
def refreshed : ConsoleState :=
  { k with app.runtime := productRuntimeGetStatus w.p2p k.app.runtime }

def perform : Request → LineResult
  | .nothing => ⟨.ok, none, k, false⟩
  | .menu m => displays { k with menu := m } (.menu m)
  | .usage u => displays k (.usage u)
  | .help => displays k .help
  | .status => displays (refreshed w k) (.status (refreshed w k).app.runtime.runtimeStatus)
  | .summary => displays (refreshed w k)
      (.summary (refreshed w k).app.runtime.runtimeStatus (productConfigGetSettings k.app.config))
  | .showConfig => displays k (.showConfig (productConfigGetSettings k.app.config))
  | .settings cmd => performSettings w k cmd
  | .peer index peer => performPeer w k index peer
  | .defaults profile => performDefaults w k profile
  | .reset => performReset w k
  | .reboot => ⟨.ok, pcWrite (str "OK rebooting\n"), k, true⟩
  | .error t => fails k t

def productConsoleHandleLine (line : Text) : LineResult :=
  perform w k (lineRequest w.longBits k.menu (cstr line))

end Perform

/-! ### What a line does to the configuration -/

/-- The operation a request runs on the configuration. -/
def Request.configOp (s : FieldBridgeSettings) : Request → Option ConfigOp
  | .settings cmd => some (.setSettings (cmd.edit s))
  | .peer index p => some (.setPeer index p)
  | .defaults profile => some (.applyDefaults profile)
  | .reset => some .resetAll
  | _ => none

variable {w : World} {k : ConsoleState}

theorem saves_app {r : Rc × ConfigState} {failed saved : Text} :
    (saves k r failed saved).state.app = { k.app with config := r.2 } := by
  unfold saves fails
  dsimp only
  split_ifs
  · rfl
  · rfl

theorem saves_config {r : Rc × ConfigState} {failed saved : Text} :
    (saves k r failed saved).state.app.config = r.2 :=
  congrArg App.config saves_app

/-- What a line returns and the configuration it leaves. -/
def LineResult.call (r : LineResult) : Rc × ConfigState := (r.rc, r.state.app.config)

theorem saves_call {r : Rc × ConfigState} {failed saved : Text} :
    (saves k r failed saved).call = r := by
  have hrc : (saves k r failed saved).rc = r.1 := by
    unfold saves
    dsimp only
    split_ifs with hr
    · exact (Rc.ne_ok_iff.mp hr).symm
    · exact (not_not.mp hr).symm
  exact Prod.ext hrc saves_config

theorem performSettings_call {cmd : SettingsCommand} : (performSettings w k cmd).call =
    productConfigSetSettings w.store (cmd.edit k.app.config.settings) k.app.config := by
  have hcall : (performSettings w k cmd).call =
      (saves k (productConfigSetSettings w.store (cmd.edit k.app.config.settings) k.app.config)
        cmd.failed (cmd.saved (cmd.edit k.app.config.settings))).call := by
    unfold performSettings productConfigGetSettings
    dsimp only
    split_ifs
    · rfl
    · rfl
  rw [hcall, saves_call]

/-- An index out of range is refused with and without the look at the slot. -/
theorem performPeer_call {index : ℤ} {peer : FieldBridgePeer} : (performPeer w k index peer).call =
    productConfigSetPeer w.store index peer k.app.config := by
  unfold performPeer productConfigGetPeer
  rcases hi : peerIndex index with _ | i
  · have hnone : productConfigSetPeer w.store index peer k.app.config = (.err, k.app.config) := by
      unfold productConfigSetPeer
      rw [hi]
    rw [hnone]
    rfl
  · exact saves_call

theorem performSettings_config {cmd : SettingsCommand} :
    (performSettings w k cmd).state.app.config =
      (productConfigSetSettings w.store (cmd.edit k.app.config.settings) k.app.config).2 :=
  congrArg Prod.snd performSettings_call

theorem performPeer_config {index : ℤ} {peer : FieldBridgePeer} :
    (performPeer w k index peer).state.app.config =
      (productConfigSetPeer w.store index peer k.app.config).2 :=
  congrArg Prod.snd performPeer_call

theorem perform_config {r : Request} :
    (perform w k r).state.app.config =
      afterOp w.store w.deviceId (r.configOp k.app.config.settings) k.app.config := by
  cases r with
  | nothing => rfl
  | menu m => rfl
  | usage u => rfl
  | help => rfl
  | status => rfl
  | summary => rfl
  | showConfig => rfl
  | settings cmd => exact performSettings_config
  | peer index peer => exact performPeer_config
  | defaults profile => exact saves_config
  | reset => exact saves_config
  | reboot => rfl
  | error t => rfl

end MqttFieldBridge.Console
