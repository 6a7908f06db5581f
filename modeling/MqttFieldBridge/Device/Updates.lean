import MqttFieldBridge.Console.Handle
import MqttFieldBridge.Http.Apply
import MqttFieldBridge.Lts.Updates

/-! # Settings updates of two threads

A settings command of the console and a POST to `/config` both read the settings, edit the copy and
hand the whole copy back, with nothing locked in between. As updates in two steps they are
`consoleUpdate` and `httpUpdate`; run without a pause these are what the front ends do
(`consoleUpdate_run`, `httpUpdate_run`). `settings_of_updates` says what two of them leave when each
has been acknowledged. -/

namespace MqttFieldBridge.Device

open MqttFieldBridge.CLib MqttFieldBridge.Config MqttFieldBridge.Runtime MqttFieldBridge.Console
  MqttFieldBridge.Http MqttFieldBridge.Lts

/-- An update of the settings; `Rc.ok` acknowledges it. -/
abbrev SettingsUpdate := Update ConfigState FieldBridgeSettings Rc

def consoleUpdate (w : World) (cmd : SettingsCommand) : SettingsUpdate where
  read := productConfigGetSettings
  write settings c := productConfigSetSettings w.store (cmd.edit settings) c

/-- A body that changes nothing is acknowledged without a save. -/
def httpUpdate (w : World) (body : Text) : SettingsUpdate where
  read := productConfigGetSettings
  write old c :=
    match configCandidate w.longBits body old with
    | none => (.err, c)
    | some new => if new = old then (.ok, c) else productConfigSetSettings w.store new c

variable {w w' : World} {cmd : SettingsCommand} {body : Text} {c c' : ConfigState}

/-! ### The updates are those of the front ends -/

theorem consoleUpdate_run {k : ConsoleState} : (consoleUpdate w cmd).run k.app.config =
    ((performSettings w k cmd).rc, (performSettings w k cmd).state.app.config) := by
  have hrun : (consoleUpdate w cmd).run k.app.config =
      productConfigSetSettings w.store (cmd.edit k.app.config.settings) k.app.config := rfl
  have hrc : (performSettings w k cmd).rc =
      (productConfigSetSettings w.store (cmd.edit k.app.config.settings) k.app.config).1 := by
    unfold performSettings saves fails productConfigGetSettings
    dsimp only
    rcases hr : (productConfigSetSettings w.store (cmd.edit k.app.config.settings)
      k.app.config).1 with _ | _
    · simp
    · simp
  rw [hrun, hrc, performSettings_config]

theorem httpUpdate_run {a : App} : (httpUpdate w body).run a.config =
    (if (postConfig w body a).response.status = 200 then .ok else .err,
      (postConfig w body a).app.config) := by
  have hrun : (httpUpdate w body).run a.config =
      (httpUpdate w body).write a.config.settings a.config := rfl
  rw [hrun]
  unfold httpUpdate postConfig
  dsimp only
  rcases hc : configCandidate w.longBits body a.config.settings with _ | n
  · rw [applyConfigJson_of_none hc]
    rfl
  · by_cases hn : n = a.config.settings
    · rw [hn] at hc ⊢
      rw [applyConfigJson_of_same hc]
      exact if_pos rfl
    · rw [applyConfigJson_of_new hc hn]
      refine (if_neg hn).trans ?_
      rcases hr : productConfigSetSettings w.store n a.config with ⟨_ | _, c'⟩
      · rfl
      · rfl

/-! ### An acknowledged write -/

/-- Whether settings are stored, and which, does not depend on those before. -/
theorem setSettings_settings {n : FieldBridgeSettings}
    (h : (productConfigSetSettings w.store n c').1 = .ok) :
    (productConfigSetSettings w.store n c').2.settings =
      (productConfigSetSettings w.store n c).2.settings := by
  have hv : SettingsValid n := by
    by_contra hv
    rw [productConfigSetSettings_of_invalid hv] at h
    cases h
  rw [productConfigSetSettings_of_valid hv, productConfigSetSettings_of_valid hv]

/-- A body that is acknowledged has stored what the copy asks for, or asks for the copy itself. -/
theorem overwrites_httpUpdate
    (hok : ((httpUpdate w body).write c.settings c').1 = .ok) :
    ((httpUpdate w body).write c.settings c').2.settings = ((httpUpdate w body).run c).2.settings ∨
      ((httpUpdate w body).write c.settings c').2 = c' ∧ ((httpUpdate w body).run c).2 = c := by
  have hrun : (httpUpdate w body).run c = (httpUpdate w body).write c.settings c := rfl
  rw [hrun]
  unfold httpUpdate at hok ⊢
  dsimp only at hok ⊢
  rcases hc : configCandidate w.longBits body c.settings with _ | n
  · rw [hc] at hok
    cases hok
  · rw [hc] at hok
    by_cases hn : n = c.settings
    · exact Or.inr (by simp only [if_pos hn, and_self])
    · simp only [if_neg hn] at hok ⊢
      exact Or.inl (setSettings_settings hok)

/-- A command on the console and a request. -/
def frontEnds (w w' : World) (cmd : SettingsCommand) (body : Text) : Bool → SettingsUpdate
  | true => consoleUpdate w cmd
  | false => httpUpdate w' body

/-- The configuration after the update of `i` and then the other. -/
def inTurn (w w' : World) (cmd : SettingsCommand) (body : Text) (i : Bool) (c : ConfigState) :
    ConfigState :=
  ((frontEnds w w' cmd body !i).run ((frontEnds w w' cmd body i).run c).2).2

/-- An update that is acknowledged though its copy is old has stored what it stores alone, or it asks
for nothing new and could as well have run first. -/
theorem overwrites_old {i : Bool}
    (hok : ((frontEnds w w' cmd body i).write ((frontEnds w w' cmd body i).read c) c').1 = .ok) :
    ((frontEnds w w' cmd body i).write ((frontEnds w w' cmd body i).read c) c').2.settings =
        ((frontEnds w w' cmd body i).run c).2.settings ∨
      ((frontEnds w w' cmd body i).write ((frontEnds w w' cmd body i).read c) c').2 = c' ∧
        ((frontEnds w w' cmd body i).run c).2 = c := by
  cases i with
  | true => exact Or.inl (setSettings_settings hok)
  | false => exact overwrites_httpUpdate hok

/-- **Two acknowledged updates.** If they do not overlap, they have run one after the other. If they
do, the one that writes last may have left the settings that it leaves alone. -/
theorem settings_of_updates {p' : Updating Bool ConfigState FieldBridgeSettings Rc}
    (hack : ∀ i, p'.phase i = .done .ok) :
    (((Update.updates (frontEnds w w' cmd body) c).restrict Update.Separate).Reachable p' →
      ∃ i, p'.shared = inTurn w w' cmd body i c) ∧
    ∀ p last, (Update.updates (frontEnds w w' cmd body) c).Reachable p →
      Update.Step (frontEnds w w' cmd body) p last p' →
        (∃ i, p'.shared = inTurn w w' cmd body i c) ∨
          p'.shared.settings = ((frontEnds w w' cmd body last).run c).2.settings := by
  constructor
  · intro hp
    obtain ⟨order, h⟩ := Update.serialized_of_separate hp
    obtain ⟨i, rfl⟩ := Update.order_of_both h.nodup fun i => (h.mem i).mpr ⟨_, hack i⟩
    exact ⟨i, h.shared⟩
  · intro p last hp hlast
    obtain ⟨copy, hcopy, hphase, hshared⟩ := Update.last_write hp hlast fun i => ⟨_, hack i⟩
    have hok := Phase.done.inj (hphase.symm.trans (hack last))
    rcases hcopy with rfl | rfl
    · rcases overwrites_old hok with hset | ⟨hkept, hrun⟩
      · exact Or.inr (by rw [hshared, hset])
      · refine Or.inl ⟨last, ?_⟩
        rw [hshared, hkept, inTurn, hrun]
    · refine Or.inl ⟨!last, ?_⟩
      rw [hshared, inTurn, Bool.not_not]
      rfl

/-- A body that moves the broker's port. -/
def portBody : Text := str "\x7b\"mqtt_port\":1885\x7d"

/-- `dhcp` on the console and this body, both of which read before either writes. -/
theorem reachable_dhcpAndPort : ∃ p p',
    (Update.updates (frontEnds .good .good dhcpCommand portBody) freshConfig).Reachable p ∧
      Update.Step (frontEnds .good .good dhcpCommand portBody) p false p' ∧
      (∀ i, p'.phase i = .done .ok) ∧
      p'.shared.settings = { defaultSettings [] with broker.mqttPort := 1885 } := by
  obtain ⟨p, p', hp, hlast, htrue, hfalse, hshared⟩ := @Update.reachable_overlap _ _ _ freshConfig
    (frontEnds .good .good dhcpCommand portBody) true
  refine ⟨p, p', hp, hlast, fun i => ?_, ?_⟩
  · cases i with
    | true => exact htrue.trans (congrArg Phase.done (by decide))
    | false => exact hfalse.trans (congrArg Phase.done (by decide))
  · rw [hshared]
    decide

/-- Both halves, in the run in which `dhcp` is done before the body is read, and in the one in which
it is not. -/
theorem settings_of_updates_dhcpAndPort :
    (∃ p', ((Update.updates (frontEnds .good .good dhcpCommand portBody) freshConfig).restrict
        Update.Separate).Reachable p' ∧ (∀ i, p'.phase i = .done .ok) ∧
      ∃ i, p'.shared = inTurn .good .good dhcpCommand portBody i freshConfig) ∧
    ∃ p p', (Update.updates (frontEnds .good .good dhcpCommand portBody) freshConfig).Reachable p ∧
      Update.Step (frontEnds .good .good dhcpCommand portBody) p false p' ∧
      (∀ i, p'.phase i = .done .ok) ∧
      ((∃ i, p'.shared = inTurn .good .good dhcpCommand portBody i freshConfig) ∨
        p'.shared.settings =
          ((frontEnds .good .good dhcpCommand portBody false).run freshConfig).2.settings) := by
  constructor
  · obtain ⟨p', hp, htrue, hfalse, -⟩ := @Update.reachable_separate _ _ _ freshConfig
      (frontEnds .good .good dhcpCommand portBody) true
    have hack : ∀ i, p'.phase i = .done .ok := fun i => by
      cases i with
      | true => exact htrue.trans (congrArg Phase.done (by decide))
      | false => exact hfalse.trans (congrArg Phase.done (by decide))
    exact ⟨p', hp, hack, (settings_of_updates hack).1 hp⟩
  · obtain ⟨p, p', hp, hlast, hack, -⟩ := reachable_dhcpAndPort
    exact ⟨p, p', hp, hlast, hack, (settings_of_updates hack).2 p false hp hlast⟩

/-- The DHCP flag that was acknowledged is lost, which happens in neither order. -/
theorem dhcp_lost : lineRequest 32 .main (str "dhcp") = .settings dhcpCommand ∧ ∃ p,
    (Update.updates (frontEnds .good .good dhcpCommand portBody) freshConfig).Reachable p ∧
      (∀ i, p.phase i = .done .ok) ∧
      ∀ i, p.shared.settings ≠ (inTurn .good .good dhcpCommand portBody i freshConfig).settings := by
  refine ⟨rfl, ?_⟩
  obtain ⟨p, p', hp, hlast, hack, hset⟩ := reachable_dhcpAndPort
  refine ⟨p', hp.step hlast, hack, fun i => ?_⟩
  rw [hset]
  revert i
  decide

end MqttFieldBridge.Device
