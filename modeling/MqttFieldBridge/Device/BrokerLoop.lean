import MqttFieldBridge.Boot.Broker
import MqttFieldBridge.Console.Handle
import MqttFieldBridge.Http.Apply
import MqttFieldBridge.Lts.Reach

/-! # Start requests and the main loop

The main loop of a build for the W5500, the broker thread and control requests, in any interleaving.
An iteration of the loop is several steps, between which the others may act; undisturbed it is
`mainLoopIteration`. The loop wants to serve a request to start the broker, but the flag that the
thread has been started is never cleared, so only the thread's one report answers a request:
`neverStuck_of_early` is that requests made before the report do not get stuck, and `stuck_of_late` that
a later one does. -/

namespace MqttFieldBridge.Device

open MqttFieldBridge.CLib MqttFieldBridge.Config MqttFieldBridge.Runtime MqttFieldBridge.Console
  MqttFieldBridge.Http MqttFieldBridge.Boot MqttFieldBridge.Lts

/-! ### Control requests -/

/-- A request that may start or stop the broker. -/
inductive ControlRequest where
  /-- POST `/broker/control` -/
  | post (w : World) (body : Text)
  /-- A console line, for one `broker-state`. -/
  | line (w : World) (menu : Menu) (text : Text)

def ControlRequest.apply (a : App) : ControlRequest → App
  | .post w body => (postBrokerControl w body a).app
  | .line w menu text => (productConsoleHandleLine w ⟨menu, a⟩ text).state.app

/-- The line is `broker-state` with a number that is 1. -/
def AsksStart (w : World) (text : Text) : Prop :=
  ∃ save arg, nextToken (cstr text) = (some (str "broker-state"), save) ∧
    (nextToken save).1 = some arg ∧ atoi w.longBits arg = 1

/-- The request asks to start the broker, and is accepted. -/
def ControlRequest.Starts (a : App) : ControlRequest → Prop
  | .post w body => jsonGetBoolish w.longBits body (str "enabled") = some 1
  | .line w menu text => AsksStart w text ∧ (productConsoleHandleLine w ⟨menu, a⟩ text).rc = .ok

/-- The broker state is `requested`. -/
def StartRequested (a : App) : Prop := productRuntimeBrokerStartRequested a.runtime = true

/-- A command that leaves the runtime status alone. -/
def Quiet : Request → Prop
  | .settings cmd => cmd.after = id
  | _ => True

/-! ### The steps -/

/-- Where the main loop is. -/
inductive LoopPhase where
  /-- Asleep; `requested` is that the last iteration found the thread started and a request. -/
  | done (requested : Bool)
  | foundStopped
  | foundStarted
  | foundRequested
  /-- The thread is about to be created. -/
  | creating
  /-- The thread has been created, and is about to be marked as started. -/
  | marking
deriving DecidableEq

structure LoopState where
  node : Node
  phase : LoopPhase

/-- What the main loop does next. -/
def loopStep (b : BrokerLib) (w : World) (asksStatus : Bool) (s : LoopState) : LoopState :=
  match s.phase with
  | .done _ => { s with phase := if !s.node.brokerThreadStarted then .foundStopped else .foundStarted }
  | .foundStopped =>
    let r := prepareBroker b w (productConfigGetSettings s.node.app.config) s.node
    ⟨r.2, if r.1 ≠ .ok then .done false else .creating⟩
  | .creating => ⟨{ s.node with thread := .starting }, .marking⟩
  | .marking => ⟨{ s.node with brokerThreadStarted := true }, .done false⟩
  | .foundStarted =>
    if productRuntimeBrokerStartRequested s.node.app.runtime then { s with phase := .foundRequested }
    else if asksStatus then
      ⟨{ s.node with app.runtime := productRuntimeGetStatus w.p2p s.node.app.runtime }, .done false⟩
    else { s with phase := .done false }
  | .foundRequested =>
    ⟨(startBrokerService b w (productConfigGetSettings s.node.app.config) s.node).2, .done true⟩

inductive LoopAction where
  | loop (b : BrokerLib) (w : World) (asksStatus : Bool)
  | report (b : BrokerLib)
  | request (r : ControlRequest)

def LoopAction.exec (s : LoopState) : LoopAction → Option LoopState
  | .loop b w asksStatus => some (loopStep b w asksStatus s)
  | .report b =>
    if s.node.thread = .starting then some { s with node := brokerServiceEntry b s.node } else none
  | .request r => some { s with node.app := r.apply s.node.app }

/-- The loop starts when `main` has run `bridge_control_init`. -/
def brokerRuns : System LoopState LoopAction where
  init s := ∃ w w' eth a settings, mainStart w w' eth a = some (settings, s.node) ∧
    s.phase = .done false
  step s act s' := act.exec s = some s'

/-- An iteration that found a request leaves none, or a thread that has yet to report. -/
def NeverStuck (M : System LoopState LoopAction) : Prop :=
  ∀ s b w asksStatus, M.Reachable s → (loopStep b w asksStatus s).phase = .done true →
    StartRequested (loopStep b w asksStatus s).node.app →
      (loopStep b w asksStatus s).node.thread = .starting

/-- The thread has made its report. -/
def HasReported (n : Node) : Prop := n.thread = .running ∨ n.thread = .exited

/-- Requests to start the broker are made before the thread reports. -/
def RequestsEarly (s : LoopState) : LoopAction → Prop
  | .request r => r.Starts s.node.app → ¬ HasReported s.node
  | _ => True

/-! ### What the steps do to a request -/

section Requests

variable {a : App} {n : Node} {w : World} {b : BrokerLib}

theorem startRequested_iff :
    StartRequested a ↔ a.runtime.runtimeStatus.brokerState.val = str "requested" :=
  decide_eq_true_iff

theorem not_startRequested_failed (error : String) : ¬ StartRequested (n.failed error).app := by
  rw [startRequested_iff]
  exact fun h => absurd h (by decide : (copyStr (str "error") : CStr fieldBridgeStateMax).val ≠ _)

theorem not_startRequested_entry : ¬ StartRequested (brokerServiceEntry b n).app := by
  unfold brokerServiceEntry
  split_ifs
  · exact not_startRequested_failed _
  · rw [startRequested_iff]
    exact fun h => absurd h (by decide : (copyStr (str "running") : CStr fieldBridgeStateMax).val ≠ _)

theorem prepareBroker_marks {s : FieldBridgeSettings} :
    (prepareBroker b w s n).2.brokerThreadStarted = n.brokerThreadStarted ∧
      (prepareBroker b w s n).2.thread = n.thread ∧
      (StartRequested (prepareBroker b w s n).2.app → StartRequested n.app) := by
  unfold prepareBroker
  dsimp only
  split_ifs
  · exact ⟨rfl, rfl, fun h => absurd h (not_startRequested_failed _)⟩
  · exact ⟨rfl, rfl, fun h => absurd h (not_startRequested_failed _)⟩
  · refine ⟨rfl, rfl, fun h => ?_⟩
    rw [startRequested_iff, applyPeers_config.2] at h
    exact startRequested_iff.mpr h

variable {k : ConsoleState}

theorem saves_runtime {r : Rc × ConfigState} {failed saved : Text} :
    (saves k r failed saved).state.app.runtime = k.app.runtime := by
  rw [saves_app]

/-- A settings command touches the runtime status if it is accepted. -/
theorem performSettings_runtime {cmd : SettingsCommand} :
    (performSettings w k cmd).rc ≠ .ok ∧
        (performSettings w k cmd).state.app.runtime = k.app.runtime ∨
      (performSettings w k cmd).rc = .ok ∧
        (performSettings w k cmd).state.app.runtime = cmd.after k.app.runtime := by
  unfold performSettings
  dsimp only
  split_ifs with h
  · exact Or.inl ⟨h, saves_runtime⟩
  · exact Or.inr ⟨not_not.mp h, congrArg cmd.after saves_runtime⟩

theorem perform_quiet {r : Request} (h : Quiet r) :
    (perform w k r).state.app.runtime.runtimeStatus.brokerState =
      k.app.runtime.runtimeStatus.brokerState := by
  cases r with
  | settings cmd =>
    show (performSettings w k cmd).state.app.runtime.runtimeStatus.brokerState = _
    rcases performSettings_runtime with ⟨-, hrun⟩ | ⟨-, hrun⟩
    · rw [hrun]
    · rw [hrun, show cmd.after = id from h, id]
  | status => exact getStatus_kept.2
  | summary => exact getStatus_kept.2
  | peer index p =>
    show (performPeer w k index p).state.app.runtime.runtimeStatus.brokerState = _
    unfold performPeer
    split
    · rfl
    · rw [saves_runtime]
  | defaults profile => exact congrArg (fun r => r.runtimeStatus.brokerState) saves_runtime
  | reset => exact congrArg (fun r => r.runtimeStatus.brokerState) saves_runtime
  | _ => rfl

end Requests

/-! ### Which console lines ask for a start -/

section Lines

variable {longBits : ℕ} {cmd save : Text}

theorem quiet_portCommand {name : String} {set : UInt16 → FieldBridgeSettings → FieldBridgeSettings}
    {get : FieldBridgeSettings → UInt16} : Quiet (portCommand longBits name set get save) := by
  unfold portCommand
  split
  · trivial
  · rfl

theorem quiet_plain {r : Request} (h : r.Plain) : Quiet r := by
  cases r with
  | settings cmd => exact h.elim
  | _ => trivial

theorem quiet_menuItem {m : Menu} {index : ℤ} {r : Request} (h : MenuItem m index r) :
    Quiet r := by
  cases h with
  | plain hr => exact quiet_plain hr
  | dhcp => rfl
  | reset => trivial
  | unknown => trivial

theorem quiet_command {r : Request} (h : Command longBits cmd save r)
    (hcmd : cmd ≠ str "broker-state") : Quiet r := by
  cases h with
  | plain hr => exact quiet_plain hr
  | ip =>
    unfold cmdIp
    dsimp only
    split
    · trivial
    · rfl
  | mode =>
    unfold cmdMode
    split
    · trivial
    · rfl
  | dhcp => rfl
  | broker =>
    unfold cmdBroker
    dsimp only
    split
    · rfl
    · trivial
  | brokerPort => exact quiet_portCommand
  | brokerFallbackPort => exact quiet_portCommand
  | brokerIp =>
    unfold cmdBrokerIp
    split
    · trivial
    · rfl
  | bridgePort => exact quiet_portCommand
  | brokerState h => exact absurd h hcmd
  | peer =>
    unfold cmdPeer
    dsimp only
    split
    · trivial
    · trivial
  | defaults =>
    unfold cmdDefaults
    split
    · trivial
    · split_ifs
      · trivial
      · trivial
      · trivial
  | reset => trivial
  | unknown => trivial

variable {w : World} {k : ConsoleState}

theorem startRequested_set (r : RuntimeState) :
    (productRuntimeSetBrokerEnabled 1 r).2.runtimeStatus.brokerState.val = str "requested" := by
  rw [setBrokerEnabled_ok (le_refl 1)]
  rfl

/-- `broker-state` asks for a start if it is accepted with a 1, and else leaves the state alone. -/
theorem perform_cmdBrokerState {arg : Text} (harg : (nextToken save).1 = some arg) :
    (atoi w.longBits arg = 1 ∧ (perform w k (cmdBrokerState w.longBits save)).rc = .ok ∧
        StartRequested (perform w k (cmdBrokerState w.longBits save)).state.app) ∨
      (¬ (atoi w.longBits arg = 1 ∧ (perform w k (cmdBrokerState w.longBits save)).rc = .ok) ∧
        (perform w k (cmdBrokerState w.longBits save)).state.app.runtime = k.app.runtime) := by
  unfold cmdBrokerState
  rw [harg]
  dsimp only
  by_cases hvalue : atoi w.longBits arg ≠ 0 ∧ atoi w.longBits arg ≠ 1
  · rw [if_pos hvalue]
    exact Or.inr ⟨fun h => hvalue.2 h.1, rfl⟩
  · rw [if_neg hvalue]
    rcases performSettings_runtime with ⟨hrc, hrun⟩ | ⟨hrc, hrun⟩
    · exact Or.inr ⟨fun h => hrc h.2, hrun⟩
    by_cases hone : atoi w.longBits arg = 1
    · refine Or.inl ⟨hone, hrc, startRequested_iff.mpr ?_⟩
      refine (congrArg (fun r => r.runtimeStatus.brokerState.val) hrun).trans ?_
      dsimp only
      rw [if_pos hone]
      exact startRequested_set _
    · refine Or.inr ⟨fun h => hone h.1, hrun.trans ?_⟩
      dsimp only
      rw [if_neg hone]

/-- Only the word `broker-state` asks for a start or a stop. -/
theorem quiet_lineRequest {m : Menu} {line : Text}
    (h : (nextToken line).1 ≠ some (str "broker-state")) : Quiet (lineRequest longBits m line) := by
  rcases lineRequest_cases longBits m line with
    ⟨-, hr⟩ | ⟨cmd, save, hw, ⟨-, hr⟩ | ⟨-, hr⟩ | ⟨-, hr⟩⟩
  · rw [hr]
    trivial
  · rw [hr]
    trivial
  · rw [hr]
    exact quiet_menuItem (menuItem_menuRequest _ _)
  · rw [hr]
    refine quiet_command (command_commandRequest _ _ _) fun hcmd => h ?_
    rw [hw, hcmd]

theorem lineRequest_brokerState {m : Menu} {line : Text}
    (h : nextToken line = (some (str "broker-state"), save)) :
    lineRequest longBits m line = cmdBrokerState longBits save :=
  lineRequest_command h (by decide) (by decide)

/-- A line either asks for a start, or leaves the broker state alone. -/
theorem handleLine_brokerState (w : World) (k : ConsoleState) (text : Text) :
    (AsksStart w text ∧ (productConsoleHandleLine w k text).rc = .ok ∧
        StartRequested (productConsoleHandleLine w k text).state.app) ∨
      (¬ (AsksStart w text ∧ (productConsoleHandleLine w k text).rc = .ok) ∧
        (productConsoleHandleLine w k text).state.app.runtime.runtimeStatus.brokerState =
          k.app.runtime.runtimeStatus.brokerState) := by
  unfold productConsoleHandleLine
  by_cases hword : (nextToken (cstr text)).1 = some (str "broker-state")
  · obtain ⟨save, hsave⟩ : ∃ save, nextToken (cstr text) = (some (str "broker-state"), save) :=
      ⟨_, Prod.ext hword rfl⟩
    rw [lineRequest_brokerState hsave]
    have hasks : ∀ arg, (nextToken save).1 = some arg →
        (AsksStart w text ↔ atoi w.longBits arg = 1) := fun arg harg => by
      refine ⟨?_, fun h => ⟨save, arg, hsave, harg, h⟩⟩
      rintro ⟨save', arg', h, h', hone⟩
      obtain rfl := (Prod.mk.inj (hsave.symm.trans h)).2
      obtain rfl := Option.some.inj (harg.symm.trans h')
      exact hone
    rcases harg : (nextToken save).1 with _ | arg
    · refine Or.inr ⟨?_, perform_quiet ?_⟩
      · rintro ⟨⟨save', arg, h, h', -⟩, -⟩
        obtain rfl := (Prod.mk.inj (hsave.symm.trans h)).2
        rw [harg] at h'
        cases h'
      · unfold cmdBrokerState
        rw [harg]
        trivial
    · rw [hasks arg harg]
      exact (perform_cmdBrokerState harg).imp_right fun h =>
        ⟨h.1, congrArg (fun r => r.runtimeStatus.brokerState) h.2⟩
  · refine Or.inr ⟨?_, perform_quiet (quiet_lineRequest hword)⟩
    rintro ⟨⟨save, arg, h, -⟩, -⟩
    exact hword (congrArg Prod.fst h)

end Lines

/-! ### Requests in general -/

section ControlRequests

variable {a : App} {r : ControlRequest}

theorem postBrokerControl_brokerState {w : World} {body : Text} :
    (jsonGetBoolish w.longBits body (str "enabled") = some 1 ∧
        StartRequested (postBrokerControl w body a).app) ∨
      (jsonGetBoolish w.longBits body (str "enabled") ≠ some 1 ∧
        (StartRequested (postBrokerControl w body a).app → StartRequested a)) := by
  unfold postBrokerControl
  rcases jsonGetBoolish w.longBits body (str "enabled") with _ | enabled
  · exact Or.inr ⟨nofun, id⟩
  · dsimp only
    have hstate : ∀ c, StartRequested (if (productRuntimeSetBrokerEnabled enabled a.runtime).1 ≠ .ok
        then badRequest c { a with runtime := (productRuntimeSetBrokerEnabled enabled a.runtime).2 }
        else accepted "requested"
          { a with runtime := (productRuntimeSetBrokerEnabled enabled a.runtime).2 }).app ↔
        (productRuntimeSetBrokerEnabled enabled a.runtime).2.runtimeStatus.brokerState.val =
          str "requested" := fun c => by
      rw [startRequested_iff]
      split_ifs
      · rfl
      · rfl
    rw [hstate]
    by_cases hone : enabled = 1
    · subst hone
      exact Or.inl ⟨rfl, startRequested_set _⟩
    · refine Or.inr ⟨fun h => hone (Option.some.inj h), fun h => ?_⟩
      unfold productRuntimeSetBrokerEnabled at h
      by_cases hbig : enabled > 1
      · rw [if_pos hbig] at h
        exact startRequested_iff.mpr h
      · have hzero : enabled = 0 := by
          have hle : enabled ≤ 1 := UInt8.not_lt.mp hbig
          exact (validBool_cases hle).resolve_right hone
        rw [if_neg hbig, hzero] at h
        exact absurd h (by decide : (copyStr (str "stopped") : CStr fieldBridgeStateMax).val ≠ _)

/-- A request that asks for a start leaves one requested. -/
theorem startRequested_of_starts (h : r.Starts a) : StartRequested (r.apply a) := by
  cases r with
  | post w body => exact (postBrokerControl_brokerState.resolve_right fun h' => h'.1 h).2
  | line w menu text =>
    exact ((handleLine_brokerState w ⟨menu, a⟩ text).resolve_right fun h' => h'.1 h).2.2

/-- Only a request for a start leaves one requested that was not. -/
theorem starts_or_of_apply (h : StartRequested (r.apply a)) : StartRequested a ∨ r.Starts a := by
  cases r with
  | post w body =>
    rcases postBrokerControl_brokerState with ⟨hone, -⟩ | ⟨-, hkept⟩
    · exact Or.inr hone
    · exact Or.inl (hkept h)
  | line w menu text =>
    rcases handleLine_brokerState w ⟨menu, a⟩ text with ⟨hasks, hrc, -⟩ | ⟨-, hkept⟩
    · exact Or.inr ⟨hasks, hrc⟩
    · exact Or.inl (startRequested_iff.mpr (hkept ▸ startRequested_iff.mp h))

end ControlRequests

/-! ### Undisturbed, the steps are an iteration -/

/-- The steps of an iteration without a pause. -/
theorem loopStep_iterate (b : BrokerLib) (w : World) (asksStatus requested : Bool) (n : Node) :
    ∃ k ≤ 4, ∃ requested', (loopStep b w asksStatus)^[k] ⟨n, .done requested⟩ =
      ⟨mainLoopIteration b w asksStatus n, .done requested'⟩ := by
  unfold mainLoopIteration
  by_cases hstarted : n.brokerThreadStarted = true
  · have hnot : ¬ (!n.brokerThreadStarted) = true := by simp [hstarted]
    have hfound : loopStep b w asksStatus ⟨n, .done requested⟩ = ⟨n, .foundStarted⟩ := by
      simp only [loopStep, if_neg hnot]
    rw [if_neg hnot]
    by_cases hreq : productRuntimeBrokerStartRequested n.app.runtime = true
    · refine ⟨3, by omega, true, ?_⟩
      rw [if_pos hreq, startBrokerService_of_started hstarted]
      simp only [Function.iterate_succ_apply, Function.iterate_zero_apply, hfound]
      simp only [loopStep, if_pos hreq, startBrokerService_of_started hstarted]
    · refine ⟨2, by omega, false, ?_⟩
      rw [if_neg hreq]
      simp only [Function.iterate_succ_apply, Function.iterate_zero_apply, hfound]
      simp only [loopStep, if_neg hreq]
      split_ifs
      · rfl
      · rfl
  · have hnot : (!n.brokerThreadStarted) = true := by simpa using hstarted
    have hfound : loopStep b w asksStatus ⟨n, .done requested⟩ = ⟨n, .foundStopped⟩ := by
      simp only [loopStep, if_pos hnot]
    rw [if_pos hnot]
    unfold startBrokerService
    rw [if_neg hstarted]
    dsimp only
    by_cases hprep : (prepareBroker b w (productConfigGetSettings n.app.config) n).1 ≠ .ok
    · refine ⟨2, by omega, false, ?_⟩
      rw [if_pos hprep]
      simp only [Function.iterate_succ_apply, Function.iterate_zero_apply, hfound]
      simp only [loopStep, if_pos hprep]
    · refine ⟨4, by omega, false, ?_⟩
      rw [if_neg hprep]
      simp only [Function.iterate_succ_apply, Function.iterate_zero_apply, hfound]
      simp only [loopStep, if_neg hprep]

/-! ### Runs -/

/-- The flag says whether the thread has been created, but for the moment in between. -/
structure Marks (s : LoopState) : Prop where
  created : s.node.brokerThreadStarted = true → s.node.thread ≠ .none
  marking : s.phase = .marking → s.node.thread ≠ .none
  marked : s.node.thread ≠ .none → s.node.brokerThreadStarted = true ∨ s.phase = .marking
  found : s.phase = .foundStarted ∨ s.phase = .foundRequested → s.node.brokerThreadStarted = true

/-- With a report, no request is left. -/
def Answered (n : Node) : Prop := HasReported n → ¬ StartRequested n.app

section Steps

variable {b : BrokerLib} {w : World} {asksStatus : Bool} {s s' : LoopState}

/-- A step to a phase that says nothing about the flag. -/
theorem Marks.of_same (h : Marks s) (hs : s.phase ≠ .marking)
    (hflag : s'.node.brokerThreadStarted = s.node.brokerThreadStarted)
    (hthread : s'.node.thread = s.node.thread) (hphase : s'.phase ≠ .marking)
    (hfound : s'.phase = .foundStarted ∨ s'.phase = .foundRequested →
      s.node.brokerThreadStarted = true) : Marks s' where
  created := by
    rw [hflag, hthread]
    exact h.created
  marking := fun h => absurd h hphase
  marked := by
    rw [hflag, hthread]
    exact fun ht => Or.inl ((h.marked ht).resolve_right hs)
  found := by
    rw [hflag]
    exact hfound

theorem Marks.loop (h : Marks s) : Marks (loopStep b w asksStatus s) := by
  rcases s with ⟨n, phase⟩
  cases phase with
  | done requested =>
    by_cases hflag : n.brokerThreadStarted = true
    · have hstep : loopStep b w asksStatus ⟨n, .done requested⟩ = ⟨n, .foundStarted⟩ := by
        simp [loopStep, hflag]
      rw [hstep]
      exact h.of_same nofun rfl rfl nofun fun _ => hflag
    · have hstep : loopStep b w asksStatus ⟨n, .done requested⟩ = ⟨n, .foundStopped⟩ := by
        simp [loopStep, hflag]
      rw [hstep]
      exact h.of_same nofun rfl rfl nofun (by simp)
  | foundStopped =>
    obtain ⟨hflag, hthread, -⟩ :=
      @prepareBroker_marks n w b (productConfigGetSettings n.app.config)
    refine h.of_same nofun hflag hthread ?_ ?_
    · dsimp only [loopStep]
      split_ifs
      · nofun
      · nofun
    · dsimp only [loopStep]
      split_ifs
      · simp
      · simp
  | creating => exact ⟨fun _ => nofun, fun _ => nofun, fun _ => Or.inr rfl, by simp [loopStep]⟩
  | marking => exact ⟨fun _ => h.marking rfl, nofun, fun _ => Or.inl rfl, by simp [loopStep]⟩
  | foundStarted =>
    have hflag := h.found (Or.inl rfl)
    dsimp only [loopStep]
    split_ifs
    · exact h.of_same nofun rfl rfl nofun fun _ => hflag
    · exact h.of_same nofun rfl rfl nofun fun _ => hflag
    · exact h.of_same nofun rfl rfl nofun fun _ => hflag
  | foundRequested =>
    have hflag := h.found (Or.inr rfl)
    dsimp only [loopStep]
    rw [startBrokerService_of_started hflag]
    exact h.of_same nofun rfl rfl nofun fun _ => hflag

theorem brokerServiceEntry_marks (n : Node) :
    (brokerServiceEntry b n).brokerThreadStarted = n.brokerThreadStarted ∧
      HasReported (brokerServiceEntry b n) := by
  unfold brokerServiceEntry
  split_ifs
  · exact ⟨rfl, Or.inr rfl⟩
  · exact ⟨rfl, Or.inl rfl⟩

theorem HasReported.ne_none {n : Node} (h : HasReported n) : n.thread ≠ .none := by
  rcases h with h | h
  · rw [h]
    nofun
  · rw [h]
    nofun

theorem Marks.exec {act : LoopAction} (h : Marks s) (he : act.exec s = some s') : Marks s' := by
  cases act with
  | loop b w asksStatus =>
    obtain rfl := Option.some.inj he
    exact h.loop
  | report b =>
    unfold LoopAction.exec at he
    dsimp only at he
    split_ifs at he with hstarting
    obtain rfl := Option.some.inj he
    obtain ⟨hflag, hreported⟩ := @brokerServiceEntry_marks b s.node
    have hthread : s.node.thread ≠ .none := by
      rw [hstarting]
      nofun
    refine ⟨fun _ => hreported.ne_none, fun _ => hreported.ne_none, fun _ => ?_, fun hp => ?_⟩
    · rw [hflag]
      exact h.marked hthread
    · rw [hflag]
      exact h.found hp
  | request r =>
    obtain rfl := Option.some.inj he
    exact ⟨h.created, h.marking, h.marked, h.found⟩

/-- The loop makes no request, and a thread that it creates has yet to report. -/
theorem answered_loop (hm : Marks s) (h : Answered s.node) :
    Answered (loopStep b w asksStatus s).node := by
  rcases s with ⟨n, phase⟩
  cases phase with
  | done requested => exact h
  | foundStopped =>
    obtain ⟨-, hthread, hreq⟩ :=
      @prepareBroker_marks n w b (productConfigGetSettings n.app.config)
    intro hr hs
    refine h ?_ (hreq hs)
    unfold HasReported at hr ⊢
    rw [← hthread]
    exact hr
  | creating => exact fun hr => hr.elim nofun nofun
  | marking => exact h
  | foundStarted =>
    dsimp only [loopStep]
    split_ifs
    · exact h
    · intro hr hs
      rw [startRequested_iff, getStatus_kept.2] at hs
      exact h hr (startRequested_iff.mpr hs)
    · exact h
  | foundRequested =>
    dsimp only [loopStep]
    rw [startBrokerService_of_started (hm.found (Or.inr rfl))]
    exact h

theorem answered_exec {act : LoopAction} (hm : Marks s) (h : Answered s.node)
    (hearly : RequestsEarly s act) (he : act.exec s = some s') : Answered s'.node := by
  cases act with
  | loop b w asksStatus =>
    obtain rfl := Option.some.inj he
    exact answered_loop hm h
  | report b =>
    unfold LoopAction.exec at he
    dsimp only at he
    split_ifs at he
    obtain rfl := Option.some.inj he
    exact fun _ => not_startRequested_entry
  | request r =>
    obtain rfl := Option.some.inj he
    intro hr hs
    rcases starts_or_of_apply hs with hs | hs
    · exact h hr hs
    · exact hearly hs hr

end Steps

/-! ### When no request gets stuck -/

theorem mainStart_booted {w w' : World} {eth : Ethernet} {a : App} {settings : FieldBridgeSettings}
    {n : Node} (h : mainStart w w' eth a = some (settings, n)) : ∃ a', n = .booted a' := by
  obtain ⟨r, -, he⟩ := Option.map_eq_some_iff.mp h
  exact ⟨_, (Prod.mk.inj he).2.symm⟩

theorem marks_of_reachable {s : LoopState} (hs : brokerRuns.Reachable s) : Marks s := by
  refine hs.invariant (fun s h => ?_) fun s act s' h he => h.exec he
  obtain ⟨w, w', eth, a, settings, hstart, hphase⟩ := h
  obtain ⟨a', hnode⟩ := mainStart_booted hstart
  constructor
  · rw [hnode]
    nofun
  · rw [hphase]
    nofun
  · rw [hnode]
    exact fun h => absurd rfl h
  · rw [hphase]
    nofun

theorem answered_of_reachable {s : LoopState} (hs : (brokerRuns.restrict RequestsEarly).Reachable s) :
    Marks s ∧ Answered s.node := by
  refine hs.invariant (I := fun s => Marks s ∧ Answered s.node) (fun s h => ?_)
    fun s act s' h he => ?_
  · refine ⟨marks_of_reachable (.init h), ?_⟩
    obtain ⟨w, w', eth, a, settings, hstart, -⟩ := h
    obtain ⟨a', hnode⟩ := mainStart_booted hstart
    rw [hnode]
    exact fun hr => hr.elim nofun nofun
  · exact ⟨h.1.exec he.2, answered_exec h.1 h.2 he.1 he.2⟩

/-- Only an iteration that has found a request ends so. -/
theorem phase_of_done {b : BrokerLib} {w : World} {asksStatus : Bool} {s : LoopState}
    (h : (loopStep b w asksStatus s).phase = .done true) : s.phase = .foundRequested := by
  rcases s with ⟨n, phase⟩
  cases phase with
  | foundRequested => rfl
  | done requested =>
    dsimp only [loopStep] at h
    split_ifs at h
  | foundStopped =>
    dsimp only [loopStep] at h
    split_ifs at h
    cases h
  | creating => cases h
  | marking => cases h
  | foundStarted =>
    dsimp only [loopStep] at h
    split_ifs at h
    · cases h
    · cases h

/-- An iteration that has found a request does nothing about it. -/
theorem loopStep_of_requested {b : BrokerLib} {w : World} {asksStatus : Bool} {s : LoopState}
    (hm : Marks s) (h : s.phase = .foundRequested) :
    loopStep b w asksStatus s = { s with phase := .done true } := by
  unfold loopStep
  rw [h]
  dsimp only
  rw [startBrokerService_of_started (hm.found (Or.inr h))]

/-- **No request gets stuck** if every request to start the broker is made before the thread has
reported. -/
theorem neverStuck_of_early {s : LoopState} (hs : (brokerRuns.restrict RequestsEarly).Reachable s)
    {b : BrokerLib} {w : World} {asksStatus : Bool}
    (hphase : (loopStep b w asksStatus s).phase = .done true)
    (hreq : StartRequested (loopStep b w asksStatus s).node.app) :
    (loopStep b w asksStatus s).node.thread = .starting := by
  obtain ⟨hm, hanswered⟩ := answered_of_reachable hs
  have hfound := phase_of_done hphase
  rw [loopStep_of_requested hm hfound] at hreq ⊢
  have hcreated : s.node.thread ≠ .none := hm.created (hm.found (Or.inr hfound))
  have hreported : ¬ HasReported s.node := fun hr => hanswered hr hreq
  unfold HasReported at hreported
  rcases ht : s.node.thread with _ | _ | _ | _
  · exact absurd ht hcreated
  · rfl
  · exact absurd (Or.inl ht) hreported
  · exact absurd (Or.inr ht) hreported

/-- With the thread started, the next iteration finds a request. -/
theorem loopStep_found {b : BrokerLib} {w : World} {asksStatus requested : Bool} {n : Node}
    (hflag : n.brokerThreadStarted = true) (hreq : StartRequested n.app) :
    loopStep b w asksStatus (loopStep b w asksStatus ⟨n, .done requested⟩) =
      ⟨n, .foundRequested⟩ := by
  have hstarted : loopStep b w asksStatus ⟨n, .done requested⟩ = ⟨n, .foundStarted⟩ := by
    simp [loopStep, hflag]
  rw [hstarted]
  exact if_pos hreq

/-- A later request is found by the next iteration, and left as it is. -/
theorem stuck_of_late {b : BrokerLib} {w : World} {asksStatus requested : Bool} {n : Node}
    {r : ControlRequest} (hs : brokerRuns.Reachable ⟨n, .done requested⟩) (hr : HasReported n)
    (h : r.Starts n.app) : ∃ s, brokerRuns.Reachable s ∧
      (loopStep b w asksStatus s).phase = .done true ∧
      StartRequested (loopStep b w asksStatus s).node.app ∧
      HasReported (loopStep b w asksStatus s).node := by
  have hflag : n.brokerThreadStarted = true :=
    ((marks_of_reachable hs).marked hr.ne_none).resolve_right nofun
  have hreq := startRequested_of_starts h
  have hloop : ∀ {s}, brokerRuns.Reachable s → brokerRuns.Reachable (loopStep b w asksStatus s) :=
    fun hs => hs.step (a := .loop b w asksStatus) rfl
  have hasked : brokerRuns.Reachable ⟨{ n with app := r.apply n.app }, .done requested⟩ :=
    hs.step (a := .request r) rfl
  have hfound := hloop (hloop hasked)
  rw [@loopStep_found b w asksStatus requested { n with app := r.apply n.app } hflag hreq] at hfound
  refine ⟨_, hfound, ?_⟩
  rw [loopStep_of_requested (marks_of_reachable hfound) rfl]
  exact ⟨rfl, hreq, hr⟩

/-- The device starts, and the loop creates the broker's thread. -/
theorem reachable_starting : ∃ n,
    (brokerRuns.restrict RequestsEarly).Reachable ⟨n, .done false⟩ ∧ n.thread = .starting := by
  have hsome : (mainStart .good .good exampleEthernet (poweredOff (defaultSettings []))).isSome := by
    decide +kernel
  obtain ⟨⟨settings, n⟩, hstart⟩ := Option.isSome_iff_exists.mp hsome
  obtain ⟨a, rfl⟩ := mainStart_booted hstart
  have h0 : (brokerRuns.restrict RequestsEarly).Reachable ⟨.booted a, .done false⟩ :=
    .init ⟨_, _, _, _, settings, hstart, rfl⟩
  have hloop : ∀ {s}, (brokerRuns.restrict RequestsEarly).Reachable s →
      (brokerRuns.restrict RequestsEarly).Reachable (loopStep .good .good false s) :=
    fun hs => hs.step (a := .loop .good .good false) ⟨trivial, rfl⟩
  exact ⟨_, hloop (hloop (hloop (hloop h0))), rfl⟩

/-- The broker runs. -/
theorem reachable_running : ∃ n, brokerRuns.Reachable ⟨n, .done false⟩ ∧ n.thread = .running := by
  obtain ⟨n, hs, ht⟩ := reachable_starting
  exact ⟨_, hs.of_restrict.step (a := .report .good) (if_pos ht), rfl⟩

/-- The broker is asked to start. -/
abbrev startRequest : ControlRequest := .post .good (str "\x7b\"enabled\":1\x7d")

theorem starts_startRequest (a : App) : startRequest.Starts a := by
  show jsonGetBoolish _ _ _ = some 1
  decide +kernel

/-- A request made before the thread has reported. -/
theorem neverStuck_earlyRequest : ∃ s, (loopStep .good .good false s).phase = .done true ∧
    StartRequested (loopStep .good .good false s).node.app ∧
    (loopStep .good .good false s).node.thread = .starting := by
  obtain ⟨n, hs, ht⟩ := reachable_starting
  have hcreated : n.thread ≠ .none := by
    rw [ht]
    nofun
  have hflag : n.brokerThreadStarted = true :=
    ((marks_of_reachable hs.of_restrict).marked hcreated).resolve_right nofun
  have hreq := startRequested_of_starts (starts_startRequest n.app)
  have hloop : ∀ {s}, (brokerRuns.restrict RequestsEarly).Reachable s →
      (brokerRuns.restrict RequestsEarly).Reachable (loopStep .good .good false s) :=
    fun hs => hs.step (a := .loop .good .good false) ⟨trivial, rfl⟩
  have hearly : ¬ HasReported n := by
    unfold HasReported
    rw [ht]
    exact fun h => h.elim nofun nofun
  have hasked : (brokerRuns.restrict RequestsEarly).Reachable
      ⟨{ n with app := startRequest.apply n.app }, .done false⟩ :=
    hs.step (a := .request startRequest) ⟨fun _ => hearly, rfl⟩
  have hfound := hloop (hloop hasked)
  rw [@loopStep_found .good .good false false { n with app := startRequest.apply n.app } hflag
    hreq] at hfound
  have hleft := @loopStep_of_requested .good .good false _ (answered_of_reachable hfound).1 rfl
  have hphase := congrArg LoopState.phase hleft
  have hstill : StartRequested (loopStep .good .good false
      ⟨{ n with app := startRequest.apply n.app }, .foundRequested⟩).node.app := by
    rw [hleft]
    exact hreq
  exact ⟨_, hphase, hstill, neverStuck_of_early hfound hphase hstill⟩

/-- A request to start the broker that already runs gets stuck. -/
theorem stuck_running : ¬ NeverStuck brokerRuns := by
  intro h
  obtain ⟨n, hs, hrun⟩ := reachable_running
  obtain ⟨s, hs, hphase, hreq, hreported⟩ :=
    @stuck_of_late .good .good false false n _ hs (Or.inl hrun) (starts_startRequest n.app)
  rcases hreported with hr | hr
  · exact absurd ((h s _ _ _ hs hphase hreq).symm.trans hr) nofun
  · exact absurd ((h s _ _ _ hs hphase hreq).symm.trans hr) nofun

end MqttFieldBridge.Device
