import MqttFieldBridge.Device.BrokerLoop
import MqttFieldBridge.Device.Faithful
import MqttFieldBridge.Device.StatusLed
import MqttFieldBridge.Lts.Rank

/-! # The LED and the broker

The main loop of a build for the W5500, the broker's thread, the work queue with the LED and the
button, and everything that the console and the handlers can be asked, in any interleaving. Whoever
reports an error writes the runtime status first and sets the LED in a step of its own, and so does
the button when it has reset the configuration.

Still the LED tells what became of the broker, whatever is asked in the meantime (`led_tells`). -/

namespace MqttFieldBridge.Device

open MqttFieldBridge.CLib MqttFieldBridge.Config MqttFieldBridge.Runtime MqttFieldBridge.Console
  MqttFieldBridge.Http MqttFieldBridge.Boot MqttFieldBridge.Lts

/-! ### The steps -/

/-- A call that sets the LED. -/
inductive LedCall where
  | running
  | error
deriving DecidableEq

def LedCall.apply (now : ℤ) : LedCall → StatusLed → StatusLed
  | .running, s => s.setRunning 1 now
  | .error, s => s.setError now

/-- What is left to do of `status_config_reset_press`, in the work queue. -/
inductive ButtonPhase where
  /-- The work queue is free. -/
  | idle
  | resetting
  /-- The configuration has been reset, and the LED is about to be set. -/
  | stopping
  /-- The LED has been set, and the runtime status is about to be. -/
  | clearing
deriving DecidableEq

/-- An event of the console or of a handler. -/
def Event.Surface : Event → Prop
  | .line _ _ | .request _ _ | .callback _ _ _ _ => True
  | .buttonReset _ | .boot _ _ _ => False

/-- The device in its main loop. What `main` and the broker's thread owe are calls that set the LED. -/
structure Supervised where
  loop : LoopState
  mainOwes : Option LedCall
  threadOwes : Bool
  button : ButtonPhase
  rebootDue : Bool
  led : StatusLed
  menu : Menu
  buffers : Fin zephyrHttpBufferSlots → ZephyrHttpBuffers

namespace Supervised

def device (s : Supervised) : DeviceState := ⟨s.menu, ⟨s.loop.node.app, s.buffers⟩⟩

abbrev thread (s : Supervised) : BrokerThread := s.loop.node.thread

abbrev status (s : Supervised) : StatusIoState := s.led.io.statusState

def lastError (s : Supervised) : Text := s.loop.node.app.runtime.runtimeStatus.lastError.val

end Supervised

/-- The call that `start_broker_service` owes after its last step but the creation of the thread. -/
def owedCall (b : BrokerLib) (w : World) (l : LoopState) : Option LedCall :=
  if l.phase = .foundStopped then
    some (if (prepareBroker b w (productConfigGetSettings l.node.app.config) l.node).1 ≠ .ok then .error
      else .running)
  else none

def mainStep (b : BrokerLib) (w : World) (asksStatus : Bool) (now : ℤ) (s : Supervised) :
    Supervised :=
  match s.mainOwes with
  | some call => { s with led := call.apply now s.led, mainOwes := none }
  | none => { s with loop := loopStep b w asksStatus s.loop, mainOwes := owedCall b w s.loop }

/-- One step of `status_config_reset_press`; at the end it schedules a reboot. -/
def buttonStep (w : World) (now : ℤ) (s : Supervised) : Option Supervised :=
  match s.button with
  | .idle => none
  | .resetting =>
    let r := productConfigResetAll w.store w.deviceId s.loop.node.app.config
    some { s with
      loop.node.app.config := r.2
      button := if r.1 ≠ .ok then .idle else .stopping }
  | .stopping => some { s with led := s.led.setRunning 0 now, button := .clearing }
  | .clearing => some { s with
      loop.node.app.runtime := (productRuntimeSetBrokerEnabled 0 s.loop.node.app.runtime).2
      button := .idle
      rebootDue := true }

inductive SuperviseAction where
  | main (b : BrokerLib) (w : World) (asksStatus : Bool) (now : ℤ)
  | report (b : BrokerLib)
  /-- The broker's thread, which has failed, sets the LED. -/
  | threadFails (now : ℤ)
  | blink (now : ℤ)
  | sample (value now : ℤ)
  | callback (w : World) (now : ℤ)
  | surface (e : Event) (he : e.Surface)

/-- The handlers of the work queue wait for each other. -/
def SuperviseAction.exec (s : Supervised) : SuperviseAction → Option Supervised
  | .main b w asksStatus now => some (mainStep b w asksStatus now s)
  | .report b => ((LoopAction.report b).exec s.loop).map fun l =>
      { s with loop := l, threadOwes := b.init ≠ .ok }
  | .threadFails now =>
    if s.threadOwes then some { s with led := s.led.setError now, threadOwes := false } else none
  | .blink now =>
    if s.button = .idle then some { s with led := statusWorkHandler now s.led } else none
  | .sample value now =>
    let r := buttonWorkHandler value now s.led.io
    if s.button = .idle then
      some { s with led.io := r.2, button := if r.1 then .resetting else .idle }
    else none
  | .callback w now => buttonStep w now s
  | .surface e _ =>
    let d := e.run s.device
    some { s with loop.node.app := d.http.app, menu := d.menu, buffers := d.http.buffers }

/-- The LED while `main` starts the network. -/
inductive BootLed : StatusLed → Prop
  | init (now : ℤ) : BootLed (StatusLed.init true now .zero)
  | blink {s : StatusLed} (now : ℤ) (h : BootLed s) : BootLed (statusWorkHandler now s)
  | sample {s : StatusLed} (value now : ℤ) (h : BootLed s) :
    BootLed { s with io := (buttonWorkHandler value now s.io).2 }

/-- The main loop begins, after any boot. -/
structure Begins (s : Supervised) : Prop where
  started : ∃ w w' eth a settings, mainStart w w' eth a = some (settings, s.loop.node)
  phase : s.loop.phase = .done false
  mainOwes : s.mainOwes = none
  threadOwes : s.threadOwes = false
  button : s.button = .idle
  rebootDue : s.rebootDue = false
  led : BootLed s.led

def supervised : System Supervised SuperviseAction where
  init := Begins
  step s act s' := act.exec s = some s'

abbrev superviseRun : List SuperviseAction → Supervised → Option Supervised :=
  runAll SuperviseAction.exec

theorem reachable_of_run : ∀ {acts : List SuperviseAction} {s s' : Supervised},
    supervised.Reachable s → superviseRun acts s = some s' → supervised.Reachable s'
  | [], s, s', h, hrun => by
    obtain rfl := Option.some.inj hrun
    exact h
  | act :: acts, s, s', h, hrun => by
    obtain ⟨s₁, hstep, hrest⟩ := Option.bind_eq_some_iff.mp hrun
    exact reachable_of_run (h.step (a := act) hstep) hrest

variable {s s' : Supervised} {b : BrokerLib} {w : World} {now : ℤ}

theorem mainStep_ledCall {asksStatus : Bool} {call : LedCall} (h : s.mainOwes = some call) :
    mainStep b w asksStatus now s = { s with led := call.apply now s.led, mainOwes := none } := by
  unfold mainStep
  rw [h]

theorem mainStep_loop {asksStatus : Bool} (h : s.mainOwes = none) : mainStep b w asksStatus now s =
    { s with loop := loopStep b w asksStatus s.loop, mainOwes := owedCall b w s.loop } := by
  unfold mainStep
  rw [h]

/-- Undisturbed, the steps of the button are `status_config_reset_press`. -/
theorem buttonStep_press (h : s.button = .resetting) :
    (∃ s₁, buttonStep w now s = some s₁ ∧ s₁.button = .idle ∧ s₁.rebootDue = s.rebootDue ∧
        s₁.loop.node.app = statusConfigResetPress w s.loop.node.app) ∨
      ∃ s₁ s₂ s₃, buttonStep w now s = some s₁ ∧ buttonStep w now s₁ = some s₂ ∧
        buttonStep w now s₂ = some s₃ ∧ s₃.button = .idle ∧ s₃.rebootDue = true ∧
        s₃.loop.node.app = statusConfigResetPress w s.loop.node.app := by
  unfold statusConfigResetPress
  dsimp only
  by_cases hrc : (productConfigResetAll w.store w.deviceId s.loop.node.app.config).1 ≠ .ok
  · left
    simp only [buttonStep, h, if_pos hrc]
    exact ⟨_, rfl, rfl, rfl, rfl⟩
  · right
    simp only [buttonStep, h, if_neg hrc]
    exact ⟨_, _, _, rfl, rfl, rfl, rfl, rfl, rfl⟩

/-! ### The last error -/

/-- The front ends leave the last error as it is. -/
theorem lastError_change {r r' : RuntimeState} (hc : RuntimeChange r r') :
    r'.runtimeStatus.lastError = r.runtimeStatus.lastError := by
  cases hc with
  | none => rfl
  | enabled v =>
    unfold productRuntimeSetBrokerEnabled
    split_ifs
    · rfl
    · rfl
    · rfl
  | status p2p =>
    unfold productRuntimeGetStatus
    dsimp only
    split_ifs
    · rfl
    · rfl
  | publish test => rw [recordPublishTest_status]

theorem lastError_surface {e : Event} (he : e.Surface) (d : DeviceState) :
    (e.run d).http.app.runtime.runtimeStatus.lastError = d.http.app.runtime.runtimeStatus.lastError := by
  have hrunning : e.Running := by
    cases e with
    | boot w w' eth => exact he
    | _ => trivial
  exact lastError_change (change_run hrunning)

/-- An attempt to start the broker is refused with an error, or leaves the last one. -/
theorem lastError_prepareBroker (n : Node) (settings : FieldBridgeSettings) :
    let r := prepareBroker b w settings n
    (r.1 ≠ .ok → r.2.app.runtime.runtimeStatus.lastError.val ≠ []) ∧
      (r.1 = .ok → r.2.app.runtime.runtimeStatus.lastError = n.app.runtime.runtimeStatus.lastError) := by
  have hhost : (copyStr (str "invalid broker bind ip") : CStr fieldBridgeErrorMax).val ≠ [] := by
    decide
  have hport : (copyStr (str "invalid broker listen port") : CStr fieldBridgeErrorMax).val ≠ [] := by
    decide
  unfold prepareBroker
  dsimp only
  split_ifs
  · exact ⟨fun _ => hhost, nofun⟩
  · exact ⟨fun _ => hport, nofun⟩
  · refine ⟨fun h => absurd rfl h, fun _ => ?_⟩
    exact congrArg (fun r => r.runtimeStatus.lastError) applyPeers_config.2

/-! ### The invariant -/

/-- The button has reset the configuration, and a reboot is due. -/
def Supervised.IsReset (s : Supervised) : Prop := s.button = .clearing ∨ s.rebootDue = true

/-- The LED has been set for the broker's thread, and not yet for its failure. -/
def Supervised.Lit (s : Supervised) : Prop :=
  (s.thread = .none ∧ s.loop.phase = .creating ∧ s.mainOwes = none) ∨ s.thread = .starting ∨
    s.thread = .running ∨ (s.thread = .exited ∧ s.threadOwes = true)

structure Tells (s : Supervised) : Prop where
  marks : Marks s.loop
  fresh : s.loop.phase = .foundStopped ∨ s.loop.phase = .creating → s.thread = .none
  owesRunning : s.mainOwes = some .running → s.loop.phase = .creating
  owesError : s.mainOwes = some .error →
    s.thread = .none ∧ s.loop.phase ≠ .creating ∧ s.lastError ≠ []
  threadOwes : s.threadOwes = true → s.thread = .exited
  lit : s.Lit → ¬ s.IsReset ∧ s.status = .running ∨ s.IsReset ∧ s.status = .stopped
  failed : s.thread = .exited → s.threadOwes = false →
    s.status = .error ∨ s.IsReset ∧ s.status = .stopped
  waiting : s.thread = .none → ¬ s.Lit → ¬ s.IsReset ∧ s.button = .idle ∧
    (s.status = .booting ∧ (s.lastError = [] ∨ s.mainOwes = some .error) ∨
      s.status = .error ∧ s.lastError ≠ [])
  running : s.thread = .running → s.lastError = []
  exited : s.thread = .exited → s.lastError = str "broker_init failed"

/-- A step that nobody who looks at the LED can tell. -/
theorem Tells.of_same (h : Tells s) (hmarks : Marks s'.loop)
    (hfresh : s'.loop.phase = .foundStopped ∨ s'.loop.phase = .creating → s.thread = .none)
    (hcreating : s'.loop.phase = .creating ↔ s.loop.phase = .creating)
    (hthread : s'.thread = s.thread) (hmain : s'.mainOwes = s.mainOwes)
    (howes : s'.threadOwes = s.threadOwes) (hstatus : s'.status = s.status)
    (herror : s'.lastError = s.lastError) (hreset : s'.IsReset ↔ s.IsReset)
    (hbutton : s.button = .idle → s.status ≠ .running → s'.button = .idle) : Tells s' := by
  have hlit : s'.Lit ↔ s.Lit := by
    unfold Supervised.Lit
    rw [hthread, hcreating, hmain, howes]
  refine ⟨hmarks, fun hp => hthread.trans (hfresh hp), ?_, ?_, ?_, ?_, ?_, ?_, ?_, ?_⟩
  · rw [hmain, hcreating]
    exact h.owesRunning
  · rw [hmain, hthread, herror, ne_eq, hcreating]
    exact h.owesError
  · rw [howes, hthread]
    exact h.threadOwes
  · rw [hlit, hstatus, hreset]
    exact h.lit
  · rw [hthread, howes, hstatus, hreset]
    exact h.failed
  · rw [hthread, hlit, hreset, hstatus, herror, hmain]
    intro hnone hdark
    obtain ⟨hno, hidle, hshown⟩ := h.waiting hnone hdark
    refine ⟨hno, hbutton hidle fun hrun => ?_, hshown⟩
    rcases hshown with ⟨hst, -⟩ | ⟨hst, -⟩
    · exact absurd (hst.symm.trans hrun) nofun
    · exact absurd (hst.symm.trans hrun) nofun
  · rw [hthread, herror]
    exact h.running
  · rw [hthread, herror]
    exact h.exited

/-! ### What a step keeps -/

/-- A step that leaves the thread, the LED and what is owed. -/
theorem Tells.of_loop (h : Tells s) {l : LoopState} (hmarks : Marks l)
    (hfresh : l.phase = .foundStopped ∨ l.phase = .creating → s.thread = .none)
    (hcreating : l.phase = .creating ↔ s.loop.phase = .creating)
    (hthread : l.node.thread = s.thread)
    (herror : l.node.app.runtime.runtimeStatus.lastError =
      s.loop.node.app.runtime.runtimeStatus.lastError) : Tells { s with loop := l } :=
  h.of_same hmarks hfresh hcreating hthread rfl rfl rfl (congrArg CStr.val herror) Iff.rfl
    fun hidle _ => hidle

/-- `main` makes an attempt to start the broker. -/
theorem tells_prepare (h : Tells s) (hphase : s.loop.phase = .foundStopped) {l : LoopState}
    {call : LedCall} (hmain : s.mainOwes = none) (hmarks : Marks l) (hthread : l.node.thread = s.thread)
    (hrunning : call = .running → l.phase = .creating ∧
      l.node.app.runtime.runtimeStatus.lastError.val = s.lastError)
    (herror : call = .error → l.phase = .done false ∧
      l.node.app.runtime.runtimeStatus.lastError.val ≠ []) :
    Tells { s with loop := l, mainOwes := some call } := by
  have hnone : s.thread = .none := h.fresh (Or.inl hphase)
  have hnone' : l.node.thread = .none := hthread.trans hnone
  have hdark : ¬ s.Lit := by
    unfold Supervised.Lit
    rw [hnone, hphase]
    simp
  obtain ⟨hreset, hidle, hshown⟩ := h.waiting hnone hdark
  refine ⟨hmarks, fun _ => hnone', fun hc => (hrunning (Option.some.inj hc)).1, fun hc => ?_,
    fun ho => ?_, fun hl => ?_, fun ht => ?_, fun _ _ => ⟨hreset, hidle, ?_⟩, fun ht => ?_,
    fun ht => ?_⟩
  · obtain ⟨hdone, hne⟩ := herror (Option.some.inj hc)
    refine ⟨hnone', ?_, hne⟩
    rw [hdone]
    nofun
  · exact absurd ((h.threadOwes ho).symm.trans hnone) nofun
  · rcases hl with ⟨-, -, hc⟩ | ht | ht | ⟨ht, -⟩
    · cases hc
    · exact absurd (ht.symm.trans hnone') nofun
    · exact absurd (ht.symm.trans hnone') nofun
    · exact absurd (ht.symm.trans hnone') nofun
  · exact absurd (ht.symm.trans hnone') nofun
  · cases call with
    | running =>
      have herr := (hrunning rfl).2
      rcases hshown with ⟨hst, hnil⟩ | ⟨hst, hne⟩
      · refine Or.inl ⟨hst, Or.inl (herr.trans (hnil.resolve_right fun hc => ?_))⟩
        rw [hmain] at hc
        cases hc
      · exact Or.inr ⟨hst, fun hnil => hne (herr.symm.trans hnil)⟩
    | error =>
      rcases hshown with ⟨hst, -⟩ | ⟨hst, -⟩
      · exact Or.inl ⟨hst, Or.inr rfl⟩
      · exact Or.inr ⟨hst, (herror rfl).2⟩
  · exact absurd (ht.symm.trans hnone') nofun
  · exact absurd (ht.symm.trans hnone') nofun

/-- `main` creates the thread. -/
theorem tells_created {asksStatus : Bool} (h : Tells s) (hphase : s.loop.phase = .creating)
    (hmain : s.mainOwes = none) (hmarks : Marks (loopStep b w asksStatus s.loop)) :
    Tells { s with loop := loopStep b w asksStatus s.loop, mainOwes := none } := by
  have hnone : s.thread = .none := h.fresh (Or.inr hphase)
  have hlit := h.lit (Or.inl ⟨hnone, hphase, hmain⟩)
  have hstep : loopStep b w asksStatus s.loop = ⟨{ s.loop.node with thread := .starting }, .marking⟩ := by
    unfold loopStep
    rw [hphase]
  have howes : ¬ s.threadOwes = true := fun ho => absurd ((h.threadOwes ho).symm.trans hnone) nofun
  rw [hstep] at hmarks ⊢
  exact ⟨hmarks, by simp, nofun, nofun, fun ho => absurd ho howes, fun _ => hlit, nofun, nofun, nofun,
    nofun⟩

theorem tells_loopStep {asksStatus : Bool} (h : Tells s) (hmain : s.mainOwes = none) :
    Tells { s with loop := loopStep b w asksStatus s.loop, mainOwes := owedCall b w s.loop } := by
  have hmarks := @Marks.loop b w asksStatus s.loop h.marks
  have hprepare := fun hphase call => @tells_prepare s h hphase (loopStep b w asksStatus s.loop) call hmain
  obtain ⟨⟨n, phase⟩, mainOwes, threadOwes, button, rebootDue, led, menu, buffers⟩ := s
  dsimp only at hmain hmarks
  subst hmain
  cases phase with
  | done requested =>
    by_cases hflag : n.brokerThreadStarted = true
    · have hstep : loopStep b w asksStatus ⟨n, .done requested⟩ = ⟨n, .foundStarted⟩ := by
        simp [loopStep, hflag]
      rw [hstep] at hmarks ⊢
      exact h.of_loop hmarks (by simp) (by simp) rfl rfl
    · have hstep : loopStep b w asksStatus ⟨n, .done requested⟩ = ⟨n, .foundStopped⟩ := by
        simp [loopStep, hflag]
      have hnone : n.thread = .none := by
        by_contra hcreated
        exact (h.marks.marked hcreated).elim hflag fun hp => LoopPhase.noConfusion hp
      rw [hstep] at hmarks ⊢
      exact h.of_loop hmarks (fun _ => hnone) (by simp) rfl rfl
  | foundStopped =>
    obtain ⟨-, hthread, -⟩ := @prepareBroker_marks n w b (productConfigGetSettings n.app.config)
    obtain ⟨hfails, hkeeps⟩ := @lastError_prepareBroker b w n (productConfigGetSettings n.app.config)
    by_cases hrc : (prepareBroker b w (productConfigGetSettings n.app.config) n).1 ≠ .ok
    · have howed : owedCall b w ⟨n, .foundStopped⟩ = some .error := by
        simp [owedCall, hrc]
      have hphase : (loopStep b w asksStatus ⟨n, .foundStopped⟩).phase = .done false := if_pos hrc
      rw [howed]
      exact hprepare rfl _ hmarks hthread (fun hc => LedCall.noConfusion hc)
        fun _ => ⟨hphase, hfails hrc⟩
    · have howed : owedCall b w ⟨n, .foundStopped⟩ = some .running := by
        simp only [owedCall, if_true, if_neg hrc]
      have hphase : (loopStep b w asksStatus ⟨n, .foundStopped⟩).phase = .creating := if_neg hrc
      rw [howed]
      exact hprepare rfl _ hmarks hthread
        (fun _ => ⟨hphase, congrArg CStr.val (hkeeps (not_not.mp hrc))⟩) fun hc => LedCall.noConfusion hc
  | creating => exact tells_created h rfl rfl hmarks
  | marking => exact h.of_loop hmarks (by simp [loopStep]) (by simp [loopStep]) rfl rfl
  | foundStarted =>
    have hstatus : ∀ p2p, (productRuntimeGetStatus p2p n.app.runtime).runtimeStatus.lastError =
        n.app.runtime.runtimeStatus.lastError := fun p2p => lastError_change (.status p2p)
    dsimp only [loopStep] at hmarks ⊢
    split_ifs at hmarks ⊢
    · exact h.of_loop hmarks (by simp) (by simp) rfl rfl
    · exact h.of_loop hmarks (by simp) (by simp) rfl (hstatus w.p2p)
    · exact h.of_loop hmarks (by simp) (by simp) rfl rfl
  | foundRequested =>
    have hflag : n.brokerThreadStarted = true := h.marks.found (Or.inr rfl)
    dsimp only [loopStep] at hmarks ⊢
    rw [startBrokerService_of_started hflag] at hmarks ⊢
    exact h.of_loop hmarks (by simp) (by simp) rfl rfl

/-- `main` sets the LED. -/
theorem tells_ledCall (h : Tells s) {call : LedCall} (hmain : s.mainOwes = some call) :
    Tells { s with led := call.apply now s.led, mainOwes := none } := by
  cases call with
  | running =>
    have hphase := h.owesRunning hmain
    have hnone : s.thread = .none := h.fresh (Or.inr hphase)
    have hdark : ¬ s.Lit := by
      unfold Supervised.Lit
      rw [hnone, hmain]
      simp
    have hreset : ¬ s.IsReset := (h.waiting hnone hdark).1
    exact ⟨h.marks, h.fresh, nofun, nofun, h.threadOwes, fun _ => Or.inl ⟨hreset, rfl⟩,
      fun ht => absurd (ht.symm.trans hnone) nofun,
      fun _ hl => absurd (Or.inl ⟨hnone, hphase, rfl⟩) hl,
      h.running, h.exited⟩
  | error =>
    obtain ⟨hnone, hphase, herror⟩ := h.owesError hmain
    have hdark' : ¬ s.Lit := by
      rintro (⟨-, hc, -⟩ | ht | ht | ⟨ht, -⟩)
      · exact hphase hc
      · exact absurd (ht.symm.trans hnone) nofun
      · exact absurd (ht.symm.trans hnone) nofun
      · exact absurd (ht.symm.trans hnone) nofun
    obtain ⟨hreset, hidle, -⟩ := h.waiting hnone hdark'
    refine ⟨h.marks, h.fresh, nofun, nofun, h.threadOwes, ?_,
      fun _ _ => Or.inl rfl, fun _ _ => ⟨hreset, hidle, Or.inr ⟨rfl, herror⟩⟩, h.running, h.exited⟩
    rintro (⟨-, hc, -⟩ | ht | ht | ⟨ht, -⟩)
    · exact absurd hc hphase
    · exact absurd (ht.symm.trans hnone) nofun
    · exact absurd (ht.symm.trans hnone) nofun
    · exact absurd (ht.symm.trans hnone) nofun

theorem tells_mainStep {asksStatus : Bool} (h : Tells s) : Tells (mainStep b w asksStatus now s) := by
  cases hmain : s.mainOwes with
  | none =>
    rw [mainStep_loop hmain]
    exact tells_loopStep h hmain
  | some call =>
    rw [mainStep_ledCall hmain]
    exact tells_ledCall h hmain

/-- The broker's thread reports. -/
theorem tells_report (h : Tells s) {l : LoopState} (he : (LoopAction.report b).exec s.loop = some l) :
    Tells { s with loop := l, threadOwes := b.init ≠ .ok } := by
  have hmarks := h.marks.exec he
  unfold LoopAction.exec at he
  dsimp only at he
  split_ifs at he with hstarting
  obtain rfl := Option.some.inj he
  have hlit := h.lit (Or.inr (Or.inl hstarting))
  have hnot : s.thread ≠ .none := fun hnone => absurd (hnone.symm.trans hstarting) nofun
  have hfresh : ¬ (s.loop.phase = .foundStopped ∨ s.loop.phase = .creating) := fun hp =>
    hnot (h.fresh hp)
  have howes : s.mainOwes ≠ some .error := fun hc => hnot (h.owesError hc).1
  unfold brokerServiceEntry at hmarks ⊢
  split_ifs at hmarks ⊢ with hinit
  · exact ⟨hmarks, fun hp => absurd hp hfresh, h.owesRunning, fun hc => absurd hc howes, fun _ => rfl,
      fun _ => hlit, fun _ ho => absurd ho (by simp [hinit]), nofun, nofun, fun _ => rfl⟩
  · exact ⟨hmarks, fun hp => absurd hp hfresh, h.owesRunning, fun hc => absurd hc howes,
      fun ho => absurd ho (by simp [hinit]), fun _ => hlit, nofun, nofun, fun _ => rfl, nofun⟩

/-- The broker's thread sets the LED. -/
theorem tells_threadFails (h : Tells s) (howes : s.threadOwes = true) :
    Tells { s with led := s.led.setError now, threadOwes := false } := by
  have hexited := h.threadOwes howes
  have hlit : ∀ {p : Prop}, (s.thread = .none ∧ p) ∨ s.thread = .starting ∨ s.thread = .running ∨
      (s.thread = .exited ∧ false = true) → False := by
    rintro p (⟨ht, -⟩ | ht | ht | ⟨-, ho⟩)
    · exact absurd (ht.symm.trans hexited) nofun
    · exact absurd (ht.symm.trans hexited) nofun
    · exact absurd (ht.symm.trans hexited) nofun
    · cases ho
  exact ⟨h.marks, h.fresh, h.owesRunning, h.owesError, nofun, fun hl => (hlit hl).elim,
    fun _ _ => Or.inl rfl, fun ht => absurd (ht.symm.trans hexited) nofun, h.running, h.exited⟩

/-- A step of the button. -/
theorem tells_buttonStep (h : Tells s) (he : buttonStep w now s = some s') : Tells s' := by
  have hbusy : s.button ≠ .idle → s.thread = .none → s.Lit := fun hb ht => by
    by_contra hl
    exact hb (h.waiting ht hl).2.1
  unfold buttonStep at he
  split at he
  · cases he
  · next hb =>
    obtain rfl := Option.some.inj he
    refine h.of_same ⟨h.marks.created, h.marks.marking, h.marks.marked, h.marks.found⟩ h.fresh Iff.rfl
      rfl rfl rfl rfl rfl ?_ fun hidle => absurd (hidle.symm.trans hb) nofun
    unfold Supervised.IsReset
    dsimp only
    rw [hb]
    split_ifs
    · simp
    · simp
  · next hb =>
    obtain rfl := Option.some.inj he
    exact ⟨h.marks, h.fresh, h.owesRunning, h.owesError, h.threadOwes, fun _ => Or.inr ⟨Or.inl rfl, rfl⟩,
      fun _ _ => Or.inr ⟨Or.inl rfl, rfl⟩,
      fun ht hl => absurd (hbusy (by rw [hb]; nofun) ht) hl, h.running, h.exited⟩
  · next hb =>
    obtain rfl := Option.some.inj he
    refine h.of_same ⟨h.marks.created, h.marks.marking, h.marks.marked, h.marks.found⟩ h.fresh Iff.rfl
      rfl rfl rfl rfl (congrArg CStr.val (lastError_change (.enabled 0))) ?_
      fun hidle => absurd (hidle.symm.trans hb) nofun
    exact ⟨fun _ => Or.inl hb, fun _ => Or.inr rfl⟩

/-- **Every step keeps it.** -/
theorem tells_exec {act : SuperviseAction} (h : Tells s) (he : act.exec s = some s') : Tells s' := by
  cases act with
  | main b w asksStatus now =>
    obtain rfl := Option.some.inj he
    exact tells_mainStep h
  | report b =>
    obtain ⟨l, hl, rfl⟩ := Option.map_eq_some_iff.mp he
    exact tells_report h hl
  | threadFails now =>
    unfold SuperviseAction.exec at he
    dsimp only at he
    split_ifs at he with howes
    obtain rfl := Option.some.inj he
    exact tells_threadFails h howes
  | blink now =>
    unfold SuperviseAction.exec at he
    dsimp only at he
    split_ifs at he with hidle
    obtain rfl := Option.some.inj he
    exact h.of_same h.marks h.fresh Iff.rfl rfl rfl rfl
      (congrArg StatusIo.statusState statusWorkHandler_io) rfl Iff.rfl fun _ _ => hidle
  | sample value now =>
    unfold SuperviseAction.exec at he
    dsimp only at he
    split_ifs at he with hidle hfired
    · obtain rfl := Option.some.inj he
      refine h.of_same h.marks h.fresh Iff.rfl rfl rfl rfl buttonWorkHandler_status.1 rfl ?_
        fun _ hnot => absurd (running_of_fired hfired) hnot
      simp [Supervised.IsReset, hidle]
    · obtain rfl := Option.some.inj he
      refine h.of_same h.marks h.fresh Iff.rfl rfl rfl rfl buttonWorkHandler_status.1 rfl ?_
        fun _ _ => rfl
      simp [Supervised.IsReset, hidle]
  | callback w now => exact tells_buttonStep h he
  | surface e hsurface =>
    obtain rfl := Option.some.inj he
    exact h.of_same ⟨h.marks.created, h.marks.marking, h.marks.marked, h.marks.found⟩ h.fresh Iff.rfl
      rfl rfl rfl rfl (congrArg CStr.val (lastError_surface hsurface s.device)) Iff.rfl fun hidle _ => hidle

/-! ### What the LED tells -/

theorem bootLed_status {led : StatusLed} (h : BootLed led) :
    led.io.statusState = .booting ∧ led.io.ioReady = true := by
  induction h with
  | init now => exact ⟨rfl, rfl⟩
  | blink now _ ih =>
    rw [statusWorkHandler_io]
    exact ih
  | sample value now _ ih =>
    exact ⟨buttonWorkHandler_status.1.trans ih.1, buttonWorkHandler_status.2.trans ih.2⟩

/-- The network has been started if `main` goes on. -/
theorem mainNetwork_started {eth : Ethernet} {a : App} {settings : FieldBridgeSettings}
    (h : (mainNetwork w eth a).2 = some settings) :
    ∃ rs, (mainNetwork w eth a).1.runtime = productRuntimeNetworkStart rs a.runtime := by
  unfold mainNetwork productConfigGetSettings at h ⊢
  cases hready : eth.ready with
  | false =>
    rw [hready] at h
    cases h
  | true =>
    rw [hready] at h
    simp only [Bool.not_true, Bool.false_eq_true, if_false, networkReady_networkStart] at h ⊢
    rcases hstart : startBrokerNetwork a.config.settings eth.ip.val with _ | ⟨ip, mode⟩
    · rw [hstart] at h
      cases h
    · dsimp only
      split_ifs
      · exact ⟨_, rfl⟩
      · exact ⟨_, rfl⟩

/-- The loop begins without an error. -/
theorem lastError_mainStart {w w' : World} {eth : Ethernet} {a : App} {settings : FieldBridgeSettings}
    {n : Node} (h : mainStart w w' eth a = some (settings, n)) :
    n.app.runtime.runtimeStatus.lastError.val = [] := by
  obtain ⟨rs, hrs, he⟩ := Option.map_eq_some_iff.mp h
  obtain ⟨started, hruntime⟩ := mainNetwork_started hrs
  have hnode : n = .booted (bridgeControlInit w' (mainNetwork w' eth (mainInit w a)).1) :=
    (Prod.mk.inj he).2.symm
  have hkept : n.app.runtime = (mainNetwork w' eth (mainInit w a)).1.runtime := by
    rw [hnode]
    exact applyPeers_config.2
  rw [hkept, hruntime]
  rfl

theorem tells_begins (h : Begins s) : Tells s := by
  obtain ⟨w, w', eth, a, settings, hstart⟩ := h.started
  obtain ⟨a', hnode⟩ := mainStart_booted hstart
  have hmarks : Marks s.loop := marks_of_reachable (.init ⟨w, w', eth, a, settings, hstart, h.phase⟩)
  have hnone : s.thread = .none := congrArg Node.thread hnode
  have hbooting : s.status = .booting := (bootLed_status h.led).1
  have hreset : ¬ s.IsReset := by
    unfold Supervised.IsReset
    rw [h.button, h.rebootDue]
    simp
  have hdark : ¬ s.Lit := by
    unfold Supervised.Lit
    rw [hnone, h.phase]
    simp
  refine ⟨hmarks, fun _ => hnone, fun hc => ?_, fun hc => ?_, fun ho => ?_, fun hl => absurd hl hdark,
    fun ht => ?_, fun _ _ => ⟨hreset, h.button, Or.inl ⟨hbooting, Or.inl (lastError_mainStart hstart)⟩⟩,
    fun ht => ?_, fun ht => ?_⟩
  · exact absurd (h.mainOwes.symm.trans hc) nofun
  · exact absurd (h.mainOwes.symm.trans hc) nofun
  · exact absurd (h.threadOwes.symm.trans ho) nofun
  · exact absurd (hnone.symm.trans ht) nofun
  · exact absurd (hnone.symm.trans ht) nofun
  · exact absurd (hnone.symm.trans ht) nofun

theorem tells_of_reachable (h : supervised.Reachable s) : Tells s :=
  h.invariant (fun _ => tells_begins) fun _ _ _ => tells_exec

/-- `main` owes nothing once the thread has been created. -/
theorem Tells.owes_none (h : Tells s) (ht : s.thread ≠ .none) : s.mainOwes = none := by
  cases howes : s.mainOwes with
  | none => rfl
  | some call =>
    cases call with
    | running => exact absurd (h.fresh (Or.inr (h.owesRunning howes))) ht
    | error => exact absurd (h.owesError howes).1 ht

/-- The loop leaves a thread that it has created. -/
theorem loopStep_thread {asksStatus : Bool} {l : LoopState} (h : Marks l)
    (hfresh : ¬ (l.phase = .foundStopped ∨ l.phase = .creating)) :
    (loopStep b w asksStatus l).node.thread = l.node.thread := by
  rcases l with ⟨n, phase⟩
  cases phase with
  | done requested => rfl
  | foundStopped => exact absurd (Or.inl rfl) hfresh
  | creating => exact absurd (Or.inr rfl) hfresh
  | marking => rfl
  | foundStarted =>
    dsimp only [loopStep]
    split_ifs
    · rfl
    · rfl
    · rfl
  | foundRequested =>
    dsimp only [loopStep]
    rw [startBrokerService_of_started (h.found (Or.inr rfl))]

/-- The main loop begins on a device without peers. -/
def beginning (a : App) : Supervised :=
  ⟨⟨.booted a, .done false⟩, none, false, .idle, false, .init true 1500 .zero, .main, fun _ => .zero⟩

theorem reachable_beginning : ∃ a, supervised.Reachable (beginning a) := by
  have hsome : (mainStart .good .good exampleEthernet (poweredOff (defaultSettings []))).isSome := by
    decide +kernel
  obtain ⟨⟨settings, n⟩, hstart⟩ := Option.isSome_iff_exists.mp hsome
  obtain ⟨a, rfl⟩ := mainStart_booted hstart
  exact ⟨a, .init ⟨⟨_, _, _, _, settings, hstart⟩, rfl, rfl, rfl, rfl, rfl, .init 1500⟩⟩

end MqttFieldBridge.Device
