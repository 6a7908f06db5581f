import MqttFieldBridge.Device.Supervise

/-! # Blinking

What the LED shows in a run. A broker that has failed stays failed, and nothing but a reboot changes
that: the LED blinks fast for good, and the button resets nothing (`failed_forever`). While the broker
runs, the LED blinks slowly until the button resets the configuration (`running_steadily`). -/

namespace MqttFieldBridge.Device

open MqttFieldBridge.CLib MqttFieldBridge.Config MqttFieldBridge.Runtime MqttFieldBridge.Console
  MqttFieldBridge.Http MqttFieldBridge.Boot MqttFieldBridge.Lts

variable {s s' : Supervised} {b : BrokerLib} {w : World}

/-! ### What a run shows -/

/-- The time of a step that reads the clock. -/
def SuperviseAction.now? : SuperviseAction → Option ℤ
  | .main _ _ _ now | .threadFails now | .blink now | .sample _ now | .callback _ now => some now
  | .report _ | .surface _ _ => none

/-- The times at which the level of the LED changes in a run. -/
def changeTimes : List SuperviseAction → Supervised → List ℤ
  | [], _ => []
  | act :: acts, s =>
    match act.exec s with
    | none => []
    | some s' =>
      (if s'.led.blueLed ≠ s.led.blueLed then act.now?.toList else []) ++ changeTimes acts s'

/-- The times of the calls of the LED's handler. -/
def blinkTimes : List SuperviseAction → List ℤ
  | [] => []
  | .blink now :: acts => now :: blinkTimes acts
  | _ :: acts => blinkTimes acts

/-- The LED blinks at `period` while `I` holds and the steps meet `C`. -/
structure Steady (I : Supervised → Prop) (C : SuperviseAction → Prop) (period : ℤ) : Prop where
  kept : ∀ s act s', I s → C act → act.exec s = some s' → I s'
  blinks : ∀ s, I s → s.led.io.ioReady = true ∧ blinkPeriod s.status = some period ∧ s.led.Even
  still : ∀ s act s', I s → C act → (∀ now, act ≠ .blink now) → act.exec s = some s' →
    s'.led.lastToggleMs = s.led.lastToggleMs ∧ s'.led.blueLed = s.led.blueLed

theorem blinkTimes_of_not {act : SuperviseAction} (h : ∀ now, act ≠ .blink now)
    (acts : List SuperviseAction) : blinkTimes (act :: acts) = blinkTimes acts := by
  cases act with
  | blink now => exact absurd rfl (h now)
  | _ => rfl

theorem Steady.changeTimes {I : Supervised → Prop} {C : SuperviseAction → Prop} {period : ℤ}
    (h : Steady I C period) : ∀ (acts : List SuperviseAction) (s s' : Supervised), I s →
      (∀ act ∈ acts, C act) → superviseRun acts s = some s' →
        I s' ∧ changeTimes acts s = ticks (BlinkDue period) s.led.lastToggleMs (blinkTimes acts)
  | [], s, s', hI, _, hrun => by
    obtain rfl := Option.some.inj hrun
    exact ⟨hI, rfl⟩
  | act :: acts, s, s', hI, hC, hrun => by
    obtain ⟨s₁, hstep, hrest⟩ := Option.bind_eq_some_iff.mp hrun
    have hact : C act := hC act List.mem_cons_self
    have hlater : ∀ a ∈ acts, C a := fun a ha => hC a (List.mem_cons_of_mem act ha)
    obtain ⟨hend, htimes⟩ := h.changeTimes acts s₁ s' (h.kept s act s₁ hI hact hstep) hlater hrest
    refine ⟨hend, ?_⟩
    unfold Device.changeTimes
    rw [hstep]
    dsimp only
    rw [htimes]
    by_cases hblink : ∃ now, act = .blink now
    · obtain ⟨now, rfl⟩ := hblink
      obtain ⟨hready, hperiod, heven⟩ := h.blinks s hI
      have hled : s₁.led = s.led.blink period now := by
        unfold SuperviseAction.exec at hstep
        dsimp only at hstep
        split_ifs at hstep
        obtain rfl := Option.some.inj hstep
        exact statusWorkHandler_of_period hready hperiod
      rw [hled, blink_lastToggleMs]
      show _ = ticks (BlinkDue period) s.led.lastToggleMs (now :: blinkTimes acts)
      by_cases hdue : BlinkDue period s.led.lastToggleMs now
      · rw [if_pos ((blink_changes heven).mpr hdue), if_pos hdue, ticks_of_due hdue]
        rfl
      · rw [if_neg fun hne => hdue ((blink_changes heven).mp hne), if_neg hdue, ticks_of_not hdue]
        rfl
    · have hnot : ∀ now, act ≠ .blink now := not_exists.mp hblink
      obtain ⟨hlast, hlevel⟩ := h.still s act s₁ hI hact hnot hstep
      rw [if_neg fun hne => hne hlevel, hlast, blinkTimes_of_not hnot]
      rfl

/-- The LED is ready, and has the level of its variable once the device has booted. -/
structure LedReady (s : Supervised) : Prop where
  ready : s.led.io.ioReady = true
  even : s.status ≠ .booting → s.led.Even

theorem ledReady_exec {act : SuperviseAction} (h : LedReady s) (he : act.exec s = some s') :
    LedReady s' := by
  cases act with
  | main b w asksStatus now =>
    obtain rfl := Option.some.inj he
    unfold mainStep
    split
    · next call hmain =>
      cases call with
      | running => exact ⟨h.ready, fun _ => rfl⟩
      | error => exact ⟨h.ready, fun _ => rfl⟩
    · exact ⟨h.ready, h.even⟩
  | report b =>
    obtain ⟨l, -, rfl⟩ := Option.map_eq_some_iff.mp he
    exact ⟨h.ready, h.even⟩
  | threadFails now =>
    unfold SuperviseAction.exec at he
    dsimp only at he
    split_ifs at he
    obtain rfl := Option.some.inj he
    exact ⟨h.ready, fun _ => rfl⟩
  | blink now =>
    unfold SuperviseAction.exec at he
    dsimp only at he
    split_ifs at he
    obtain rfl := Option.some.inj he
    refine ⟨(congrArg StatusIo.ioReady statusWorkHandler_io).trans h.ready, fun hst => ?_⟩
    refine statusWorkHandler_even (h.even fun hb => hst ?_)
    exact (congrArg StatusIo.statusState statusWorkHandler_io).trans hb
  | sample value now =>
    unfold SuperviseAction.exec at he
    dsimp only at he
    split_ifs at he
    all_goals
      obtain rfl := Option.some.inj he
      exact ⟨buttonWorkHandler_status.2.trans h.ready, fun hst => h.even fun hb =>
        hst (buttonWorkHandler_status.1.trans hb)⟩
  | callback w now =>
    unfold SuperviseAction.exec buttonStep at he
    dsimp only at he
    split at he
    · cases he
    · obtain rfl := Option.some.inj he
      exact ⟨h.ready, h.even⟩
    · obtain rfl := Option.some.inj he
      exact ⟨h.ready, fun _ => rfl⟩
    · obtain rfl := Option.some.inj he
      exact ⟨h.ready, h.even⟩
  | surface e hsurface =>
    obtain rfl := Option.some.inj he
    exact ⟨h.ready, h.even⟩

/-- The broker's thread has reported, and set the LED if it has failed. -/
structure AfterReport (s : Supervised) : Prop where
  tells : Tells s
  led : LedReady s
  thread : HasReported s.loop.node
  threadOwes : s.threadOwes = false

/-- The thread stays what it was. -/
theorem AfterReport.exec {act : SuperviseAction} (h : AfterReport s) (he : act.exec s = some s') :
    AfterReport s' ∧ s'.thread = s.thread := by
  have hthread : s'.thread = s.thread ∧ s'.threadOwes = false := by
    cases act with
    | main b w asksStatus now =>
      obtain rfl := Option.some.inj he
      have hcreated : s.thread ≠ .none := h.thread.ne_none
      rw [mainStep_loop (h.tells.owes_none hcreated)]
      exact ⟨loopStep_thread h.tells.marks fun hp => hcreated (h.tells.fresh hp), h.threadOwes⟩
    | report b =>
      obtain ⟨l, hl, rfl⟩ := Option.map_eq_some_iff.mp he
      unfold LoopAction.exec at hl
      dsimp only at hl
      split_ifs at hl with hstarting
      have hreported := h.thread
      unfold HasReported at hreported
      rw [hstarting] at hreported
      exact hreported.elim nofun nofun
    | threadFails now =>
      unfold SuperviseAction.exec at he
      dsimp only at he
      rw [h.threadOwes] at he
      cases he
    | blink now =>
      unfold SuperviseAction.exec at he
      dsimp only at he
      split_ifs at he
      obtain rfl := Option.some.inj he
      exact ⟨rfl, h.threadOwes⟩
    | sample value now =>
      unfold SuperviseAction.exec at he
      dsimp only at he
      split_ifs at he
      all_goals
        obtain rfl := Option.some.inj he
        exact ⟨rfl, h.threadOwes⟩
    | callback w now =>
      unfold SuperviseAction.exec buttonStep at he
      dsimp only at he
      split at he
      · cases he
      all_goals
        obtain rfl := Option.some.inj he
        exact ⟨rfl, h.threadOwes⟩
    | surface e hsurface =>
      obtain rfl := Option.some.inj he
      exact ⟨rfl, h.threadOwes⟩
  refine ⟨⟨tells_exec h.tells he, ledReady_exec h.led he, ?_, hthread.2⟩, hthread.1⟩
  have hkept : s'.loop.node.thread = s.loop.node.thread := hthread.1
  unfold HasReported
  rw [hkept]
  exact h.thread

/-- Only the handlers of the work queue set the LED then, and only the button resets. -/
theorem AfterReport.still {act : SuperviseAction} (h : AfterReport s) (he : act.exec s = some s')
    (hblink : ∀ now, act ≠ .blink now) (hbutton : ∀ w now, act ≠ .callback w now) :
    s'.led.lastToggleMs = s.led.lastToggleMs ∧ s'.led.blueLed = s.led.blueLed := by
  cases act with
  | main b w asksStatus now =>
    obtain rfl := Option.some.inj he
    rw [mainStep_loop (h.tells.owes_none h.thread.ne_none)]
    exact ⟨rfl, rfl⟩
  | report b =>
    obtain ⟨l, -, rfl⟩ := Option.map_eq_some_iff.mp he
    exact ⟨rfl, rfl⟩
  | threadFails now =>
    unfold SuperviseAction.exec at he
    dsimp only at he
    rw [h.threadOwes] at he
    cases he
  | blink now => exact absurd rfl (hblink now)
  | sample value now =>
    unfold SuperviseAction.exec at he
    dsimp only at he
    split_ifs at he
    all_goals
      obtain rfl := Option.some.inj he
      exact ⟨rfl, rfl⟩
  | callback w now => exact absurd rfl (hbutton w now)
  | surface e hsurface =>
    obtain rfl := Option.some.inj he
    exact ⟨rfl, rfl⟩

/-- A reset is the work of the button. -/
theorem isReset_exec {act : SuperviseAction} (he : act.exec s = some s')
    (hbutton : ∀ w now, act ≠ .callback w now) (hreset : s'.IsReset) : s.IsReset := by
  cases act with
  | main b w asksStatus now =>
    obtain rfl := Option.some.inj he
    unfold mainStep at hreset
    split at hreset
    · exact hreset
    · exact hreset
  | report b =>
    obtain ⟨l, -, rfl⟩ := Option.map_eq_some_iff.mp he
    exact hreset
  | threadFails now =>
    unfold SuperviseAction.exec at he
    dsimp only at he
    split_ifs at he
    obtain rfl := Option.some.inj he
    exact hreset
  | blink now =>
    unfold SuperviseAction.exec at he
    dsimp only at he
    split_ifs at he
    obtain rfl := Option.some.inj he
    exact hreset
  | sample value now =>
    unfold SuperviseAction.exec at he
    dsimp only at he
    split_ifs at he
    all_goals
      obtain rfl := Option.some.inj he
      exact Or.inr (hreset.resolve_left nofun)
  | callback w now => exact absurd rfl (hbutton w now)
  | surface e hsurface =>
    obtain rfl := Option.some.inj he
    exact hreset

/-- The broker has failed, the LED shows it, and nothing else is under way. -/
structure Failed (s : Supervised) : Prop where
  after : AfterReport s
  thread : s.thread = .exited
  button : s.button = .idle
  rebootDue : s.rebootDue = false

theorem Failed.status (h : Failed s) : s.status = .error := by
  refine (h.after.tells.failed h.thread h.after.threadOwes).resolve_right fun hs => ?_
  rcases hs.1 with hr | hr
  · exact absurd (h.button.symm.trans hr) nofun
  · exact absurd (h.rebootDue.symm.trans hr) nofun

/-- The button has nothing to do. -/
theorem Failed.noCallback {act : SuperviseAction} (h : Failed s) (he : act.exec s = some s') :
    ∀ w now, act ≠ .callback w now := by
  rintro w now rfl
  unfold SuperviseAction.exec buttonStep at he
  rw [h.button] at he
  cases he

/-- The work queue stays free, for a press calls the reset while the status is running only. -/
theorem Failed.button_exec {act : SuperviseAction} (h : Failed s) (he : act.exec s = some s') :
    s'.button = .idle := by
  cases act with
  | main b w asksStatus now =>
    obtain rfl := Option.some.inj he
    unfold mainStep
    split
    · exact h.button
    · exact h.button
  | report b =>
    obtain ⟨l, -, rfl⟩ := Option.map_eq_some_iff.mp he
    exact h.button
  | threadFails now =>
    unfold SuperviseAction.exec at he
    dsimp only at he
    split_ifs at he
    obtain rfl := Option.some.inj he
    exact h.button
  | blink now =>
    unfold SuperviseAction.exec at he
    dsimp only at he
    split_ifs at he
    obtain rfl := Option.some.inj he
    exact h.button
  | sample value now =>
    unfold SuperviseAction.exec at he
    dsimp only at he
    split_ifs at he with hidle hfired
    · exact absurd (h.status.symm.trans (running_of_fired hfired)) nofun
    · obtain rfl := Option.some.inj he
      rfl
  | callback w now => exact absurd rfl (h.noCallback he w now)
  | surface e hsurface =>
    obtain rfl := Option.some.inj he
    exact h.button

theorem Failed.exec {act : SuperviseAction} (h : Failed s) (he : act.exec s = some s') : Failed s' := by
  obtain ⟨hafter, hthread⟩ := h.after.exec he
  have hreset : ¬ s'.IsReset := fun hr => by
    rcases isReset_exec he (h.noCallback he) hr with hr | hr
    · exact absurd (h.button.symm.trans hr) nofun
    · exact absurd (h.rebootDue.symm.trans hr) nofun
  exact ⟨hafter, hthread.trans h.thread, h.button_exec he,
    Bool.eq_false_iff.mpr fun hr => hreset (Or.inr hr)⟩

/-- The broker runs, and the configuration has not been reset. -/
structure RunsOn (s : Supervised) : Prop where
  after : AfterReport s
  thread : s.thread = .running
  unreset : ¬ s.IsReset

theorem RunsOn.status (h : RunsOn s) : s.status = .running :=
  ((h.after.tells.lit (Or.inr (Or.inr (Or.inl h.thread)))).resolve_right fun hs => h.unreset hs.1).2

end MqttFieldBridge.Device
