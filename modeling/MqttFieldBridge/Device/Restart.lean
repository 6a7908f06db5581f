import MqttFieldBridge.Device.Supervise

/-! # Starting again

An attempt to start the broker is refused if the broker library does not take the address or the port of
the settings. This is not for good: the main loop tries again, with the settings as they are then, and
it takes five of its steps at most until the thread has been created once the library takes what the
settings say (`start_retried`), whatever is asked, typed or pressed between them. -/

namespace MqttFieldBridge.Device

open MqttFieldBridge.Config MqttFieldBridge.Runtime MqttFieldBridge.Boot MqttFieldBridge.Lts

variable {s s' : Supervised} {b : BrokerLib} {w : World} {now : ℤ}

/-- The library takes the address and the port. -/
def Accepts (b : BrokerLib) (settings : FieldBridgeSettings) : Prop :=
  b.setBindHost settings.broker.brokerIp.text = .ok ∧ b.setListenPort settings.broker.mqttPort = .ok

/-- It takes those of the settings as they are when `main` takes a step. -/
def Corrected (s : Supervised) : SuperviseAction → Prop
  | .main b _ _ _ => Accepts b s.loop.node.app.config.settings
  | _ => True

def SuperviseAction.isMain : SuperviseAction → Bool
  | .main _ _ _ _ => true
  | _ => false

/-- The steps of the loop up to the creation of the thread, and a call that sets the LED in between. -/
def phaseSteps : LoopPhase → ℕ
  | .creating => 1
  | .foundStopped => 3
  | _ => 4

theorem phaseSteps_bounds (phase : LoopPhase) : 1 ≤ phaseSteps phase ∧ phaseSteps phase ≤ 4 := by
  unfold phaseSteps
  split
  · omega
  · omega
  · omega

/-- The steps of `main` up to the creation of the thread. -/
def stepsToStart (s : Supervised) : ℕ :=
  if s.thread ≠ .none then 0
  else (if s.mainOwes = none then 0 else 1) + phaseSteps s.loop.phase

theorem stepsToStart_created (h : s.thread ≠ .none) : stepsToStart s = 0 := if_pos h

theorem stepsToStart_none {owed : Option LedCall} {phase : LoopPhase} (h : s.thread = .none)
    (howes : s.mainOwes = owed) (hphase : s.loop.phase = phase) :
    stepsToStart s = (if owed = none then 0 else 1) + phaseSteps phase := by
  rw [← howes, ← hphase]
  exact if_neg (not_not.mpr h)

theorem stepsToStart_le : stepsToStart s ≤ 5 := by
  have hbounds := phaseSteps_bounds s.loop.phase
  unfold stepsToStart
  split_ifs
  · omega
  · omega
  · omega

theorem thread_ne_none (h : stepsToStart s = 0) : s.thread ≠ .none := by
  intro hnone
  have hbounds := phaseSteps_bounds s.loop.phase
  rw [stepsToStart_none hnone rfl rfl] at h
  omega

/-- The steps depend on the loop and on what `main` owes. -/
theorem stepsToStart_congr (hthread : s'.thread = s.thread) (hphase : s'.loop.phase = s.loop.phase)
    (howes : s'.mainOwes = s.mainOwes) : stepsToStart s' = stepsToStart s := by
  unfold stepsToStart
  rw [hthread, hphase, howes]

theorem prepareBroker_accepted {settings : FieldBridgeSettings} {n : Node} (h : Accepts b settings) :
    (prepareBroker b w settings n).1 = .ok := by
  unfold prepareBroker
  rw [if_neg (not_not.mpr h.1), if_neg (not_not.mpr h.2)]

/-- **A step of `main` brings the thread nearer.** -/
theorem stepsToStart_main {asksStatus : Bool} (h : Tells s)
    (haccepts : Accepts b s.loop.node.app.config.settings) :
    stepsToStart (mainStep b w asksStatus now s) ≤ stepsToStart s - 1 := by
  by_cases hcreated : s.thread ≠ .none
  · have hkept : (mainStep b w asksStatus now s).thread = s.thread := by
      rw [mainStep_loop (h.owes_none hcreated)]
      exact loopStep_thread h.marks fun hp => hcreated (h.fresh hp)
    have hcreated' : (mainStep b w asksStatus now s).thread ≠ .none := by
      rw [hkept]
      exact hcreated
    rw [stepsToStart_created hcreated']
    exact Nat.zero_le _
  have hnone : s.thread = .none := not_not.mp hcreated
  cases howes : s.mainOwes with
  | some call =>
    -- the LED is set, and the loop stays where it is
    rw [mainStep_ledCall howes, stepsToStart_none hnone howes rfl]
    refine le_of_eq_of_le (stepsToStart_none hnone rfl rfl) ?_
    simp
  | none =>
    rw [mainStep_loop howes, stepsToStart_none hnone howes rfl]
    have hflag : ¬ s.loop.node.brokerThreadStarted = true := fun hf => h.marks.created hf hnone
    have hmarking : s.loop.phase ≠ .marking := fun hp => h.marks.marking hp hnone
    have hfound : ¬ (s.loop.phase = .foundStarted ∨ s.loop.phase = .foundRequested) := fun hp =>
      hflag (h.marks.found hp)
    obtain ⟨⟨n, phase⟩, mainOwes, threadOwes, button, rebootDue, led, menu, buffers⟩ := s
    dsimp only at hflag hmarking hfound haccepts ⊢
    cases phase with
    | done requested =>
      have hstep : loopStep b w asksStatus ⟨n, .done requested⟩ = ⟨n, .foundStopped⟩ := by
        simp [loopStep, hflag]
      rw [hstep]
      exact le_of_eq_of_le (stepsToStart_none hnone rfl rfl) le_rfl
    | foundStopped =>
      have hrc := @prepareBroker_accepted b w (productConfigGetSettings n.app.config) n haccepts
      have howed : owedCall b w ⟨n, .foundStopped⟩ = some .running := by
        simp [owedCall, hrc]
      have hphase : (loopStep b w asksStatus ⟨n, .foundStopped⟩).phase = .creating :=
        if_neg (not_not.mpr hrc)
      have hthread : (loopStep b w asksStatus ⟨n, .foundStopped⟩).node.thread = .none :=
        prepareBroker_marks.2.1.trans hnone
      exact le_of_eq_of_le (stepsToStart_none hthread howed hphase) le_rfl
    | creating =>
      have hthread : (loopStep b w asksStatus ⟨n, .creating⟩).node.thread ≠ .none := by
        show BrokerThread.starting ≠ .none
        decide
      exact le_of_eq_of_le (stepsToStart_created hthread) (Nat.zero_le _)
    | marking => exact absurd rfl hmarking
    | foundStarted => exact absurd (Or.inl rfl) hfound
    | foundRequested => exact absurd (Or.inr rfl) hfound

/-- No other step sends it back. -/
theorem stepsToStart_exec {act : SuperviseAction} (h : Tells s) (hc : Corrected s act)
    (he : act.exec s = some s') :
    stepsToStart s' ≤ stepsToStart s - if act.isMain then 1 else 0 := by
  cases act with
  | main b w asksStatus now =>
    obtain rfl := Option.some.inj he
    exact stepsToStart_main h hc
  | report b =>
    obtain ⟨l, hl, rfl⟩ := Option.map_eq_some_iff.mp he
    unfold LoopAction.exec at hl
    dsimp only at hl
    split_ifs at hl
    obtain rfl := Option.some.inj hl
    exact (stepsToStart_created (brokerServiceEntry_marks _).2.ne_none).trans_le (Nat.zero_le _)
  | threadFails now =>
    unfold SuperviseAction.exec at he
    dsimp only at he
    split_ifs at he
    obtain rfl := Option.some.inj he
    exact (stepsToStart_congr rfl rfl rfl).le
  | blink now =>
    unfold SuperviseAction.exec at he
    dsimp only at he
    split_ifs at he
    obtain rfl := Option.some.inj he
    exact (stepsToStart_congr rfl rfl rfl).le
  | sample value now =>
    unfold SuperviseAction.exec at he
    dsimp only at he
    split_ifs at he
    all_goals
      obtain rfl := Option.some.inj he
      exact (stepsToStart_congr rfl rfl rfl).le
  | callback w now =>
    unfold SuperviseAction.exec buttonStep at he
    dsimp only at he
    split at he
    · cases he
    all_goals
      obtain rfl := Option.some.inj he
      exact (stepsToStart_congr rfl rfl rfl).le
  | surface e hsurface =>
    obtain rfl := Option.some.inj he
    exact (stepsToStart_congr rfl rfl rfl).le

/-- **A refused start is not for good.** In every run in which the library takes the settings as they
are whenever `main` takes a step, five of its steps create the thread, and the LED tells that it has
been created unless it has failed or the button has reset the configuration. -/
theorem start_retried (h : supervised.Reachable s) (acts : List SuperviseAction)
    (hok : AllSteps SuperviseAction.exec Corrected acts s) (hcount : 5 ≤ acts.countP (·.isMain))
    (hrun : superviseRun acts s = some s') :
    s'.thread ≠ .none ∧ (s'.thread = .exited ∨ s'.IsReset ∨ s'.status = .running) := by
  have hsteps := @rank_runAll _ _ SuperviseAction.exec Corrected Tells stepsToStart (·.isMain)
    (fun s act s' hs _ he => tells_exec hs he) (fun s act s' hs hc he => stepsToStart_exec hs hc he)
    acts s s' (tells_of_reachable h) hok hrun
  have hle := @stepsToStart_le s
  have hcreated : s'.thread ≠ .none := thread_ne_none (by omega)
  have htells := tells_of_reachable (reachable_of_run h hrun)
  have hlit : s'.Lit → s'.IsReset ∨ s'.status = .running := fun hl =>
    (htells.lit hl).elim (fun hs => Or.inr hs.2) fun hs => Or.inl hs.1
  refine ⟨hcreated, ?_⟩
  cases hthread : s'.thread with
  | none => exact absurd hthread hcreated
  | starting => exact Or.inr (hlit (Or.inr (Or.inl hthread)))
  | running => exact Or.inr (hlit (Or.inr (Or.inr (Or.inl hthread))))
  | exited => exact Or.inl rfl

/-- The library takes no address. -/
abbrev refusingLib : BrokerLib := { BrokerLib.good with setBindHost := fun _ => .err }

/-- An attempt that is refused. -/
abbrev refusedSteps : List SuperviseAction :=
  [.main refusingLib .good false 5000, .main refusingLib .good false 5000,
    .main refusingLib .good false 5000]

/-- Another attempt, ten seconds later. -/
abbrev retrySteps : List SuperviseAction :=
  [.main .good .good false 15000, .blink 15010, .main .good .good false 15020,
    .main .good .good false 15020, .main .good .good false 15020, .main .good .good false 15020]

theorem start_retried_refused : ∃ s s', supervised.Reachable s ∧ s.status = .error ∧
    superviseRun retrySteps s = some s' ∧ s'.thread ≠ .none ∧
      (s'.thread = .exited ∨ s'.IsReset ∨ s'.status = .running) := by
  obtain ⟨a, h⟩ := reachable_beginning
  obtain ⟨s, s', hrefused, hstatus, hrun⟩ : ∃ s s', superviseRun refusedSteps (beginning a) = some s ∧
      s.status = .error ∧ superviseRun retrySteps s = some s' := ⟨_, _, rfl, rfl, rfl⟩
  have hs := reachable_of_run h hrefused
  have hgood : ∀ settings, Accepts .good settings := fun _ => ⟨rfl, rfl⟩
  have hok : AllSteps SuperviseAction.exec Corrected retrySteps s :=
    ⟨hgood _, fun _ _ => ⟨trivial, fun _ _ => ⟨hgood _, fun _ _ => ⟨hgood _, fun _ _ =>
      ⟨hgood _, fun _ _ => ⟨hgood _, fun _ _ => trivial⟩⟩⟩⟩⟩⟩
  have hstarted := start_retried hs retrySteps hok (by decide) hrun
  exact ⟨s, s', hs, hstatus, hrun, hstarted⟩

end MqttFieldBridge.Device
