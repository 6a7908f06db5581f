import Mathlib.Algebra.Order.Ring.Int
import Mathlib.Data.List.Basic
import Mathlib.Tactic.SplitIfs

/-! # The button

The button of `product_status_io.c`, which resets the configuration when it is held. A device has a
run of samples of the button, taken by `button_work_handler`, and of changes of the status between
them. The timer of a press starts with its first sample, and the status is looked at only when the
timer has run out, so what the status was before does not matter.

* `sampleLog`: the samples of a run, the newest first, with the status then and whether the reset was
  called.
* `follows_statusIoAfter`: the reset is called at the first sample of a press that is due, and nowhere
  else.
* `resetsOnHold_iff`: when a run calls it only after ten seconds with the button held *and* the status
  running. -/

namespace MqttFieldBridge.Device

abbrev configResetPressMs : ℤ := 10000

/-- `enum status_io_state` -/
inductive StatusIoState where
  | booting
  | stopped
  | running
  | error
deriving DecidableEq

/-- The static variables of `product_status_io.c` that the button reads or writes. A time of 0 means
that the button is not pressed. -/
structure StatusIo where
  configResetFn : Bool
  ioReady : Bool
  configResetReported : Bool
  statusState : StatusIoState
  buttonPressedMs : ℤ

/-- The static variables before `product_status_io_init`. -/
def StatusIo.zero : StatusIo := ⟨false, false, false, .booting, 0⟩

def productStatusIoInit (configResetCb : Bool) (s : StatusIo) : StatusIo :=
  { s with configResetFn := configResetCb, statusState := .booting, ioReady := true }

def productStatusIoSetRunning (isRunning : UInt8) (s : StatusIo) : StatusIo :=
  { s with statusState := if isRunning ≠ 0 then .running else .stopped }

def productStatusIoSetError (s : StatusIo) : StatusIo := { s with statusState := .error }

/-- One sample of the button, on a board that has one: whether the callback is called, and the state
after it. -/
def buttonWorkHandler (value now : ℤ) (s : StatusIo) : Bool × StatusIo :=
  if !s.ioReady then (false, s)
  else if value > 0 then
    let s := if s.buttonPressedMs = 0 then
        { s with buttonPressedMs := now, configResetReported := false }
      else s
    if s.statusState = .running ∧ s.configResetReported = false ∧
        now - s.buttonPressedMs ≥ configResetPressMs then
      (s.configResetFn, { s with configResetReported := true })
    else (false, s)
  else (false, { s with buttonPressedMs := 0, configResetReported := false })

/-! ### Runs -/

inductive StatusIoEvent where
  | sample (value now : ℤ)
  | init
  | setRunning (isRunning : UInt8)
  | setError

/-- The state after an event; the callback is registered as `main` registers it. -/
def StatusIoEvent.apply : StatusIoEvent → StatusIo → StatusIo
  | sample value now, s => (buttonWorkHandler value now s).2
  | init, s => productStatusIoInit true s
  | setRunning isRunning, s => productStatusIoSetRunning isRunning s
  | setError, s => productStatusIoSetError s

/-- The state after the events, the newest of which is first. -/
def statusIoAfter : List StatusIoEvent → StatusIo
  | [] => productStatusIoInit true .zero
  | e :: es => e.apply (statusIoAfter es)

/-- A sample: whether it read pressed, when, the status then, and whether it called the reset. -/
structure Sample where
  pressed : Bool
  now : ℤ
  status : StatusIoState
  fired : Bool

/-- The samples of a run, the newest first. -/
def sampleLog : List StatusIoEvent → List Sample
  | [] => []
  | .sample value now :: es =>
    ⟨value > 0, now, (statusIoAfter es).statusState,
      (buttonWorkHandler value now (statusIoAfter es)).1⟩ :: sampleLog es
  | _ :: es => sampleLog es

/-! ### What the reset is for -/

/-- Since `t` the button has read pressed and the status has been running at every sample. -/
def HeldRunning (t : ℤ) : List Sample → Prop
  | [] => False
  | s :: l => s.pressed ∧ s.status = .running ∧ (s.now ≤ t ∨ HeldRunning t l)

instance (t : ℤ) : (l : List Sample) → Decidable (HeldRunning t l)
  | [] => inferInstanceAs (Decidable False)
  | s :: l =>
    have : Decidable (HeldRunning t l) := instDecidableHeldRunning t l
    inferInstanceAs (Decidable (s.pressed ∧ s.status = .running ∧ (s.now ≤ t ∨ HeldRunning t l)))

/-- The reset is called only after ten seconds of this, and once in a press. -/
structure ResetsOnHold (log : List Sample) : Prop where
  held : ∀ newer s older, log = newer ++ s :: older → s.fired →
    HeldRunning (s.now - configResetPressMs) (s :: older)
  once : ∀ newer s between s' older, log = newer ++ s :: (between ++ s' :: older) → s.fired →
    s'.fired → ∃ u ∈ between, ¬ u.pressed

/-! ### Presses -/

/-- When the timer of the press started: at its first sample, unless the clock was at 0 then. -/
def pressStart : List Sample → ℤ
  | [] => 0
  | s :: l => if s.pressed then if pressStart l = 0 then s.now else pressStart l else 0

/-- The newest sample reads pressed and running, and the timer of the press has run out. -/
def Due : List Sample → Prop
  | [] => False
  | s :: l => s.pressed ∧ s.status = .running ∧ s.now - pressStart (s :: l) ≥ configResetPressMs

/-- Some sample of the press was due. -/
def DueBefore : List Sample → Prop
  | [] => False
  | s :: l => s.pressed ∧ (Due (s :: l) ∨ DueBefore l)

/-- The newest sample is the first of its press that is due. -/
def FirstDue (s : Sample) (l : List Sample) : Prop := Due (s :: l) ∧ ¬ DueBefore l

/-- The reset has been called in the press. -/
def Reported : List Sample → Prop
  | [] => False
  | s :: l => s.pressed ∧ (s.fired ∨ Reported l)

theorem pressStart_cons {s : Sample} {l : List Sample} (h : s.pressed) :
    pressStart (s :: l) = if pressStart l = 0 then s.now else pressStart l := if_pos h

theorem pressStart_released {s : Sample} {l : List Sample} (h : ¬ s.pressed) :
    pressStart (s :: l) = 0 := if_neg h

/-- The sample that starts the timer is not due. -/
theorem not_due_of_start {s : Sample} {l : List Sample} (h : pressStart l = 0) :
    ¬ Due (s :: l) := by
  rintro ⟨hp, -, hold⟩
  rw [pressStart_cons hp, if_pos h] at hold
  simp only [configResetPressMs] at hold
  omega

/-! ### The variables follow the samples -/

/-- Exactly the first sample due in a press calls the reset. -/
def Exact : List Sample → Prop
  | [] => True
  | s :: l => (s.fired ↔ FirstDue s l) ∧ Exact l

/-- What the variables say about the samples so far. -/
structure Follows (s : StatusIo) (l : List Sample) : Prop where
  registered : s.configResetFn = true
  ready : s.ioReady = true
  start : s.buttonPressedMs = pressStart l
  reported : s.configResetReported = true ↔ Reported l
  exact : Exact l

/-- A press in which the reset has been called has been timed. -/
theorem start_of_reported : ∀ {l : List Sample}, Exact l → Reported l → pressStart l ≠ 0
  | s :: l, he, hr => by
    obtain ⟨hp, hfired | hr⟩ := hr
    · have hdue : Due (s :: l) := (he.1.mp hfired).1
      by_cases hl : pressStart l = 0
      · exact absurd hdue (not_due_of_start hl)
      · rw [pressStart_cons hp, if_neg hl]
        exact hl
    · have hl := start_of_reported he.2 hr
      rw [pressStart_cons hp, if_neg hl]
      exact hl

/-- The reset has been called in the press if and only if some sample of it was due. -/
theorem reported_iff : ∀ {l : List Sample}, Exact l → (Reported l ↔ DueBefore l)
  | [], _ => Iff.rfl
  | s :: l, he => by
    have ih := reported_iff he.2
    refine and_congr_right fun _ => ?_
    rw [he.1, FirstDue, ih]
    by_cases hb : DueBefore l
    · exact ⟨fun _ => Or.inr hb, fun _ => Or.inr hb⟩
    · exact ⟨fun h => h.imp_left And.left, fun h => h.imp_left fun hd => ⟨hd, hb⟩⟩

/-- The timer of a press, started if it was not. -/
def startTimer (now : ℤ) (s : StatusIo) : StatusIo :=
  if s.buttonPressedMs = 0 then { s with buttonPressedMs := now, configResetReported := false }
  else s

theorem handler_released {s : StatusIo} {value now : ℤ} (hr : s.ioReady = true)
    (hv : ¬ value > 0) : buttonWorkHandler value now s =
      (false, { s with buttonPressedMs := 0, configResetReported := false }) := by
  have hready : ¬ (!s.ioReady) = true := by simp [hr]
  unfold buttonWorkHandler
  rw [if_neg hready, if_neg hv]

theorem handler_pressed {s : StatusIo} {value now : ℤ} (hr : s.ioReady = true)
    (hv : value > 0) : buttonWorkHandler value now s =
      if (startTimer now s).statusState = .running ∧
          (startTimer now s).configResetReported = false ∧
          now - (startTimer now s).buttonPressedMs ≥ configResetPressMs then
        ((startTimer now s).configResetFn, { startTimer now s with configResetReported := true })
      else (false, startTimer now s) := by
  have hready : ¬ (!s.ioReady) = true := by simp [hr]
  unfold buttonWorkHandler
  rw [if_neg hready, if_pos hv]
  rfl

/-- What the variables say once the timer of the press runs. -/
theorem Follows.timed {s : StatusIo} {l : List Sample} (h : Follows s l) {x : Sample}
    (hp : x.pressed) :
    (startTimer x.now s).statusState = s.statusState ∧
      (startTimer x.now s).configResetFn = true ∧ (startTimer x.now s).ioReady = true ∧
      (startTimer x.now s).buttonPressedMs = pressStart (x :: l) ∧
      ((startTimer x.now s).configResetReported = true ↔ Reported l) := by
  unfold startTimer
  rw [pressStart_cons hp, ← h.start]
  by_cases hs : s.buttonPressedMs = 0
  · rw [if_pos hs, if_pos hs]
    have hnot : ¬ Reported l := fun hr => start_of_reported h.exact hr (h.start ▸ hs)
    exact ⟨rfl, h.registered, h.ready, rfl, by simpa using hnot⟩
  · rw [if_neg hs, if_neg hs]
    exact ⟨rfl, h.registered, h.ready, rfl, h.reported⟩

/-- **One sample.** -/
theorem Follows.sample {s : StatusIo} {l : List Sample} (h : Follows s l) (value now : ℤ) :
    Follows (buttonWorkHandler value now s).2
      (⟨value > 0, now, s.statusState, (buttonWorkHandler value now s).1⟩ :: l) := by
  by_cases hv : value > 0
  · have hp : ∀ fired, (⟨value > 0, now, s.statusState, fired⟩ : Sample).pressed :=
      fun _ => by simpa using hv
    obtain ⟨hstatus, hfn, hready, hstart, hrep⟩ := h.timed (hp false)
    rw [handler_pressed h.ready hv]
    dsimp only at hstatus hfn hready hstart hrep
    -- the condition of the handler is that this sample is the first one due
    have hcond : ((startTimer now s).statusState = .running ∧
        (startTimer now s).configResetReported = false ∧
        now - (startTimer now s).buttonPressedMs ≥ configResetPressMs) ↔
        FirstDue ⟨value > 0, now, s.statusState, false⟩ l := by
      rw [hstatus, hstart, ← Bool.not_eq_true, hrep, reported_iff h.exact]
      constructor
      · rintro ⟨hrun, hnot, hold⟩
        exact ⟨⟨hp false, hrun, hold⟩, hnot⟩
      · rintro ⟨⟨-, hrun, hold⟩, hnot⟩
        exact ⟨hrun, hnot, hold⟩
    by_cases hc : (startTimer now s).statusState = .running ∧
        (startTimer now s).configResetReported = false ∧
        now - (startTimer now s).buttonPressedMs ≥ configResetPressMs
    · rw [if_pos hc]
      refine ⟨hfn, hready, hstart, ?_, ?_, h.exact⟩
      · exact ⟨fun _ => ⟨hp _, Or.inl hfn⟩, fun _ => rfl⟩
      · exact ⟨fun _ => hcond.mp hc, fun _ => hfn⟩
    · rw [if_neg hc]
      refine ⟨hfn, hready, hstart, ?_, ?_, h.exact⟩
      · rw [hrep]
        exact ⟨fun hr => ⟨hp _, Or.inr hr⟩, fun hr => hr.2.resolve_left nofun⟩
      · exact ⟨nofun, fun hd => absurd (hcond.mpr hd) hc⟩
  · have hp : ∀ fired, ¬ (⟨value > 0, now, s.statusState, fired⟩ : Sample).pressed :=
      fun _ => by simpa using hv
    rw [handler_released h.ready hv]
    refine ⟨h.registered, h.ready, (pressStart_released (hp false)).symm, ?_, ?_, h.exact⟩
    · exact ⟨nofun, fun hr => absurd hr.1 (hp false)⟩
    · exact ⟨nofun, fun hd => absurd hd.1.1 (hp false)⟩

/-- **The variables follow the samples of every run.** -/
theorem follows_statusIoAfter : ∀ es : List StatusIoEvent, Follows (statusIoAfter es) (sampleLog es)
  | [] => ⟨rfl, rfl, rfl, ⟨nofun, nofun⟩, trivial⟩
  | .sample value now :: es => (follows_statusIoAfter es).sample value now
  | .init :: es =>
    have h := follows_statusIoAfter es
    ⟨rfl, rfl, h.start, h.reported, h.exact⟩
  | .setRunning _ :: es =>
    have h := follows_statusIoAfter es
    ⟨h.registered, h.ready, h.start, h.reported, h.exact⟩
  | .setError :: es =>
    have h := follows_statusIoAfter es
    ⟨h.registered, h.ready, h.start, h.reported, h.exact⟩

/-! ### When the reset is right -/

theorem Exact.append : ∀ {newer older : List Sample}, Exact (newer ++ older) → Exact older
  | [], _, h => h
  | _ :: _, _, h => Exact.append h.2

/-- A reset that has been called is remembered while the button is held. -/
theorem reported_append {s : Sample} {older : List Sample} (hp : s.pressed) (hf : s.fired) :
    ∀ {between : List Sample}, (∀ u ∈ between, u.pressed) → Reported (between ++ s :: older)
  | [], _ => ⟨hp, Or.inl hf⟩
  | u :: _, h =>
    ⟨h u List.mem_cons_self,
      Or.inr (reported_append hp hf fun v hv => h v (List.mem_cons_of_mem u hv))⟩

/-- In a press, a sample `q` was not running, and the sample after it is newer than `t`. -/
def TurnedAfter (t : ℤ) (l : List Sample) : Prop :=
  ∃ newer y q older, l = newer ++ y :: q :: older ∧ (∀ u ∈ newer, u.pressed) ∧ y.pressed ∧
    q.pressed ∧ q.status ≠ .running ∧ t < y.now

theorem turnedAfter_cons {t : ℤ} {y q : Sample} {l : List Sample} (hy : y.pressed) :
    TurnedAfter t (y :: q :: l) ↔
      (q.pressed ∧ q.status ≠ .running ∧ t < y.now) ∨ TurnedAfter t (q :: l) := by
  constructor
  · rintro ⟨newer, y', q', older, he, hn, hy', hq', hr, ht⟩
    cases newer with
    | nil =>
      cases he
      exact Or.inl ⟨hq', hr, ht⟩
    | cons u newer =>
      obtain ⟨rfl, htail⟩ := List.cons.inj he
      exact Or.inr ⟨newer, y', q', older, htail, fun v hv => hn v (List.mem_cons_of_mem _ hv), hy', hq',
        hr, ht⟩
  · rintro (⟨hq, hr, ht⟩ | ⟨newer, y', q', older, he, hn, hy', hq', hr, ht⟩)
    · exact ⟨[], y, q, l, rfl, fun u hu => absurd hu List.not_mem_nil, hy, hq, hr, ht⟩
    · refine ⟨y :: newer, y', q', older, by rw [he]; rfl, fun v hv => ?_, hy', hq', hr, ht⟩
      rcases List.mem_cons.mp hv with rfl | hv
      · exact hy
      · exact hn v hv

/-- Nothing happened after `t` if the newest sample is not newer. -/
theorem not_turnedAfter {t : ℤ} {y : Sample} {l : List Sample} (h : y.now ≤ t)
    (ht : (y :: l).Pairwise fun s s' => s'.now ≤ s.now) : ¬ TurnedAfter t (y :: l) := by
  rintro ⟨newer, y', q, older, he, -, -, -, -, hlt⟩
  have hmem : y' ∈ y :: l := by
    rw [he]
    simp
  rcases List.mem_cons.mp hmem with rfl | hmem
  · omega
  · have hle := List.rel_of_pairwise_cons ht hmem
    omega

/-- Going back through a press that started by `t`, all samples are running up to one at `t`, unless
the status turned later. -/
theorem heldRunning_iff {t : ℤ} : ∀ {y : Sample} {l : List Sample},
    y.pressed → y.status = .running → pressStart (y :: l) ≤ t →
      (y :: l).Pairwise (fun s s' => s'.now ≤ s.now) →
        (HeldRunning t (y :: l) ↔ ¬ TurnedAfter t (y :: l)) := by
  intro y l
  induction l generalizing y with
  | nil =>
    intro hp hr hs ht
    have hy : y.now ≤ t := by
      rw [pressStart_cons hp] at hs
      exact hs
    exact ⟨fun _ => not_turnedAfter hy ht, fun _ => ⟨hp, hr, Or.inl hy⟩⟩
  | cons q l ih =>
    intro hp hr hs ht
    by_cases hy : y.now ≤ t
    · exact ⟨fun _ => not_turnedAfter hy ht, fun _ => ⟨hp, hr, Or.inl hy⟩⟩
    -- the press started before `y`
    have hstart : pressStart (q :: l) ≠ 0 ∧ pressStart (q :: l) ≤ t := by
      rw [pressStart_cons hp] at hs
      split_ifs at hs with h0
      · omega
      · exact ⟨h0, hs⟩
    have hq : q.pressed := by
      by_contra hq
      exact hstart.1 (pressStart_released hq)
    have hback : HeldRunning t (y :: q :: l) ↔ HeldRunning t (q :: l) :=
      ⟨fun h => h.2.2.resolve_left hy, fun h => ⟨hp, hr, Or.inr h⟩⟩
    rw [hback, turnedAfter_cons hp]
    by_cases hrun : q.status = .running
    · rw [ih hq hrun hstart.2 (List.pairwise_cons.mp ht).2]
      exact ⟨fun h h' => h'.elim (fun hq' => hq'.2.1 hrun) h, fun h h' => h (Or.inr h')⟩
    · have hlate : t < y.now := by omega
      exact ⟨fun h => absurd h.2.1 hrun, fun h => absurd (Or.inl ⟨hq, hrun, hlate⟩) h⟩

/-- In no press does the status turn to running less than ten seconds before the first sample that is
due. -/
def NeverTurnsLate (log : List Sample) : Prop :=
  ∀ newer s older, log = newer ++ s :: older → FirstDue s older →
    ¬ TurnedAfter (s.now - configResetPressMs) (s :: older)

/-- **The reset needs ten seconds of a running status if and only if the status never turns late.** -/
theorem resetsOnHold_iff {es : List StatusIoEvent}
    (ht : (sampleLog es).Pairwise fun s s' => s'.now ≤ s.now) :
    ResetsOnHold (sampleLog es) ↔ NeverTurnsLate (sampleLog es) := by
  have hexact := (follows_statusIoAfter es).exact
  have hfired : ∀ {newer s older}, sampleLog es = newer ++ s :: older →
      (s.fired ↔ FirstDue s older) := by
    intro newer s older he
    rw [he] at hexact
    exact hexact.append.1
  have hheld : ∀ {newer s older}, sampleLog es = newer ++ s :: older → FirstDue s older →
      (HeldRunning (s.now - configResetPressMs) (s :: older) ↔
        ¬ TurnedAfter (s.now - configResetPressMs) (s :: older)) := by
    intro newer s older he hdue
    obtain ⟨hp, hr, hold⟩ := hdue.1
    rw [he] at ht
    exact heldRunning_iff hp hr (by omega) (List.pairwise_append.mp ht).2.1
  constructor
  · intro h newer s older he hdue
    exact (hheld he hdue).mp (h.held newer s older he ((hfired he).mpr hdue))
  · intro h
    refine ⟨fun newer s older he hf => ?_, fun newer s between s' older he hf hf' => ?_⟩
    · have hdue := (hfired he).mp hf
      exact (hheld he hdue).mpr (h newer s older he hdue)
    · by_contra hall
      push Not at hall
      obtain ⟨-, hnot⟩ := (hfired he).mp hf
      have he' : sampleLog es = (newer ++ s :: between) ++ s' :: older := by
        rw [he]
        simp
      have hp' : s'.pressed := ((hfired he').mp hf').1.1
      rw [he] at hexact
      exact hnot ((reported_iff hexact.append.2).mp (reported_append hp' hf' hall))

/-- A press of `n` samples, one every 100 ms from the first second on, the newest first. -/
def pressEvents (n : ℕ) : List StatusIoEvent :=
  (List.range n).reverse.map fun i => .sample 1 (1000 + 100 * i)

theorem resetsOnHold_running : ResetsOnHold (sampleLog (pressEvents 101 ++ [.setRunning 1])) ↔
    NeverTurnsLate (sampleLog (pressEvents 101 ++ [.setRunning 1])) :=
  resetsOnHold_iff (by decide +kernel)

/-- A press that begins before the broker runs resets the configuration as soon as it does. -/
theorem resets_after_start :
    ¬ ResetsOnHold (sampleLog (.sample 1 11000 :: .setRunning 1 :: pressEvents 100)) := by
  have hheld : ∀ es, (buttonWorkHandler 1 11000 (statusIoAfter (.setRunning 1 :: es))).1 = true →
      ResetsOnHold (sampleLog (.sample 1 11000 :: .setRunning 1 :: es)) →
        HeldRunning (11000 - configResetPressMs) (sampleLog es) := by
    intro es hf h
    have hnow := (h.held [] _ _ rfl hf).2.2
    exact hnow.resolve_left (show ¬ (11000 : ℤ) ≤ 11000 - configResetPressMs by decide)
  have hnot : ¬ HeldRunning (11000 - configResetPressMs) (sampleLog (pressEvents 100)) := by
    decide +kernel
  exact fun h => hnot (hheld (pressEvents 100) (by decide +kernel) h)

end MqttFieldBridge.Device
