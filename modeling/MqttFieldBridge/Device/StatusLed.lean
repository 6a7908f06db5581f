import MqttFieldBridge.Device.Button
import MqttFieldBridge.Lts.Pace

/-! # The status LED

The blue LED of `product_status_io.c`. It blinks fast while the device boots and after an error,
slowly while the broker runs, and is dark when the device has been stopped. A call of its handler
changes it exactly when that is due (`blink_changes`). -/

namespace MqttFieldBridge.Device

open MqttFieldBridge.Lts

abbrev bootBlinkMs : ℤ := 150

abbrev errorBlinkMs : ℤ := 150

abbrev runBlinkMs : ℤ := 2000

/-- The static variables of `product_status_io.c`, on a board with the LED; `blueLed` is the level that
`set_led` has given its pin last. -/
structure StatusLed where
  io : StatusIo
  activityLedOn : Bool
  lastToggleMs : ℤ
  blueLed : Bool

/-- The static variables before `product_status_io_init`. -/
def StatusLed.zero : StatusLed := ⟨.zero, false, 0, false⟩

/-- `product_status_io_init` at `now`. -/
def StatusLed.init (configResetCb : Bool) (now : ℤ) (s : StatusLed) : StatusLed :=
  { s with io := productStatusIoInit configResetCb s.io, lastToggleMs := now, blueLed := true }

/-- `product_status_io_set_running` at `now`. -/
def StatusLed.setRunning (isRunning : UInt8) (now : ℤ) (s : StatusLed) : StatusLed where
  io := productStatusIoSetRunning isRunning s.io
  activityLedOn := isRunning ≠ 0
  lastToggleMs := now
  blueLed := isRunning ≠ 0

/-- `product_status_io_set_error` at `now`. -/
def StatusLed.setError (now : ℤ) (s : StatusLed) : StatusLed where
  io := productStatusIoSetError s.io
  activityLedOn := true
  lastToggleMs := now
  blueLed := true

/-- One blink, if the last is `period` ago. -/
def StatusLed.blink (period now : ℤ) (s : StatusLed) : StatusLed :=
  if now - s.lastToggleMs ≥ period then
    { s with activityLedOn := !s.activityLedOn, blueLed := !s.activityLedOn, lastToggleMs := now }
  else s

def statusWorkHandler (now : ℤ) (s : StatusLed) : StatusLed :=
  if !s.io.ioReady then s
  else match s.io.statusState with
    | .booting => s.blink bootBlinkMs now
    | .stopped => { s with blueLed := false, activityLedOn := false }
    | .error => s.blink errorBlinkMs now
    | .running => s.blink runBlinkMs now

/-- How long the LED stays as it is, unless the device is stopped. -/
def blinkPeriod : StatusIoState → Option ℤ
  | .booting => some bootBlinkMs
  | .stopped => none
  | .error => some errorBlinkMs
  | .running => some runBlinkMs

/-- It is time to blink again. -/
def BlinkDue (period last now : ℤ) : Prop := now - last ≥ period

instance (period : ℤ) : DecidableRel (BlinkDue period) := fun last now =>
  inferInstanceAs (Decidable (now - last ≥ period))

variable {s : StatusLed} {period now : ℤ}

theorem blink_io : (s.blink period now).io = s.io := by
  unfold StatusLed.blink
  split_ifs
  · rfl
  · rfl

theorem statusWorkHandler_io : (statusWorkHandler now s).io = s.io := by
  unfold statusWorkHandler
  split_ifs
  · rfl
  · split
    · exact blink_io
    · rfl
    · exact blink_io
    · exact blink_io

theorem statusWorkHandler_of_period (hready : s.io.ioReady = true)
    (hperiod : blinkPeriod s.io.statusState = some period) :
    statusWorkHandler now s = s.blink period now := by
  unfold statusWorkHandler
  rw [if_neg (by simp [hready])]
  cases hst : s.io.statusState with
  | booting =>
    rw [hst] at hperiod
    rw [← Option.some.inj hperiod]
  | stopped =>
    rw [hst] at hperiod
    cases hperiod
  | running =>
    rw [hst] at hperiod
    rw [← Option.some.inj hperiod]
  | error =>
    rw [hst] at hperiod
    rw [← Option.some.inj hperiod]

theorem blink_lastToggleMs : (s.blink period now).lastToggleMs =
    if BlinkDue period s.lastToggleMs now then now else s.lastToggleMs := by
  unfold StatusLed.blink
  by_cases hdue : BlinkDue period s.lastToggleMs now
  · have hge : now - s.lastToggleMs ≥ period := hdue
    rw [if_pos hdue, if_pos hge]
  · have hlt : ¬ now - s.lastToggleMs ≥ period := hdue
    rw [if_neg hdue, if_neg hlt]

/-- The LED has the level of the variable; `product_status_io_init` alone leaves it another. -/
def StatusLed.Even (s : StatusLed) : Prop := s.blueLed = s.activityLedOn

theorem StatusLed.Even.blink (h : s.Even) : (s.blink period now).Even := by
  unfold StatusLed.blink
  split_ifs
  · rfl
  · exact h

/-- The LED changes when it is due. -/
theorem blink_changes (h : s.Even) :
    (s.blink period now).blueLed ≠ s.blueLed ↔ BlinkDue period s.lastToggleMs now := by
  have hlevel : s.blueLed = s.activityLedOn := h
  unfold StatusLed.blink BlinkDue
  rw [hlevel]
  split_ifs with hdue
  · exact iff_of_true (by simp) hdue
  · exact iff_of_false (fun hne => hne hlevel) hdue

theorem statusWorkHandler_even (h : s.Even) : (statusWorkHandler now s).Even := by
  unfold statusWorkHandler
  split_ifs
  · exact h
  · split
    · exact h.blink
    · rfl
    · exact h.blink
    · exact h.blink

/-- The button leaves the status and the LED as they are. -/
theorem buttonWorkHandler_status {value : ℤ} {io : StatusIo} :
    (buttonWorkHandler value now io).2.statusState = io.statusState ∧
      (buttonWorkHandler value now io).2.ioReady = io.ioReady := by
  unfold buttonWorkHandler
  dsimp only
  split_ifs
  · exact ⟨rfl, rfl⟩
  · exact ⟨rfl, rfl⟩
  · exact ⟨rfl, rfl⟩
  · exact ⟨rfl, rfl⟩
  · exact ⟨rfl, rfl⟩
  · exact ⟨rfl, rfl⟩

/-- The reset is called while the status is running. -/
theorem running_of_fired {value : ℤ} {io : StatusIo}
    (h : (buttonWorkHandler value now io).1 = true) : io.statusState = .running := by
  unfold buttonWorkHandler at h
  dsimp only at h
  split_ifs at h with h1 h2 h3 h4 h5
  · exact h4.1
  · exact h5.1

end MqttFieldBridge.Device
