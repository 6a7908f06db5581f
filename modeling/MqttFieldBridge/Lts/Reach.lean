import Mathlib.Logic.Basic

/-! # Transition systems

A labelled transition system, its reachable states, and the induction that proves an invariant of
them: it holds at the start and every step preserves it. `restrict` leaves only the steps that meet a
condition; its reachable states are those of the runs whose steps all meet it. -/

namespace MqttFieldBridge.Lts

/-- A labelled transition system. -/
structure System (σ α : Type*) where
  init : σ → Prop
  step : σ → α → σ → Prop

namespace System

variable {σ α : Type*} {M : System σ α}

/-- The states that runs reach. -/
inductive Reachable (M : System σ α) : σ → Prop
  | init {s : σ} : M.init s → M.Reachable s
  | step {s s' : σ} {a : α} : M.Reachable s → M.step s a s' → M.Reachable s'

/-- The system with the steps that meet `C` only. -/
def restrict (M : System σ α) (C : σ → α → Prop) : System σ α where
  init := M.init
  step s a s' := C s a ∧ M.step s a s'

/-- The induction over runs. -/
theorem Reachable.invariant {I : σ → Prop} (h0 : ∀ s, M.init s → I s)
    (hs : ∀ s a s', I s → M.step s a s' → I s') : ∀ {s : σ}, M.Reachable s → I s
  | _, .init h => h0 _ h
  | _, .step hr h => hs _ _ _ (hr.invariant h0 hs) h

theorem Reachable.of_restrict {C : σ → α → Prop} :
    ∀ {s : σ}, (M.restrict C).Reachable s → M.Reachable s
  | _, .init h => .init h
  | _, .step hr h => .step hr.of_restrict h.2

end System

end MqttFieldBridge.Lts
