import Mathlib.Data.Nat.Notation
import Mathlib.Tactic.SplitIfs

/-! # Runs that settle

A step `step a s` that leaves the state as it is or lowers its rank changes the state at most as often
as the rank says, whatever the actions are (`changes_le_rank`); at rank zero nothing changes any more
(`run_of_rank_eq_zero`). -/

namespace MqttFieldBridge.Lts

variable {σ α : Type*} {step : α → σ → σ} {rank : σ → ℕ}

/-- The state after all actions. -/
def run (step : α → σ → σ) : List α → σ → σ
  | [], s => s
  | a :: as, s => run step as (step a s)

open Classical in
/-- How many of the actions change the state. -/
noncomputable def changes (step : α → σ → σ) : List α → σ → ℕ
  | [], _ => 0
  | a :: as, s => (if step a s = s then 0 else 1) + changes step as (step a s)

/-- A step changes nothing, or the rank falls. -/
def Settling (step : α → σ → σ) (rank : σ → ℕ) : Prop :=
  ∀ a s, step a s = s ∨ rank (step a s) < rank s

/-- **There are no more changes than the rank.** -/
theorem changes_le_rank (h : Settling step rank) : ∀ (as : List α) (s : σ), changes step as s ≤ rank s
  | [], s => Nat.zero_le _
  | a :: as, s => by
    have hrest := changes_le_rank h as (step a s)
    unfold changes
    split_ifs with hsame
    · rw [hsame] at hrest ⊢
      omega
    · have hlt := (h a s).resolve_left hsame
      omega

/-- **At rank zero the state stays.** -/
theorem run_of_rank_eq_zero (h : Settling step rank) : ∀ (as : List α) (s : σ), rank s = 0 →
    run step as s = s
  | [], _, _ => rfl
  | a :: as, s, hzero => by
    have hsame : step a s = s := by
      rcases h a s with hsame | hlt
      · exact hsame
      · omega
    have hrest := run_of_rank_eq_zero h as s hzero
    unfold run
    rw [hsame]
    exact hrest

end MqttFieldBridge.Lts
