import Mathlib.Data.Nat.Notation
import Mathlib.Tactic.ByContra

/-! # Streaks

Of a predicate on the natural numbers, read as instants, `streak p n` counts how many instants before
`n` in a row meet it. A counter that a bad instant sets back to zero is this streak; it has reached
`k` exactly if the last `k` instants were good (`le_streak_iff`), and it does so for the first time at
the end of the earliest such run (`streak_first`). -/

namespace MqttFieldBridge.Lts

variable {p : ℕ → Prop} {k n : ℕ}

/-! ### Runs -/

/-- The `k` instants before `n` meet `p`. -/
def RunBefore (p : ℕ → Prop) (k n : ℕ) : Prop := k ≤ n ∧ ∀ i, n - k ≤ i → i < n → p i

theorem runBefore_zero : RunBefore p 0 n := ⟨Nat.zero_le n, fun i hi hlt => by omega⟩

/-- A run that ends one instant later. -/
theorem runBefore_succ_iff : RunBefore p (k + 1) (n + 1) ↔ p n ∧ RunBefore p k n := by
  constructor
  · rintro ⟨hle, hrun⟩
    refine ⟨hrun n (by omega) (by omega), by omega, fun i hi hlt => ?_⟩
    exact hrun i (by omega) (by omega)
  · rintro ⟨hp, hle, hrun⟩
    refine ⟨by omega, fun i hi hlt => ?_⟩
    rcases Nat.lt_succ_iff_lt_or_eq.mp hlt with hlt | rfl
    · exact hrun i (by omega) hlt
    · exact hp

/-- A run that begins at `j`. -/
theorem runBefore_add_iff {j : ℕ} : RunBefore p k (j + k) ↔ ∀ i < k, p (j + i) := by
  constructor
  · rintro ⟨-, hrun⟩ i hi
    exact hrun (j + i) (by omega) (by omega)
  · intro hrun
    refine ⟨by omega, fun i hi hlt => ?_⟩
    have hp := hrun (i - j) (by omega)
    rwa [Nat.add_sub_cancel' (by omega)] at hp

/-! ### The counter -/

variable [DecidablePred p]

/-- How many instants in a row meet `p`, up to `n`. -/
def streak (p : ℕ → Prop) [DecidablePred p] : ℕ → ℕ
  | 0 => 0
  | n + 1 => if p n then streak p n + 1 else 0

theorem streak_succ_of_pos (h : p n) : streak p (n + 1) = streak p n + 1 := if_pos h

theorem streak_succ_of_neg (h : ¬ p n) : streak p (n + 1) = 0 := if_neg h

/-- **The counter says how long the run is.** -/
theorem le_streak_iff : ∀ {k n : ℕ}, k ≤ streak p n ↔ RunBefore p k n
  | 0, n => iff_of_true (Nat.zero_le _) runBefore_zero
  | k + 1, 0 => iff_of_false (by simp [streak]) fun h => absurd h.1 (by omega)
  | k + 1, n + 1 => by
    rw [runBefore_succ_iff, ← le_streak_iff]
    by_cases hp : p n
    · rw [streak_succ_of_pos hp]
      simp [hp]
    · rw [streak_succ_of_neg hp]
      simp [hp]

/-- Where the counter has reached `k` for the first time, the earliest run of `k` ends. -/
theorem streak_first (hn : k ≤ streak p n) (hfirst : ∀ m < n, streak p m < k) :
    ∃ j, n = j + k ∧ (∀ i < k, p (j + i)) ∧ ∀ j', (∀ i < k, p (j' + i)) → j ≤ j' := by
  have hrun := le_streak_iff.mp hn
  have hle := hrun.1
  obtain ⟨j, rfl⟩ : ∃ j, n = j + k := ⟨n - k, by omega⟩
  refine ⟨j, rfl, runBefore_add_iff.mp hrun, fun j' hj' => ?_⟩
  by_contra hlt
  have hreached := le_streak_iff.mpr (runBefore_add_iff.mpr hj')
  have hbelow := hfirst (j' + k) (by omega)
  omega

end MqttFieldBridge.Lts
