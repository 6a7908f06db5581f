import Mathlib.Data.List.Induction
import Mathlib.Logic.Function.Basic

/-! # A pool of slots that clients share

Clients make calls; a call may ask for a slot or end its client's use of one. `PoolStep` is what one
call may do to the owners of the slots, and `IsPool` a table of owners that only changes in this way.
Then no client owns two slots (`IsPool.unique`), an owner took its slot with a call that asked for it
and has not ended since (`IsPool.held`), and the pool is free again once every client that has asked
has ended (`IsPool.free`). -/

namespace MqttFieldBridge.Lts

variable {ι κ γ : Type*} [DecidableEq ι]

/-- What a call is to the pool. -/
structure PoolCalls (κ γ : Type*) where
  client : γ → κ
  asks : γ → Prop
  ends : γ → Prop

/-- What a call may do to the owners. -/
inductive PoolStep (P : PoolCalls κ γ) (o : ι → Option κ) (c : γ) : (ι → Option κ) → Prop
  | same (h : P.ends c → ∀ i, o i ≠ some (P.client c)) : PoolStep P o c o
  | acquire (i : ι) (hasks : P.asks c) (hends : ¬ P.ends c) (hfree : o i = none)
      (hnew : ∀ j, o j ≠ some (P.client c)) :
      PoolStep P o c (Function.update o i (some (P.client c)))
  | release (i : ι) (hends : P.ends c) (hown : o i = some (P.client c)) :
      PoolStep P o c (Function.update o i none)

/-- The owners after the calls so far, starting with a free pool. -/
structure IsPool (P : PoolCalls κ γ) (owners : List γ → ι → Option κ) : Prop where
  nil : ∀ i, owners [] i = none
  step : ∀ cs c, PoolStep P (owners cs) c (owners (cs ++ [c]))

/-- `k` took the slot `i` and has not ended since. -/
def HeldSince (P : PoolCalls κ γ) (owners : List γ → ι → Option κ) (cs : List γ) (i : ι)
    (k : κ) : Prop :=
  ∃ pre c post, cs = pre ++ c :: post ∧ P.client c = k ∧ P.asks c ∧ owners pre i = none ∧
    owners (pre ++ [c]) i = some k ∧ ∀ d ∈ post, P.client d = k → ¬ P.ends d

variable {P : PoolCalls κ γ} {owners : List γ → ι → Option κ}

/-- No client owns two slots. -/
def OneSlot (o : ι → Option κ) : Prop := ∀ i j k, o i = some k → o j = some k → i = j

theorem OneSlot.step {o o' : ι → Option κ} {c : γ} (h : OneSlot o) (hs : PoolStep P o c o') :
    OneSlot o' := by
  cases hs with
  | same => exact h
  | acquire l hasks hends hfree hnew =>
    intro i j k hi hj
    by_cases hil : i = l
    · by_cases hjl : j = l
      · rw [hil, hjl]
      · rw [hil, Function.update_self] at hi
        rw [Function.update_of_ne hjl, ← hi] at hj
        exact absurd hj (hnew j)
    · rw [Function.update_of_ne hil] at hi
      by_cases hjl : j = l
      · rw [hjl, Function.update_self] at hj
        rw [← hj] at hi
        exact absurd hi (hnew i)
      · rw [Function.update_of_ne hjl] at hj
        exact h i j k hi hj
  | release l hends hown =>
    have hof : ∀ i k, Function.update o l none i = some k → o i = some k := by
      intro i k hi
      by_cases hil : i = l
      · rw [hil, Function.update_self] at hi
        cases hi
      · rwa [Function.update_of_ne hil] at hi
    intro i j k hi hj
    exact h i j k (hof i k hi) (hof j k hj)

theorem IsPool.unique (h : IsPool P owners) (cs : List γ) : OneSlot (owners cs) := by
  induction cs using List.reverseRecOn with
  | nil =>
    intro i j k hi
    rw [h.nil i] at hi
    cases hi
  | append_singleton cs c ih => exact ih.step (h.step cs c)

/-- An owner keeps its slot until it ends. -/
theorem PoolStep.stays {o o' : ι → Option κ} {c : γ} {i : ι} {k : κ} (hs : PoolStep P o c o')
    (hi : o i = some k) (hk : P.client c = k → ¬ P.ends c) : o' i = some k := by
  cases hs with
  | same => exact hi
  | acquire l hasks hends hfree hnew =>
    have hil : i ≠ l := by
      rintro rfl
      rw [hfree] at hi
      cases hi
    rwa [Function.update_of_ne hil]
  | release l hends hown =>
    have hil : i ≠ l := by
      rintro rfl
      rw [hi] at hown
      exact hk (Option.some.inj hown).symm hends
    rwa [Function.update_of_ne hil]

/-- **An owner took its slot and has not ended since.** -/
theorem IsPool.held (h : IsPool P owners) {i : ι} {k : κ} :
    ∀ {cs : List γ}, owners cs i = some k → HeldSince P owners cs i k := by
  intro cs
  induction cs using List.reverseRecOn with
  | nil =>
    intro hi
    rw [h.nil i] at hi
    cases hi
  | append_singleton cs c ih =>
    intro hi
    have hunique := h.unique cs
    -- the last call took the slot, or it was held before and the last call is no end of it
    have hcases : (owners cs i = none ∧ P.client c = k ∧ P.asks c) ∨
        (owners cs i = some k ∧ (P.client c = k → ¬ P.ends c)) := by
      have hstep := h.step cs c
      generalize owners (cs ++ [c]) = o' at hi hstep
      cases hstep with
      | same hends => exact Or.inr ⟨hi, fun hk he => hends he i (hk ▸ hi)⟩
      | acquire l hasks hends hfree hnew =>
        by_cases hil : i = l
        · rw [hil, Function.update_self] at hi
          exact Or.inl ⟨hil ▸ hfree, Option.some.inj hi, hasks⟩
        · rw [Function.update_of_ne hil] at hi
          exact Or.inr ⟨hi, fun _ => hends⟩
      | release l hends hown =>
        by_cases hil : i = l
        · rw [hil, Function.update_self] at hi
          cases hi
        · rw [Function.update_of_ne hil] at hi
          exact Or.inr ⟨hi, fun hk => absurd (hunique i l k hi (hk ▸ hown)) hil⟩
    rcases hcases with ⟨hfree, hk, hasks⟩ | ⟨hbefore, hend⟩
    · exact ⟨cs, c, [], rfl, hk, hasks, hfree, hi, fun d hd => absurd hd (List.not_mem_nil)⟩
    · obtain ⟨pre, c', post, rfl, hk, hasks, hfree, hown, hpost⟩ := ih hbefore
      refine ⟨pre, c', post ++ [c], by simp, hk, hasks, hfree, hown, fun d hd => ?_⟩
      rcases List.mem_append.mp hd with hd | hd
      · exact hpost d hd
      · rw [List.mem_singleton.mp hd]
        exact hend

/-- **The pool is free once every client that has asked has ended.** -/
theorem IsPool.free (h : IsPool P owners) {cs : List γ}
    (hended : ∀ pre c post, cs = pre ++ c :: post → P.asks c →
      ∃ d ∈ post, P.client d = P.client c ∧ P.ends d) (i : ι) : owners cs i = none := by
  refine Option.eq_none_iff_forall_ne_some.mpr fun k hi => ?_
  obtain ⟨pre, c, post, hcs, hk, hasks, -, -, hpost⟩ := h.held hi
  obtain ⟨d, hd, hdk, hends⟩ := hended pre c post hcs hasks
  exact hpost d hd (hdk.trans hk) hends

end MqttFieldBridge.Lts
