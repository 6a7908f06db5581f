import MqttFieldBridge.Lts.Reach
import Mathlib.Data.List.Nodup
import Mathlib.Logic.Function.Basic

/-! # Updates in two steps

An `Update` reads a copy of what it needs of a shared state and later writes what it makes of the
copy. Parties `ι` run one update each, in any interleaving (`updates`).

* `serialized_of_separate`: if no party reads while another holds a copy, the updates that are done
  ran one after the other.
* `last_write`: of two updates, the one that writes last may write what it made of the state before
  both. -/

namespace MqttFieldBridge.Lts

/-- What an update reads, and what it returns and writes. -/
structure Update (σ ρ κ : Type*) where
  read : σ → ρ
  write : ρ → σ → κ × σ

/-- How far an update is. -/
inductive Phase (ρ κ : Type*) where
  | idle
  | holding (copy : ρ)
  | done (result : κ)

/-- The shared state, and the phase of each party. -/
structure Updating (ι σ ρ κ : Type*) where
  shared : σ
  phase : ι → Phase ρ κ

namespace Update

variable {ι σ ρ κ : Type*}

/-- Both steps without a pause. -/
def run (u : Update σ ρ κ) (s : σ) : κ × σ := u.write (u.read s) s

/-- The state after the updates of some parties, one after the other. -/
def runAll (u : ι → Update σ ρ κ) (order : List ι) (s : σ) : σ :=
  order.foldl (fun s i => ((u i).run s).2) s

theorem runAll_concat {u : ι → Update σ ρ κ} {order : List ι} {i : ι} {s : σ} :
    runAll u (order ++ [i]) s = ((u i).run (runAll u order s)).2 := by
  simp only [runAll, List.foldl_append, List.foldl_cons, List.foldl_nil]

variable [DecidableEq ι] {u : ι → Update σ ρ κ} {s : σ}

/-- A step of a party. -/
inductive Step (u : ι → Update σ ρ κ) : Updating ι σ ρ κ → ι → Updating ι σ ρ κ → Prop
  | read {p : Updating ι σ ρ κ} {i : ι} (h : p.phase i = .idle) :
    Step u p i ⟨p.shared, Function.update p.phase i (.holding ((u i).read p.shared))⟩
  | write {p : Updating ι σ ρ κ} {i : ι} {copy : ρ} (h : p.phase i = .holding copy) :
    Step u p i ⟨((u i).write copy p.shared).2,
      Function.update p.phase i (.done ((u i).write copy p.shared).1)⟩

/-- The parties' updates from the state `s`. -/
def updates (u : ι → Update σ ρ κ) (s : σ) : System (Updating ι σ ρ κ) ι where
  init p := p = ⟨s, fun _ => .idle⟩
  step := Step u

/-! ### Updates that do not overlap -/

/-- A party reads only while no party holds a copy. -/
def Separate (p : Updating ι σ ρ κ) (i : ι) : Prop :=
  p.phase i = .idle → ∀ j copy, p.phase j ≠ .holding copy

/-- The parties that are done ran in this order, and a copy that is held is up to date. -/
structure Serialized (u : ι → Update σ ρ κ) (s : σ) (p : Updating ι σ ρ κ) (order : List ι) :
    Prop where
  nodup : order.Nodup
  mem : ∀ i, i ∈ order ↔ ∃ r, p.phase i = .done r
  shared : p.shared = runAll u order s
  holding : ∀ i copy, p.phase i = .holding copy → copy = (u i).read p.shared
  unique : ∀ i j copy copy', p.phase i = .holding copy → p.phase j = .holding copy' → i = j

theorem Serialized.read {p : Updating ι σ ρ κ} {i : ι} {order : List ι}
    (h : Serialized u s p order) (hi : p.phase i = .idle)
    (hfree : ∀ j copy, p.phase j ≠ .holding copy) : Serialized u s
      ⟨p.shared, Function.update p.phase i (.holding ((u i).read p.shared))⟩ order := by
  have hother : ∀ j copy, Function.update p.phase i (.holding ((u i).read p.shared)) j =
      .holding copy → j = i := fun j copy hj => by
    by_contra hne
    rw [Function.update_of_ne hne] at hj
    exact hfree j copy hj
  refine ⟨h.nodup, fun j => ?_, h.shared, fun j copy hj => ?_, fun j j' _ _ hj hj' => ?_⟩
  · dsimp only
    rw [h.mem]
    by_cases hji : j = i
    · rw [hji, hi]
      simp
    · rw [Function.update_of_ne hji]
  · obtain rfl := hother j copy hj
    dsimp only at hj
    rw [Function.update_self] at hj
    exact (Phase.holding.inj hj).symm
  · exact (hother j _ hj).trans (hother j' _ hj').symm

theorem Serialized.write {p : Updating ι σ ρ κ} {i : ι} {order : List ι} {copy : ρ}
    (h : Serialized u s p order) (hi : p.phase i = .holding copy) : Serialized u s
      ⟨((u i).write copy p.shared).2, Function.update p.phase i (.done ((u i).write copy p.shared).1)⟩
      (order ++ [i]) := by
  have hcopy : copy = (u i).read p.shared := h.holding i copy hi
  have hnone : ∀ j copy', Function.update p.phase i
      (.done ((u i).write copy p.shared).1) j ≠ .holding copy' := fun j copy' hj => by
    by_cases hji : j = i
    · rw [hji, Function.update_self] at hj
      cases hj
    · rw [Function.update_of_ne hji] at hj
      exact hji (h.unique j i copy' copy hj hi)
  have hmem : i ∉ order := fun hm => by
    obtain ⟨r, hr⟩ := (h.mem i).mp hm
    rw [hi] at hr
    cases hr
  refine ⟨?_, fun j => ?_, ?_, fun j copy' hj => absurd hj (hnone j copy'),
    fun j _ copy' _ hj _ => absurd hj (hnone j copy')⟩
  · exact List.nodup_append.mpr ⟨h.nodup, List.nodup_singleton i, fun a ha b hb e =>
      hmem (List.mem_singleton.mp hb ▸ e ▸ ha)⟩
  · dsimp only
    rw [List.mem_append, List.mem_singleton, h.mem]
    by_cases hji : j = i
    · rw [hji, Function.update_self]
      simp
    · rw [Function.update_of_ne hji]
      simp [hji]
  · rw [runAll_concat, ← h.shared, hcopy]
    rfl

theorem Serialized.step {p p' : Updating ι σ ρ κ} {i : ι} {order : List ι}
    (h : Serialized u s p order) (hsep : Separate p i) (hstep : Step u p i p') :
    ∃ order', Serialized u s p' order' := by
  cases hstep with
  | read hi => exact ⟨order, h.read hi (hsep hi)⟩
  | write hi => exact ⟨order ++ [i], h.write hi⟩

theorem serialized_of_separate {p : Updating ι σ ρ κ}
    (hp : ((updates u s).restrict Separate).Reachable p) : ∃ order, Serialized u s p order := by
  refine hp.invariant (I := fun p => ∃ order, Serialized u s p order) (fun p h => ?_)
    fun p i p' h hstep => ?_
  · subst h
    exact ⟨[], List.nodup_nil, fun i => by simp, rfl, fun i copy h => (by cases h),
      fun i j copy copy' h => (by cases h)⟩
  · obtain ⟨order, horder⟩ := h
    exact horder.step hstep.1 hstep.2

/-! ### Two updates that may overlap -/

/-- An order without repetition that holds both parties. -/
theorem order_of_both {order : List Bool} (hnodup : order.Nodup) (hmem : ∀ i, i ∈ order) :
    ∃ i, order = [i, !i] := by
  have hne : ∀ i j : Bool, i ≠ j → j = !i := by decide
  rcases order with _ | ⟨i, _ | ⟨j, rest⟩⟩
  · exact absurd (hmem true) List.not_mem_nil
  · have := List.mem_singleton.mp (hmem !i)
    exact absurd this (by simp)
  · simp only [List.nodup_cons, List.mem_cons, not_or] at hnodup
    obtain ⟨⟨hij, hi⟩, hj, -⟩ := hnodup
    obtain rfl := hne i j hij
    rcases rest with _ | ⟨l, rest⟩
    · exact ⟨i, rfl⟩
    · simp only [List.mem_cons, not_or] at hi hj
      exact absurd (hne i l hi.1) (Ne.symm hj.1)

/-- The states that two updates go through. -/
inductive Course (u : Bool → Update σ ρ κ) (s : σ) : Updating Bool σ ρ κ → Prop
  | started {phase : Bool → Phase ρ κ}
    (h : ∀ i, phase i = .idle ∨ phase i = .holding ((u i).read s)) : Course u s ⟨s, phase⟩
  | one {phase : Bool → Phase ρ κ} (i : Bool) (hi : ∃ r, phase i = .done r)
    (h : phase (!i) = .idle ∨ phase (!i) = .holding ((u !i).read s) ∨
      phase (!i) = .holding ((u !i).read ((u i).run s).2)) : Course u s ⟨((u i).run s).2, phase⟩
  | both {phase : Bool → Phase ρ κ} {copy : ρ} (i : Bool) (hi : ∃ r, phase i = .done r)
    (h : copy = (u !i).read s ∨ copy = (u !i).read ((u i).run s).2)
    (hdone : phase (!i) = .done ((u !i).write copy ((u i).run s).2).1) :
    Course u s ⟨((u !i).write copy ((u i).run s).2).2, phase⟩

/-- A party that is done does nothing more. -/
theorem not_step_of_done {p p' : Updating ι σ ρ κ} {i : ι} {r : κ} (h : p.phase i = .done r) :
    ¬ Step u p i p' := by
  intro hstep
  cases hstep with
  | read hi => exact absurd (h.symm.trans hi) (by simp)
  | write hi => exact absurd (h.symm.trans hi) (by simp)

section Two

variable {u : Bool → Update σ ρ κ} {p p' : Updating Bool σ ρ κ} {phase : Bool → Phase ρ κ} {a : Bool}

theorem course_of_started (h : ∀ i, phase i = .idle ∨ phase i = .holding ((u i).read s))
    (hstep : Step u ⟨s, phase⟩ a p') : Course u s p' := by
  cases hstep with
  | read ha =>
    refine .started fun i => ?_
    by_cases hia : i = a
    · rw [hia, Function.update_self]
      exact Or.inr rfl
    · rw [Function.update_of_ne hia]
      exact h i
  | @write copy ha =>
    have hcopy : copy = (u a).read s := by
      rcases h a with h | h
      · exact absurd (h.symm.trans ha) (by simp)
      · exact (Phase.holding.inj (h.symm.trans ha)).symm
    subst hcopy
    refine .one a ⟨_, Function.update_self _ _ _⟩ ?_
    rw [Function.update_of_ne (by simp)]
    exact (h !a).imp_right Or.inl

/-- One update is done, and the other does a step. -/
theorem course_of_one {i : Bool} {r : κ} (hi : phase i = .done r)
    (h : phase (!i) = .idle ∨ phase (!i) = .holding ((u !i).read s) ∨
      phase (!i) = .holding ((u !i).read ((u i).run s).2))
    (hstep : Step u ⟨((u i).run s).2, phase⟩ (!i) p') : Course u s p' := by
  have hkeep : ∀ x, Function.update phase (!i) x i = .done r := fun x => by
    rw [Function.update_of_ne (by simp)]
    exact hi
  cases hstep with
  | read ha =>
    refine .one i ⟨r, hkeep _⟩ ?_
    rw [Function.update_self]
    exact Or.inr (Or.inr rfl)
  | @write copy ha =>
    refine .both i ⟨r, hkeep _⟩ ?_ (Function.update_self _ _ _)
    rcases h with h | h | h
    · exact absurd (h.symm.trans ha) (by simp)
    · exact Or.inl (Phase.holding.inj (h.symm.trans ha)).symm
    · exact Or.inr (Phase.holding.inj (h.symm.trans ha)).symm

theorem Course.step (h : Course u s p) (hstep : Step u p a p') : Course u s p' := by
  have hother : ∀ i j : Bool, j ≠ i → j = !i := by decide
  cases h with
  | started h => exact course_of_started h hstep
  | one i hi h =>
    obtain ⟨r, hi⟩ := hi
    have hai : a ≠ i := fun e => not_step_of_done hi (e ▸ hstep)
    obtain rfl := hother i a hai
    exact course_of_one hi h hstep
  | @both phase _ i hi h hdone =>
    obtain ⟨r, hi⟩ := hi
    by_cases hai : a = i
    · subst hai
      exact absurd hstep (not_step_of_done hi)
    · obtain rfl := hother i a hai
      exact absurd hstep (not_step_of_done hdone)

end Two

theorem course_of_reachable {u : Bool → Update σ ρ κ} {p : Updating Bool σ ρ κ}
    (hp : (updates u s).Reachable p) : Course u s p :=
  hp.invariant (fun p h => by subst h; exact .started fun i => Or.inl rfl)
    fun _ _ _ h hstep => h.step hstep

/-- A party that is done is not the one that holds a copy. -/
theorem other_of_done {phase : Bool → Phase ρ κ} {i j : Bool} {copy : ρ}
    (hi : phase i = .holding copy) (hj : ∃ r, phase j = .done r) : j = !i := by
  obtain ⟨r, hj⟩ := hj
  have hij : i ≠ j := fun e => absurd (hi.symm.trans (e ▸ hj)) (by simp)
  exact Bool.eq_not.mpr hij.symm

/-- **The write that completes two updates.** Its copy is of the state before both, or of what the
other has left. -/
theorem last_write {u : Bool → Update σ ρ κ} {p p' : Updating Bool σ ρ κ} {i : Bool}
    (hp : (updates u s).Reachable p) (hstep : Step u p i p') (hdone : ∀ j, ∃ r, p'.phase j = .done r) :
    ∃ copy, (copy = (u i).read s ∨ copy = (u i).read ((u !i).run s).2) ∧
      p'.phase i = .done ((u i).write copy ((u !i).run s).2).1 ∧
      p'.shared = ((u i).write copy ((u !i).run s).2).2 := by
  cases hstep with
  | read hi =>
    obtain ⟨r, hr⟩ := hdone i
    exact absurd ((Function.update_self i _ p.phase).symm.trans hr) (by simp)
  | @write copy hi =>
    -- the write of `i` has left the other as it was
    obtain ⟨r, hr⟩ : ∃ r, p.phase (!i) = .done r := by
      obtain ⟨r, hr⟩ := hdone !i
      exact ⟨r, (Function.update_of_ne (by simp) _ p.phase).symm.trans hr⟩
    cases course_of_reachable hp with
    | started h =>
      rcases h !i with h | h
      · exact absurd (h.symm.trans hr) (by simp)
      · exact absurd (h.symm.trans hr) (by simp)
    | @one phase j hj h =>
      obtain rfl := other_of_done hi hj
      rw [Bool.not_not] at h
      refine ⟨copy, ?_, Function.update_self i _ phase, rfl⟩
      rcases h with h | h | h
      · exact absurd (h.symm.trans hi) (by simp)
      · exact Or.inl (Phase.holding.inj (hi.symm.trans h))
      · exact Or.inr (Phase.holding.inj (hi.symm.trans h))
    | @both phase copy' j hj h hboth =>
      obtain rfl := other_of_done hi hj
      rw [Bool.not_not] at hboth
      exact absurd (hi.symm.trans hboth) (by simp)

/-- The update of `i`, and then the other. -/
theorem reachable_separate {u : Bool → Update σ ρ κ} (i : Bool) :
    ∃ p, ((updates u s).restrict Separate).Reachable p ∧ p.phase i = .done ((u i).run s).1 ∧
      p.phase (!i) = .done ((u !i).run ((u i).run s).2).1 ∧
      p.shared = ((u !i).run ((u i).run s).2).2 := by
  have hne : (!i) ≠ i := by simp
  have hcases : ∀ j : Bool, j = i ∨ j = !i := by
    cases i
    · decide
    · decide
  have h0 : ((updates u s).restrict Separate).Reachable ⟨s, fun _ => .idle⟩ := .init rfl
  have h1 := h0.step ⟨fun _ j copy h => (by cases h), @Step.read _ _ _ _ _ u _ i rfl⟩
  have h2 := h1.step ⟨fun h => absurd ((Function.update_self i _ _).symm.trans h) (by simp),
    @Step.write _ _ _ _ _ u _ i ((u i).read s) (Function.update_self i _ _)⟩
  have h3 := h2.step ⟨fun _ j copy h => by
      rcases hcases j with rfl | rfl
      · exact absurd ((Function.update_self _ _ _).symm.trans h) (by simp)
      · simp [hne] at h,
    @Step.read _ _ _ _ _ u _ (!i) (by simp [hne])⟩
  have h4 := h3.step ⟨fun h => absurd ((Function.update_self (!i) _ _).symm.trans h) (by simp),
    @Step.write _ _ _ _ _ u _ (!i) _ (Function.update_self (!i) _ _)⟩
  refine ⟨_, h4, ?_, Function.update_self _ _ _, rfl⟩
  dsimp only
  rw [Function.update_of_ne hne.symm, Function.update_of_ne hne.symm, Function.update_self]
  rfl

/-- Both updates read, `i` writes, and then the other does. -/
theorem reachable_overlap {u : Bool → Update σ ρ κ} (i : Bool) :
    ∃ p p', (updates u s).Reachable p ∧ Step u p (!i) p' ∧ p'.phase i = .done ((u i).run s).1 ∧
      p'.phase (!i) = .done ((u !i).write ((u !i).read s) ((u i).run s).2).1 ∧
      p'.shared = ((u !i).write ((u !i).read s) ((u i).run s).2).2 := by
  have hne : (!i) ≠ i := by simp
  have h0 : (updates u s).Reachable ⟨s, fun _ => .idle⟩ := .init rfl
  have h1 := h0.step (@Step.read _ _ _ _ _ u _ i rfl)
  have h2 := h1.step (@Step.read _ _ _ _ _ u _ (!i) (Function.update_of_ne hne _ _))
  have h3 := h2.step (@Step.write _ _ _ _ _ u _ i ((u i).read s) (by simp [hne.symm]))
  refine ⟨_, _, h3, @Step.write _ _ _ _ _ u _ (!i) ((u !i).read s) (by simp [hne]), ?_,
    Function.update_self _ _ _, rfl⟩
  dsimp only
  rw [Function.update_of_ne hne.symm, Function.update_self]
  rfl

end Update

end MqttFieldBridge.Lts
