import MqttFieldBridge.Lts.Reach
import Mathlib.Data.List.Basic

/-! # Threads over a shared state

Any number of threads, each running the program of an operation: a list of atomic actions on one
shared state. Threads start and their actions interleave in any order.

* `settled_of_quiescent`: if whatever can break a condition on the shared state is followed, in its
  own program, by an action that restores it, then the condition holds when all threads are done.
* `good_of_quiescent`: if a part of the shared state is good after all writes of any one program,
  then it is good when all threads are done, provided no write falls among the writes of another
  thread. -/

namespace MqttFieldBridge.Lts

variable {σ A O : Type*}

/-- A thread: the actions it has done and those it has still to do. -/
structure Thread (A : Type*) where
  done : List A
  todo : List A

/-- The shared state and the threads. -/
structure Pool (σ A : Type*) where
  shared : σ
  threads : List (Thread A)

/-- A thread starts an operation, or one of the threads does an action while `others` stand by. -/
inductive Label (A O : Type*) where
  | spawn (op : O)
  | exec (a : A) (others : List (Thread A))

/-- The steps of a pool. -/
inductive Pool.Step (act : A → σ → σ) (program : O → List A) (allowed : O → Prop) :
    Pool σ A → Label A O → Pool σ A → Prop
  | spawn {s : σ} {ts : List (Thread A)} {op : O} : allowed op →
      Pool.Step act program allowed ⟨s, ts⟩ (.spawn op) ⟨s, ts ++ [⟨[], program op⟩]⟩
  | exec {s : σ} {t1 t2 : List (Thread A)} {done todo : List A} {a : A} :
      Pool.Step act program allowed ⟨s, t1 ++ ⟨done, a :: todo⟩ :: t2⟩ (.exec a (t1 ++ t2))
        ⟨act a s, t1 ++ ⟨done ++ [a], todo⟩ :: t2⟩

/-- The system of pools that start with no thread. -/
def pools (act : A → σ → σ) (program : O → List A) (allowed : O → Prop) (init : σ → Prop) :
    System (Pool σ A) (Label A O) where
  init p := init p.shared ∧ p.threads = []
  step := Pool.Step act program allowed

/-- No operation is in progress. -/
def Pool.Quiescent (p : Pool σ A) : Prop := ∀ t ∈ p.threads, t.todo = []

/-- The threads are the one that acts and the others. -/
theorem mem_threads {t1 t2 : List (Thread A)} {t u : Thread A} :
    t ∈ t1 ++ u :: t2 ↔ t = u ∨ t ∈ t1 ++ t2 :=
  List.perm_middle.mem_iff.trans List.mem_cons

/-- The actions one after another. -/
def runActs (act : A → σ → σ) (as : List A) (s : σ) : σ := as.foldl (fun s a => act a s) s

section Runs

variable {act : A → σ → σ} {program : O → List A} {allowed : O → Prop} {init : σ → Prop}

/-- One thread may do any number of its actions in a row. -/
theorem reachable_exec {t1 t2 : List (Thread A)} {todo : List A} :
    ∀ (as : List A) {s : σ} {done : List A},
      (pools act program allowed init).Reachable ⟨s, t1 ++ ⟨done, as ++ todo⟩ :: t2⟩ →
        (pools act program allowed init).Reachable
          ⟨runActs act as s, t1 ++ ⟨done ++ as, todo⟩ :: t2⟩
  | [], s, done, h => by simpa [runActs] using h
  | a :: as, s, done, h => by
    have h1 : (pools act program allowed init).Reachable
        ⟨act a s, t1 ++ ⟨done ++ [a], as ++ todo⟩ :: t2⟩ :=
      h.step (a := Label.exec a (t1 ++ t2)) Pool.Step.exec
    have h2 := reachable_exec as h1
    simpa [runActs] using h2

theorem reachable_spawn {s : σ} {ts : List (Thread A)} {op : O} (hop : allowed op)
    (h : (pools act program allowed init).Reachable ⟨s, ts⟩) :
    (pools act program allowed init).Reachable ⟨s, ts ++ [⟨[], program op⟩]⟩ :=
  h.step (.spawn hop)

/-! ### Conditions that are restored -/

/-- Every action that may break a condition is followed by one that restores it. -/
def Settles (breaks restores : A → Prop) (l : List A) : Prop :=
  ∀ d a r, l = d ++ a :: r → breaks a → ∃ f ∈ r, restores f

theorem Settles.tail {breaks restores : A → Prop} {a : A} {l : List A}
    (h : Settles breaks restores (a :: l)) : Settles breaks restores l := fun d b r e =>
  h (a :: d) b r (by rw [e]; rfl)

theorem settles_append {breaks restores : A → Prop} {l1 l2 : List A}
    (h1 : ∀ a ∈ l1, breaks a → ∃ f ∈ l2, restores f) (h2 : Settles breaks restores l2) :
    Settles breaks restores (l1 ++ l2) := by
  induction l1 with
  | nil => exact h2
  | cons b l1 ih =>
    intro d a r e ha
    rcases d with _ | ⟨b', d⟩
    · obtain ⟨rfl, rfl⟩ := List.cons.inj e
      obtain ⟨f, hf, hr⟩ := h1 b (List.mem_cons_self) ha
      exact ⟨f, List.mem_append_right _ hf, hr⟩
    · have e' := (List.cons.inj e).2
      exact ih (fun a ha => h1 a (List.mem_cons_of_mem _ ha)) d a r e' ha

theorem settles_of_forall_not {breaks restores : A → Prop} {l : List A}
    (h : ∀ a ∈ l, ¬ breaks a) : Settles breaks restores l := by
  intro d a r e ha
  exact absurd ha (h a (by rw [e]; simp))

/-- The condition holds, or a thread has still to restore it. -/
def SettledOrPending (holds : σ → Prop) (breaks restores : A → Prop) (p : Pool σ A) : Prop :=
  (∀ t ∈ p.threads, Settles breaks restores t.todo) ∧
    (holds p.shared ∨ ∃ t ∈ p.threads, ∃ f ∈ t.todo, restores f)

theorem settledOrPending_step {holds : σ → Prop} {breaks restores : A → Prop}
    (hprogram : ∀ op, allowed op → Settles breaks restores (program op))
    (hrestore : ∀ a s, restores a → holds (act a s))
    (hframe : ∀ a s, ¬ breaks a → holds s → holds (act a s)) {p p' : Pool σ A} {l : Label A O}
    (hp : SettledOrPending holds breaks restores p) (h : Pool.Step act program allowed p l p') :
    SettledOrPending holds breaks restores p' := by
  obtain ⟨hset, hpend⟩ := hp
  cases h with
  | @spawn s ts op hop =>
    refine ⟨fun t ht => ?_, ?_⟩
    · rcases List.mem_append.mp ht with ht | ht
      · exact hset t ht
      · rw [List.mem_singleton.mp ht]
        exact hprogram op hop
    · rcases hpend with hh | ⟨t, ht, hf⟩
      · exact Or.inl hh
      · exact Or.inr ⟨t, List.mem_append_left _ ht, hf⟩
  | @exec s t1 t2 done todo a =>
    have hold : Settles breaks restores (a :: todo) := hset _ (mem_threads.mpr (Or.inl rfl))
    refine ⟨fun t ht => ?_, ?_⟩
    · rcases mem_threads.mp ht with rfl | ht
      · exact hold.tail
      · exact hset t (mem_threads.mpr (Or.inr ht))
    · have hself : ∀ f ∈ todo, restores f →
          ∃ t ∈ t1 ++ ⟨done ++ [a], todo⟩ :: t2, ∃ f ∈ t.todo, restores f := fun f hf hfr =>
        ⟨_, mem_threads.mpr (Or.inl rfl), f, hf, hfr⟩
      by_cases hr : restores a
      · exact Or.inl (hrestore a s hr)
      by_cases hb : breaks a
      · obtain ⟨f, hf, hfr⟩ := hold [] a todo rfl hb
        exact Or.inr (hself f hf hfr)
      · rcases hpend with hh | ⟨t, ht, f, hf, hfr⟩
        · exact Or.inl (hframe a s hb hh)
        · rcases mem_threads.mp ht with rfl | ht
          · rcases List.mem_cons.mp hf with rfl | hf
            · exact absurd hfr hr
            · exact Or.inr (hself f hf hfr)
          · exact Or.inr ⟨t, mem_threads.mpr (Or.inr ht), f, hf, hfr⟩

/-- **When all threads are done, what each program restores holds.** -/
theorem settled_of_quiescent {holds : σ → Prop} {breaks restores : A → Prop}
    (hinit : ∀ s, init s → holds s)
    (hprogram : ∀ op, allowed op → Settles breaks restores (program op))
    (hrestore : ∀ a s, restores a → holds (act a s))
    (hframe : ∀ a s, ¬ breaks a → holds s → holds (act a s)) {p : Pool σ A}
    (hp : (pools act program allowed init).Reachable p) (hq : p.Quiescent) : holds p.shared := by
  have hinv : SettledOrPending holds breaks restores p := by
    refine hp.invariant (I := SettledOrPending holds breaks restores) (fun s h => ?_)
      fun s a s' hs h => settledOrPending_step hprogram hrestore hframe hs h
    obtain ⟨h1, h2⟩ := h
    refine ⟨fun t ht => ?_, Or.inl (hinit _ h1)⟩
    rw [h2] at ht
    cases ht
  rcases hinv.2 with hh | ⟨t, ht, f, hf, -⟩
  · exact hh
  · rw [hq t ht] at hf
    cases hf

/-! ### Writes that are not interrupted -/

variable {V : Type*} (effect : A → Option (V → V))

/-- The writes among the actions. -/
def writes (l : List A) : List (V → V) := l.filterMap effect

/-- The writes one after another. -/
def applyWrites (l : List (V → V)) (v : V) : V := l.foldl (fun v f => f v) v

/-- The thread has done some of its writes, but not all. -/
def Midway (t : Thread A) : Prop := writes effect t.done ≠ [] ∧ writes effect t.todo ≠ []

/-- A write is done only when no other thread is midway. -/
def Undisturbed : Pool σ A → Label A O → Prop
  | _, .spawn _ => True
  | _, .exec a others => effect a ≠ none → ∀ t ∈ others, ¬ Midway effect t

variable {effect} {part : σ → V} {good : V → Prop}

/-- All writes of a program together lead to a good value. -/
def WritesGood (effect : A → Option (V → V)) (good : V → Prop) (l : List A) : Prop :=
  writes effect l ≠ [] → ∀ v, good (applyWrites (writes effect l) v)

/-- The part is good unless a thread is midway, and then it is what this thread has written. -/
structure GoodUnlessMidway (effect : A → Option (V → V)) (part : σ → V) (good : V → Prop)
    (p : Pool σ A) : Prop where
  programs : ∀ t ∈ p.threads, WritesGood effect good (t.done ++ t.todo)
  good : (∀ t ∈ p.threads, ¬ Midway effect t) → good (part p.shared)
  midway : ∀ t ∈ p.threads, Midway effect t →
    ∃ v, part p.shared = applyWrites (writes effect t.done) v

theorem goodUnlessMidway_spawn {s : σ} {ts : List (Thread A)} {l : List A}
    (hl : WritesGood effect good l) (h : GoodUnlessMidway effect part good ⟨s, ts⟩) :
    GoodUnlessMidway effect part good ⟨s, ts ++ [⟨[], l⟩]⟩ := by
  obtain ⟨hprog, hgood, hmid⟩ := h
  refine ⟨fun t ht => ?_, fun hn => hgood fun t ht => hn t (List.mem_append_left _ ht),
    fun t ht hm => ?_⟩
  · rcases List.mem_append.mp ht with ht | ht
    · exact hprog t ht
    · rw [List.mem_singleton.mp ht]
      exact hl
  · rcases List.mem_append.mp ht with ht | ht
    · exact hmid t ht hm
    · rw [List.mem_singleton.mp ht] at hm
      exact absurd rfl hm.1

section Exec

variable {s s' : σ} {t1 t2 : List (Thread A)} {done todo : List A} {a : A}

theorem programs_exec (h : ∀ t ∈ t1 ++ ⟨done, a :: todo⟩ :: t2, WritesGood effect good
      (t.done ++ t.todo)) :
    ∀ t ∈ t1 ++ ⟨done ++ [a], todo⟩ :: t2, WritesGood effect good (t.done ++ t.todo) := by
  intro t ht
  rcases mem_threads.mp ht with rfl | ht
  · have hwhole : done ++ [a] ++ todo = done ++ a :: todo := by simp
    rw [hwhole]
    exact h _ (mem_threads.mpr (Or.inl rfl))
  · exact h t (mem_threads.mpr (Or.inr ht))

/-- An action that writes nothing leaves a thread midway exactly if it was. -/
theorem goodUnlessMidway_silent (he : effect a = none) (hpart : part s' = part s)
    (h : GoodUnlessMidway effect part good ⟨s, t1 ++ ⟨done, a :: todo⟩ :: t2⟩) :
    GoodUnlessMidway effect part good ⟨s', t1 ++ ⟨done ++ [a], todo⟩ :: t2⟩ := by
  obtain ⟨hprog, hgood, hmid⟩ := h
  dsimp only at hprog hgood hmid
  have hdone : writes effect (done ++ [a]) = writes effect done := by simp [writes, he]
  have htodo : writes effect (a :: todo) = writes effect todo := by simp [writes, he]
  have hiff : Midway effect ⟨done ++ [a], todo⟩ ↔ Midway effect ⟨done, a :: todo⟩ := by
    simp only [Midway, hdone, htodo]
  refine ⟨programs_exec hprog, fun hn => ?_, fun t ht hm => ?_⟩
  · dsimp only
    rw [hpart]
    refine hgood fun t ht => ?_
    rcases mem_threads.mp ht with rfl | ht
    · exact fun hm => hn _ (mem_threads.mpr (Or.inl rfl)) (hiff.mpr hm)
    · exact hn t (mem_threads.mpr (Or.inr ht))
  · dsimp only
    rw [hpart]
    rcases mem_threads.mp ht with rfl | ht
    · rw [hdone]
      exact hmid _ (mem_threads.mpr (Or.inl rfl)) (hiff.mp hm)
    · exact hmid t (mem_threads.mpr (Or.inr ht)) hm

/-- After a write that no other thread is midway of, the part is what this thread has written. -/
theorem goodUnlessMidway_write {f : V → V} (he : effect a = some f)
    (hpart : part s' = f (part s)) (hothers : ∀ t ∈ t1 ++ t2, ¬ Midway effect t)
    (h : GoodUnlessMidway effect part good ⟨s, t1 ++ ⟨done, a :: todo⟩ :: t2⟩) :
    GoodUnlessMidway effect part good ⟨s', t1 ++ ⟨done ++ [a], todo⟩ :: t2⟩ := by
  obtain ⟨hprog, -, hmid⟩ := h
  dsimp only at hprog hmid
  have hdone : writes effect (done ++ [a]) = writes effect done ++ [f] := by simp [writes, he]
  have htodo : writes effect (a :: todo) = f :: writes effect todo := by simp [writes, he]
  obtain ⟨v, hv⟩ : ∃ v, part s' = applyWrites (writes effect (done ++ [a])) v := by
    by_cases h0 : writes effect done = []
    · exact ⟨part s, by rw [hpart, hdone, h0]; rfl⟩
    · obtain ⟨v, hv⟩ := hmid _ (mem_threads.mpr (Or.inl rfl)) ⟨h0, by rw [htodo]; simp⟩
      exact ⟨v, by rw [hpart, hv, hdone]; simp [applyWrites]⟩
  refine ⟨programs_exec hprog, fun hn => ?_, fun t ht hm => ?_⟩
  · -- no thread is midway, so this was the last write of its program
    have hlast : writes effect todo = [] := by
      by_contra hne
      exact hn _ (mem_threads.mpr (Or.inl rfl)) ⟨by rw [hdone]; simp, hne⟩
    have hall : writes effect (done ++ [a] ++ todo) = writes effect (done ++ [a]) := by
      have happend : writes effect (done ++ [a] ++ todo) =
          writes effect (done ++ [a]) ++ writes effect todo := List.filterMap_append
      rw [happend, hlast, List.append_nil]
    have hw := programs_exec hprog _ (mem_threads.mpr (Or.inl rfl))
    unfold WritesGood at hw
    rw [hall] at hw
    dsimp only
    rw [hv]
    exact hw (by rw [hdone]; simp) v
  · rcases mem_threads.mp ht with rfl | ht
    · exact ⟨v, hv⟩
    · exact absurd hm (hothers t ht)

end Exec

theorem goodUnlessMidway_step
    (hprogram : ∀ op, allowed op → WritesGood effect good (program op))
    (heffect : ∀ a s, part (act a s) = ((effect a).getD id) (part s))
    {p p' : Pool σ A} {l : Label A O} (hp : GoodUnlessMidway effect part good p)
    (hl : Undisturbed effect p l) (h : Pool.Step act program allowed p l p') :
    GoodUnlessMidway effect part good p' := by
  cases h with
  | @spawn s ts op hop => exact goodUnlessMidway_spawn (hprogram op hop) hp
  | @exec s t1 t2 done todo a =>
    have hpart := heffect a s
    rcases he : effect a with _ | f
    · rw [he] at hpart
      exact goodUnlessMidway_silent he hpart hp
    · rw [he] at hpart
      exact goodUnlessMidway_write he hpart (hl (by rw [he]; simp)) hp

/-- **When all threads are done, what uninterrupted writes leave is good.** -/
theorem good_of_quiescent (hinit : ∀ s, init s → good (part s))
    (hprogram : ∀ op, allowed op → WritesGood effect good (program op))
    (heffect : ∀ a s, part (act a s) = ((effect a).getD id) (part s)) {p : Pool σ A}
    (hp : ((pools act program allowed init).restrict (Undisturbed effect)).Reachable p)
    (hq : p.Quiescent) : good (part p.shared) := by
  have hinv : GoodUnlessMidway effect part good p := by
    refine hp.invariant (I := GoodUnlessMidway effect part good) (fun s h => ?_)
      (fun s a s' hs h => ?_)
    case refine_2 =>
      obtain ⟨hl, h⟩ := h
      exact goodUnlessMidway_step hprogram heffect hs hl h
    obtain ⟨h1, h2⟩ := h
    refine ⟨fun t ht => ?_, fun _ => hinit _ h1, fun t ht => ?_⟩
    · rw [h2] at ht
      cases ht
    · rw [h2] at ht
      cases ht
  refine hinv.good fun t ht hm => hm.2 ?_
  rw [hq t ht]
  rfl

end Runs

end MqttFieldBridge.Lts
