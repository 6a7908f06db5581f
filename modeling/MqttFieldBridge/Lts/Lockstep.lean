import Mathlib.Logic.Basic

/-! # Machines in lockstep

A machine answers each input. Two machines that give the same answer in related states, and go from
related states to related ones, give the same answers to every sequence of inputs. -/

namespace MqttFieldBridge.Lts

/-- A machine with inputs `α` and answers `ω`. -/
structure Machine (σ α ω : Type*) where
  step : σ → α → ω × σ

variable {σ τ α ω : Type*}

/-- The answers to a sequence of inputs, and the state after it. -/
def Machine.run (M : Machine σ α ω) : List α → σ → List ω × σ
  | [], s => ([], s)
  | a :: as, s =>
    let r := M.step s a
    (r.1 :: (M.run as r.2).1, (M.run as r.2).2)

/-- `N` follows `M` on the inputs `ok`. -/
structure Lockstep (M : Machine σ α ω) (N : Machine τ α ω) (ok : α → Prop) (R : σ → τ → Prop) :
    Prop where
  answer : ∀ s t a, ok a → R s t → (N.step t a).1 = (M.step s a).1
  next : ∀ s t a, ok a → R s t → R (M.step s a).2 (N.step t a).2

/-- **Machines in lockstep give the same answers.** -/
theorem Lockstep.run {M : Machine σ α ω} {N : Machine τ α ω} {ok : α → Prop} {R : σ → τ → Prop}
    (h : Lockstep M N ok R) : ∀ (as : List α) (s : σ) (t : τ), (∀ a ∈ as, ok a) → R s t →
      (N.run as t).1 = (M.run as s).1 ∧ R (M.run as s).2 (N.run as t).2
  | [], _, _, _, hR => ⟨rfl, hR⟩
  | a :: as, s, t, hok, hR => by
    have ha : ok a := hok a List.mem_cons_self
    have hrest : ∀ b ∈ as, ok b := fun b hb => hok b (List.mem_cons_of_mem a hb)
    obtain ⟨hanswers, hstates⟩ := h.run as _ _ hrest (h.next s t a ha hR)
    refine ⟨?_, hstates⟩
    unfold Machine.run
    dsimp only
    rw [h.answer s t a ha hR, hanswers]

end MqttFieldBridge.Lts
