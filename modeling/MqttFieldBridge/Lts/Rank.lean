import Mathlib.Data.List.Count

/-! # Runs and ranks

Runs of a deterministic system whose actions may have to wait. If the actions of one kind lower a rank
and no other raises it, then as many of them as the rank says end every run at rank 0, whatever happens
between them (`rank_runAll`). -/

namespace MqttFieldBridge.Lts

variable {σ α : Type*}

/-- The state after these actions, if none of them has to wait. -/
def runAll (exec : σ → α → Option σ) : List α → σ → Option σ
  | [], s => some s
  | a :: as, s => (exec s a).bind (runAll exec as)

/-- Every action of the run meets `C` in the state in which it is taken. -/
def AllSteps (exec : σ → α → Option σ) (C : σ → α → Prop) : List α → σ → Prop
  | [], _ => True
  | a :: as, s => C s a ∧ ∀ s', exec s a = some s' → AllSteps exec C as s'

variable {exec : σ → α → Option σ} {C : σ → α → Prop} {I : σ → Prop} {rank : σ → ℕ}
  {counts : α → Bool}

/-- **The rank falls with every action that counts.** -/
theorem rank_runAll (hkept : ∀ s a s', I s → C s a → exec s a = some s' → I s')
    (hrank : ∀ s a s', I s → C s a → exec s a = some s' →
      rank s' ≤ rank s - if counts a then 1 else 0) : ∀ (as : List α) (s s' : σ), I s →
        AllSteps exec C as s → runAll exec as s = some s' → rank s' ≤ rank s - as.countP counts
  | [], s, s', _, _, hrun => by
    obtain rfl := Option.some.inj hrun
    simp
  | a :: as, s, s', hI, ⟨hC, hlater⟩, hrun => by
    obtain ⟨s₁, hstep, hrest⟩ := Option.bind_eq_some_iff.mp hrun
    have hfirst := hrank s a s₁ hI hC hstep
    have hnext := rank_runAll hkept hrank as s₁ s' (hkept s a s₁ hI hC hstep) (hlater s₁ hstep) hrest
    rw [List.countP_cons]
    split_ifs at hfirst ⊢
    · omega
    · omega

end MqttFieldBridge.Lts
