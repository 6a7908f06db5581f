import Mathlib.Algebra.Order.Ring.Int
import Mathlib.Data.List.Infix
import Mathlib.Tactic.SplitIfs

/-! # Partial writes

A stream takes as much as it likes of what is written to it. `writeAll` offers what is left again and
again until nothing is; `results` is what the writes return, a result that is not positive being a
failure, after which the writer gives up. What the stream has taken is a beginning of the text
(`taken_prefix`), and all of it exactly if no write failed (`ok_iff_taken`). -/

namespace MqttFieldBridge.Lts

variable {α : Type*}

/-- Whether a text was written to its end, what the stream took of it, and what the writes that follow
return. -/
structure Written (α : Type*) where
  ok : Bool
  taken : List α
  results : List ℤ

def writeAll : List ℤ → List α → Written α
  | results, [] => ⟨true, [], results⟩
  | [], _ :: _ => ⟨false, [], []⟩
  | r :: results, b :: bs =>
    if r ≤ 0 then ⟨false, [], results⟩
    else
      let rest := writeAll results ((b :: bs).drop r.toNat)
      { rest with taken := (b :: bs).take r.toNat ++ rest.taken }

/-! ### One write -/

@[simp] theorem writeAll_nil (results : List ℤ) :
    writeAll results ([] : List α) = ⟨true, [], results⟩ := by
  unfold writeAll
  rfl

theorem writeAll_of_fails {r : ℤ} (hr : r ≤ 0) (results : List ℤ) {l : List α} (hl : l ≠ []) :
    writeAll (r :: results) l = ⟨false, [], results⟩ := by
  obtain ⟨b, bs, rfl⟩ := List.exists_cons_of_ne_nil hl
  rw [writeAll, if_pos hr]

theorem writeAll_of_takes {r : ℤ} (hr : 0 < r) (results : List ℤ) (l : List α) (hl : l ≠ []) :
    writeAll (r :: results) l =
      { writeAll results (l.drop r.toNat) with
        taken := l.take r.toNat ++ (writeAll results (l.drop r.toNat)).taken } := by
  obtain ⟨b, bs, rfl⟩ := List.exists_cons_of_ne_nil hl
  rw [writeAll, if_neg (by omega)]

/-! ### All writes -/

/-- What the stream takes is a beginning of the text. -/
theorem taken_prefix : ∀ (results : List ℤ) (l : List α), (writeAll results l).taken <+: l
  | results, [] => by simp
  | [], b :: bs => List.nil_prefix
  | r :: results, b :: bs => by
    rcases lt_or_ge 0 r with hr | hr
    · have hrest := taken_prefix results ((b :: bs).drop r.toNat)
      rw [writeAll_of_takes hr results _ (by simp)]
      have happ := ( List.prefix_append_right_inj ((b :: bs).take r.toNat)).mpr hrest
      rwa [List.take_append_drop] at happ
    · rw [writeAll_of_fails hr results (by simp)]
      exact List.nil_prefix

/-- **The stream has all of the text exactly if no write failed.** -/
theorem ok_iff_taken : ∀ (results : List ℤ) (l : List α),
    (writeAll results l).ok = true ↔ (writeAll results l).taken = l
  | results, [] => by simp
  | [], b :: bs => by simp [writeAll]
  | r :: results, b :: bs => by
    rcases lt_or_ge 0 r with hr | hr
    · have hrest := ok_iff_taken results ((b :: bs).drop r.toNat)
      rw [writeAll_of_takes hr results _ (by simp), hrest]
      constructor
      · intro h
        dsimp only
        rw [h, List.take_append_drop]
      · intro h
        have hcat : (b :: bs).take r.toNat ++ (writeAll results ((b :: bs).drop r.toNat)).taken =
            (b :: bs).take r.toNat ++ (b :: bs).drop r.toNat := by
          rw [List.take_append_drop]
          exact h
        exact List.append_cancel_left hcat
    · rw [writeAll_of_fails hr results (by simp)]
      simp

/-- Each write that does not fail takes something, so as many writes as there are bytes suffice. -/
theorem ok_of_positive : ∀ (results : List ℤ) (l : List α), l.length ≤ results.length →
    (∀ r ∈ results, 0 < r) → (writeAll results l).ok = true
  | results, [], _, _ => by simp
  | [], b :: bs, hlen, _ => by simp at hlen
  | r :: results, b :: bs, hlen, hpos => by
    have hr := hpos r List.mem_cons_self
    rw [writeAll_of_takes hr results _ (by simp)]
    refine ok_of_positive results _ ?_ fun x hx => hpos x (List.mem_cons_of_mem r hx)
    simp only [List.length_drop, List.length_cons] at hlen ⊢
    omega

/-- What the later writes return is the end of what all return. -/
theorem results_suffix : ∀ (results : List ℤ) (l : List α),
    (writeAll results l).results <:+ results
  | results, [] => by simp
  | [], b :: bs => List.suffix_refl _
  | r :: results, b :: bs => by
    rcases lt_or_ge 0 r with hr | hr
    · rw [writeAll_of_takes hr results _ (by simp)]
      exact (results_suffix results _).trans (List.suffix_cons r results)
    · rw [writeAll_of_fails hr results (by simp)]
      exact List.suffix_cons r results

end MqttFieldBridge.Lts
