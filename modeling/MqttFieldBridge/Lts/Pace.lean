import Mathlib.Data.List.Chain

/-! # Pacing

Something that is looked at now and then, and happens again once that is due. With `times` the times
at which it is looked at, `ticks` are those at which it happens. Between two of them it becomes due,
and the second is the first look after that: if the looks are near to each other, it happens soon
(`isChain_ticks`), and at the last look it is not due any more (`getLast_ticks`). -/

namespace MqttFieldBridge.Lts

variable {T : Type*}

/-- The times at which it happens, if it happened last at `last`. -/
def ticks (due : T → T → Prop) [DecidableRel due] : T → List T → List T
  | _, [] => []
  | last, now :: later =>
    if due last now then now :: ticks due now later else ticks due last later

variable {due near soon : T → T → Prop} [DecidableRel due]

theorem ticks_of_due {last now : T} (h : due last now) (later : List T) :
    ticks due last (now :: later) = now :: ticks due now later := if_pos h

theorem ticks_of_not {last now : T} (h : ¬ due last now) (later : List T) :
    ticks due last (now :: later) = ticks due last later := if_neg h

/-- The look before, at `seen`, was the last time or found nothing due. -/
theorem isChain_ticks_seen (hnext : ∀ s t, near s t → soon s t)
    (hlate : ∀ s u t, ¬ due s u → near u t → soon s t) : ∀ (times : List T) (last seen : T),
      (seen = last ∨ ¬ due last seen) → (seen :: times).IsChain near →
        (last :: ticks due last times).IsChain fun s t => due s t ∧ soon s t
  | [], last, _, _, _ => .singleton last
  | now :: later, last, seen, hseen, hnear => by
    obtain ⟨hnow, hlater⟩ := List.isChain_cons_cons.mp hnear
    by_cases h : due last now
    · have hsoon : soon last now := by
        rcases hseen with rfl | hseen
        · exact hnext seen now hnow
        · exact hlate last seen now hseen hnow
      rw [ticks_of_due h]
      exact .cons_cons ⟨h, hsoon⟩
        (isChain_ticks_seen hnext hlate later now now (Or.inl rfl) hlater)
    · rw [ticks_of_not h]
      exact isChain_ticks_seen hnext hlate later last now (Or.inr h) hlater

/-- At the last look it has just happened, or it is not due. -/
theorem getLast_ticks : ∀ (times : List T) (last : T), ∀ t ∈ times.getLast?,
    (last :: ticks due last times).getLast (List.cons_ne_nil _ _) = t ∨
      ¬ due ((last :: ticks due last times).getLast (List.cons_ne_nil _ _)) t
  | [], _, t, ht => absurd ht (Option.not_mem_none t)
  | [now], last, t, ht => by
    obtain rfl : now = t := Option.some.inj ht
    by_cases h : due last now
    · exact Or.inl (by simp [ticks, h])
    · exact Or.inr (by simp [ticks, h])
  | now :: next :: later, last, t, ht => by
    rw [List.getLast?_cons_cons] at ht
    by_cases h : due last now
    · have ih := getLast_ticks (next :: later) now t ht
      simp only [ticks_of_due h]
      rwa [List.getLast_cons_cons]
    · have ih := getLast_ticks (next :: later) last t ht
      simp only [ticks_of_not h]
      exact ih

end MqttFieldBridge.Lts
