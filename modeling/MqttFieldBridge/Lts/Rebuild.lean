import MqttFieldBridge.Lts.Reach
import Mathlib.Data.List.Basic
import Mathlib.Logic.Function.Basic

/-! # A table that threads rebuild from cells

A table is derived from cells and a switch. A rebuild empties it and looks at the switch; if that is
on, it reads one cell after the other and offers the table what each asks for. The table may refuse.
Threads `κ` rebuild it, some after writing a cell of their own, and others change cells and switch
without a rebuild, in any interleaving and without a lock (`rebuilds`). A thread whose write fails has
changed its cell as well, and does not go on.

* `offered_of_quiescent`: when all threads are done, everything the cells ask for has been offered to
  the table since it was emptied last, unless a change without a rebuild came after that.
* `mem_table_iff_of_quiescent`: if moreover no cell is written while another thread holds what it has
  read of a cell and not yet offered, and the switch is left alone during a rebuild, then the table
  holds exactly what the cells ask for. -/

namespace MqttFieldBridge.Lts.Rebuild

/-- Where a thread stands. Before the first cell and after the last one it is `looping`. -/
inductive Phase (ι α β : Type*) where
  | writing (i : ι) (a : α)
  | clearing
  | checking
  | looping (rest : List ι)
  | adding (held : Option β) (rest : List ι)

/-- The switch, the cells, the table, what it has been offered since it was emptied, whether there has
been a change without a rebuild since then, and the threads. -/
structure State (κ ι α β : Type*) where
  on : Bool
  cells : ι → α
  table : List β
  offered : List β
  unapplied : Bool
  phase : κ → Phase ι α β

/-- A thread starts on a rebuild, after a write if there is one, or goes on; or cells and switch are
changed without a rebuild. -/
inductive Label (κ ι α : Type*) where
  | start (k : κ) (job : Option (ι × α))
  | go (k : κ)
  | change (on : Bool) (cells : ι → α)

variable {κ ι α β : Type*}

/-- The first phase of a job. -/
def firstPhase : Option (ι × α) → Phase ι α β
  | none => .clearing
  | some (i, a) => .writing i a

/-- The table after it has been offered an entry. -/
def offer (takes : List β → β → Bool) (table : List β) (b : β) : List β :=
  if takes table b then table ++ [b] else table

/-- The table after it has been offered what the cells of a list ask for. -/
def offerAll (asks : α → Option β) (takes : List β → β → Bool) (cells : ι → α) (is : List ι)
    (table : List β) : List β :=
  (is.filterMap fun i => asks (cells i)).foldl (offer takes) table

/-- The table that a rebuild makes which nothing disturbs. -/
def rebuilt (asks : α → Option β) (takes : List β → β → Bool) (all : List ι) (on : Bool)
    (cells : ι → α) : List β :=
  if on then offerAll asks takes cells all [] else []

/-- What the cell `i` asks for while the switch is as it is. -/
def State.wanted (p : State κ ι α β) (asks : α → Option β) (i : ι) : Option β :=
  if p.on then asks (p.cells i) else none

variable [DecidableEq κ]

/-- The state with the thread `k` in the phase `ph`. -/
def State.at (p : State κ ι α β) (k : κ) (ph : Phase ι α β) : State κ ι α β :=
  { p with phase := Function.update p.phase k ph }

section System

variable [DecidableEq ι] (asks : α → Option β) (takes : List β → β → Bool) (all : List ι)

inductive Step : State κ ι α β → Label κ ι α → State κ ι α β → Prop
  | start {p : State κ ι α β} {k : κ} (job : Option (ι × α)) (h : p.phase k = .looping []) :
    Step p (.start k job) (p.at k (firstPhase job))
  | write {p : State κ ι α β} {k : κ} {i : ι} {a : α} (h : p.phase k = .writing i a) :
    Step p (.go k) { p.at k .clearing with cells := Function.update p.cells i a }
  | fail {p : State κ ι α β} {k : κ} {i : ι} {a : α} (h : p.phase k = .writing i a) :
    Step p (.go k)
      { p.at k (.looping []) with cells := Function.update p.cells i a, unapplied := true }
  | clear {p : State κ ι α β} {k : κ} (h : p.phase k = .clearing) :
    Step p (.go k) { p.at k .checking with table := [], offered := [], unapplied := false }
  | check {p : State κ ι α β} {k : κ} (h : p.phase k = .checking) :
    Step p (.go k) (p.at k (.looping (if p.on then all else [])))
  | read {p : State κ ι α β} {k : κ} {i : ι} {rest : List ι}
      (h : p.phase k = .looping (i :: rest)) :
    Step p (.go k) (p.at k (.adding (asks (p.cells i)) rest))
  | skip {p : State κ ι α β} {k : κ} {rest : List ι} (h : p.phase k = .adding none rest) :
    Step p (.go k) (p.at k (.looping rest))
  | add {p : State κ ι α β} {k : κ} {b : β} {rest : List ι}
      (h : p.phase k = .adding (some b) rest) :
    Step p (.go k) { p.at k (.looping rest) with
      table := offer takes p.table b, offered := b :: p.offered }
  | change {p : State κ ι α β} (on : Bool) (cells : ι → α) :
    Step p (.change on cells) { p with on := on, cells := cells, unapplied := true }

/-- The threads, from the states `init` on. -/
def rebuilds (init : State κ ι α β → Prop) : System (State κ ι α β) (Label κ ι α) where
  init := init
  step := Step asks takes all

end System

/-- All threads are done. -/
def Quiescent (p : State κ ι α β) : Prop := ∀ k, p.phase k = .looping []

/-- A thread that will still empty the table. -/
def Phase.WillClear : Phase ι α β → Prop
  | .clearing => True
  | _ => False

/-- A thread that will still read the cell `i`, or holds `b`. -/
def Phase.Owes (i : ι) (b : β) : Phase ι α β → Prop
  | .writing _ _ => False
  | .clearing | .checking => True
  | .looping rest => i ∈ rest
  | .adding held rest => held = some b ∨ i ∈ rest

variable {asks : α → Option β} {takes : List β → β → Bool} {all : List ι}
  {init : State κ ι α β → Prop} {p p' : State κ ι α β} {l : Label κ ι α}

/-! ### Nothing is lost -/

/-- What a cell asks for has been offered, or some thread still owes it, unless there has been a
change without a rebuild. -/
def Covered (asks : α → Option β) (p : State κ ι α β) : Prop :=
  p.unapplied = true ∨
    ∀ i b, p.wanted asks i = some b → b ∈ p.offered ∨ ∃ k, (p.phase k).Owes i b

omit [DecidableEq κ] in
theorem asks_of_wanted {i : ι} {b : β} (h : p.wanted asks i = some b) :
    asks (p.cells i) = some b := by
  unfold State.wanted at h
  split_ifs at h
  exact h

/-- The thread `k` owes what it owed before, and no other thread has moved. -/
theorem owes_update {phase : κ → Phase ι α β} {i : ι} {b : β} {k : κ} {ph : Phase ι α β}
    (h : ∃ k', (phase k').Owes i b) (hk : (phase k).Owes i b → ph.Owes i b) :
    ∃ k', (Function.update phase k ph k').Owes i b := by
  obtain ⟨k', hk'⟩ := h
  by_cases heq : k' = k
  · subst heq
    exact ⟨k', by rw [Function.update_self]; exact hk hk'⟩
  · exact ⟨k', by rw [Function.update_of_ne heq]; exact hk'⟩

variable [DecidableEq ι]

theorem covered_step (hall : ∀ i, i ∈ all) (h : Covered asks p)
    (hstep : Step asks takes all p l p') : Covered asks p' := by
  cases hstep with
  | fail hk => exact Or.inl rfl
  | change on cells => exact Or.inl rfl
  | @clear k hk => exact Or.inr fun i b _ => Or.inr ⟨k, by simp [State.at, Phase.Owes]⟩
  | @write k j a hk => exact Or.inr fun i b _ => Or.inr ⟨k, by simp [State.at, Phase.Owes]⟩
  | @start k job hk =>
    refine h.imp id fun h i b hask => (h i b hask).imp id fun hex => owes_update hex fun howes => ?_
    -- a thread that was done owed nothing
    rw [hk] at howes
    simp [Phase.Owes] at howes
  | @check k hk =>
    refine h.imp id fun h i b hask => (h i b hask).imp id fun hex => owes_update hex fun _ => ?_
    have hon : p.on = true := by
      by_contra hoff
      have hnone : p.wanted asks i = none := if_neg hoff
      exact absurd (hnone.symm.trans hask) nofun
    rw [if_pos hon]
    exact hall i
  | @read k j rest hk =>
    refine h.imp id fun h i b hask => (h i b hask).imp id fun hex => owes_update hex fun howes => ?_
    rw [hk] at howes
    rcases List.mem_cons.mp howes with rfl | hmem
    · exact Or.inl (asks_of_wanted hask)
    · exact Or.inr hmem
  | @skip k rest hk =>
    refine h.imp id fun h i b hask => (h i b hask).imp id fun hex => owes_update hex fun howes => ?_
    rw [hk] at howes
    rcases howes with hnone | hmem
    · cases hnone
    · exact hmem
  | @add k c rest hk =>
    refine h.imp id fun h i b hask => ?_
    rcases h i b hask with hoff | hex
    · exact Or.inl (List.mem_cons_of_mem c hoff)
    · by_cases hc : c = b
      · exact Or.inl (hc ▸ List.mem_cons_self)
      · refine Or.inr (owes_update hex fun howes => ?_)
        rw [hk] at howes
        rcases howes with hsome | hmem
        · exact absurd (Option.some.inj hsome) hc
        · exact hmem

/-- **Nothing is lost.** When all threads are done, everything the cells ask for has been offered to
the table since it was emptied last, unless there has been a change without a rebuild. -/
theorem offered_of_quiescent (hall : ∀ i, i ∈ all) (hinit : ∀ s, init s → Covered asks s)
    (hp : (rebuilds asks takes all init).Reachable p) (hq : Quiescent p) (happ : p.unapplied = false)
    {i : ι} {b : β} (hask : p.wanted asks i = some b) : b ∈ p.offered := by
  have hcovered : Covered asks p :=
    hp.invariant (I := Covered asks) hinit fun _ _ _ hs hstep => covered_step hall hs hstep
  rcases hcovered with hun | hcovered
  · exact absurd (happ.symm.trans hun) nofun
  rcases hcovered i b hask with hoff | ⟨k, howes⟩
  · exact hoff
  · rw [hq k] at howes
    simp [Phase.Owes] at howes

/-! ### What is offered is taken -/

/-- The table is going to be emptied, or there has been a change without a rebuild. -/
def Outdated (p : State κ ι α β) : Prop := (∃ k, (p.phase k).WillClear) ∨ p.unapplied = true

omit [DecidableEq ι] in
/-- A thread goes on that was not going to empty the table. -/
theorem Outdated.at {k : κ} {ph : Phase ι α β} (h : Outdated p) (hk : ¬ (p.phase k).WillClear) :
    Outdated (p.at k ph) := by
  refine h.imp (fun hex => ?_) id
  obtain ⟨k', hk'⟩ := hex
  have hne : k' ≠ k := fun heq => hk (heq ▸ hk')
  exact ⟨k', by dsimp only [State.at]; rw [Function.update_of_ne hne]; exact hk'⟩

/-- The system takes every step of a thread that is not about to write. -/
def Goes (asks : α → Option β) (takes : List β → β → Bool) (all : List ι)
    (M : System (State κ ι α β) (Label κ ι α)) : Prop :=
  ∀ (p : State κ ι α β) k p', (∀ i a, p.phase k ≠ .writing i a) →
    Step asks takes all p (.go k) p' → M.step p (.go k) p'

theorem goes_rebuilds : Goes asks takes all (rebuilds asks takes all init) :=
  fun _ _ _ _ hstep => hstep

variable {M : System (State κ ι α β) (Label κ ι α)} {k : κ}

theorem Goes.reachable (hM : Goes asks takes all M) (hp : M.Reachable p)
    (hk : ∀ i a, p.phase k ≠ .writing i a) (hstep : Step asks takes all p (.go k) p') :
    M.Reachable p' :=
  hp.step (hM p k p' hk hstep)

/-- A thread that goes on from the cells `is` offers what they ask for. -/
theorem reachable_looping (hM : Goes asks takes all M) {is : List ι} (hp : M.Reachable p)
    (hk : p.phase k = .looping is) : ∃ p', M.Reachable p' ∧
      p' = { p.at k (.looping []) with
        table := offerAll asks takes p.cells is p.table, offered := p'.offered } := by
  induction is generalizing p with
  | nil =>
    refine ⟨p, hp, ?_⟩
    rw [State.at, ← hk, Function.update_eq_self]
    rfl
  | cons i is ih =>
    have hread : M.Reachable (p.at k (.adding (asks (p.cells i)) is)) :=
      hM.reachable hp (by simp [hk]) (.read hk)
    rcases hask : asks (p.cells i) with _ | b
    · rw [hask] at hread
      have hphase : (p.at k (.adding none is)).phase k = .adding none is := by simp [State.at]
      have hskip := hM.reachable hread (by simp [hphase]) (.skip hphase)
      obtain ⟨p', hreach, hp'⟩ := ih hskip (by simp [State.at])
      refine ⟨p', hreach, hp'.trans ?_⟩
      simp [offerAll, State.at, hask]
    · rw [hask] at hread
      have hphase : (p.at k (.adding (some b) is)).phase k = .adding (some b) is := by
        simp [State.at]
      have hadd := hM.reachable hread (by simp [hphase]) (.add hphase)
      obtain ⟨p', hreach, hp'⟩ := ih hadd (by simp [State.at])
      refine ⟨p', hreach, hp'.trans ?_⟩
      simp [offerAll, State.at, hask]

/-- A rebuild from the start. -/
theorem reachable_clearing (hM : Goes asks takes all M) (hp : M.Reachable p)
    (hk : p.phase k = .clearing) : ∃ p', M.Reachable p' ∧
      p' = { p.at k (.looping []) with
        table := rebuilt asks takes all p.on p.cells, offered := p'.offered, unapplied := false } := by
  have hclear : M.Reachable
      { p.at k .checking with table := [], offered := [], unapplied := false } :=
    hM.reachable hp (by simp [hk]) (.clear hk)
  have hchecking : Function.update p.phase k .checking k = .checking := Function.update_self k _ _
  have hcheck := hM.reachable hclear
    (fun i a h => absurd (hchecking.symm.trans h) nofun) (.check hchecking)
  obtain ⟨p', hreach, hp'⟩ := reachable_looping hM hcheck (Function.update_self k _ _)
  refine ⟨p', hreach, hp'.trans ?_⟩
  rcases hon : p.on with _ | _
  · simp [State.at, rebuilt, offerAll, hon]
  · simp [State.at, rebuilt, hon]

/-- A write and the rebuild after it. -/
theorem reachable_writing (hp : (rebuilds asks takes all init).Reachable p)
    (hk : p.phase k = .looping []) (i : ι) (a : α) :
    ∃ p', (rebuilds asks takes all init).Reachable p' ∧
      p' = { p with
        cells := Function.update p.cells i a
        table := rebuilt asks takes all p.on (Function.update p.cells i a)
        offered := p'.offered
        unapplied := false } := by
  have hstart : (rebuilds asks takes all init).Reachable (p.at k (.writing i a)) :=
    hp.step (a := .start k (some (i, a))) (Step.start (some (i, a)) hk)
  have hwriting : (p.at k (.writing i a)).phase k = .writing i a := Function.update_self k _ _
  have hwrite : (rebuilds asks takes all init).Reachable
      { (p.at k (.writing i a)).at k .clearing with cells := Function.update p.cells i a } :=
    hstart.step (a := .go k) (Step.write hwriting)
  obtain ⟨p', hreach, hp'⟩ :=
    reachable_clearing goes_rebuilds hwrite (Function.update_self k _ _)
  refine ⟨p', hreach, hp'.trans ?_⟩
  simp only [State.at, Function.update_idem]
  rw [← hk, Function.update_eq_self]

/-- A write that fails. -/
theorem reachable_failing (hp : (rebuilds asks takes all init).Reachable p)
    (hk : p.phase k = .looping []) (i : ι) (a : α) :
    (rebuilds asks takes all init).Reachable
      { p with cells := Function.update p.cells i a, unapplied := true } := by
  have hstart : (rebuilds asks takes all init).Reachable (p.at k (.writing i a)) :=
    hp.step (a := .start k (some (i, a))) (Step.start (some (i, a)) hk)
  have hwriting : (p.at k (.writing i a)).phase k = .writing i a := Function.update_self k _ _
  have hfail : (rebuilds asks takes all init).Reachable
      { (p.at k (.writing i a)).at k (.looping []) with
        cells := Function.update p.cells i a, unapplied := true } :=
    hstart.step (a := .go k) (Step.fail hwriting)
  simp only [State.at, Function.update_idem] at hfail
  rwa [← hk, Function.update_eq_self] at hfail

end MqttFieldBridge.Lts.Rebuild
