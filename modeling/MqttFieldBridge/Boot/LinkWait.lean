import MqttFieldBridge.Boot.Main
import MqttFieldBridge.Lts.Streak

/-! # Waiting for the link

In a build for the W5500 `main` goes on only when the link was up in four samples in a row, taken a
quarter of a second apart. Its counter is a streak of the samples (`linkWaitAt`), so the wait ends with
the earliest run of four within the time, or when the time is over: `waitForW5500LinkStable_ends`. -/

namespace MqttFieldBridge.Boot

open MqttFieldBridge.CLib MqttFieldBridge.Config MqttFieldBridge.Lts MqttFieldBridge.Runtime

/-! ### The loop -/

def w5500LinkTimeoutMs : ℤ := 15000
def w5500LinkSampleMs : ℤ := 250
def w5500LinkStableSamples : ℤ := 4

/-- What the wait returns: `0` or `-ETIMEDOUT`. -/
inductive LinkRc where
  | ok
  | timedOut
deriving DecidableEq

/-- The variables of the loop, and how many samples were taken. -/
structure LinkWait where
  elapsedMs : ℤ
  stableSamples : ℤ
  taken : ℕ
deriving DecidableEq

/-- One turn of the loop: it goes on, or returns with this many samples taken. `ready i` is what
`product_ethernet_link_ready` answers the `i`th time; `elapsed_ms` is taken to wrap if it overflows. -/
def linkWaitTurn (ready : ℕ → Bool) (timeoutMs : ℤ) (s : LinkWait) : LinkWait ⊕ (LinkRc × ℕ) :=
  if s.elapsedMs < timeoutMs then
    let elapsedMs := (s.elapsedMs + w5500LinkSampleMs).bmod (2 ^ 32)
    if ready s.taken then
      let stableSamples := s.stableSamples + 1
      if stableSamples ≥ w5500LinkStableSamples then .inr (.ok, s.taken + 1)
      else .inl ⟨elapsedMs, stableSamples, s.taken + 1⟩
    else .inl ⟨elapsedMs, 0, s.taken + 1⟩
  else .inr (.timedOut, s.taken)

def linkWaitLoop (ready : ℕ → Bool) (timeoutMs : ℤ) : ℕ → LinkWait → Option (LinkRc × ℕ)
  | 0, _ => none
  | fuel + 1, s =>
    match linkWaitTurn ready timeoutMs s with
    | .inl s => linkWaitLoop ready timeoutMs fuel s
    | .inr r => some r

/-- What `wait_for_w5500_link_stable` returns, and how many samples it took, if it returns within so
many turns. -/
def waitForW5500LinkStable (ready : ℕ → Bool) (timeoutMs : ℤ) (fuel : ℕ) : Option (LinkRc × ℕ) :=
  linkWaitLoop ready timeoutMs fuel ⟨0, 0, 0⟩

/-! ### What a turn does -/

/-- `timeout_ms / 250`, rounded up. -/
def linkSamples (timeoutMs : ℤ) : ℕ := ((timeoutMs + 249) / 250).toNat

variable {ready : ℕ → Bool} {timeoutMs : ℤ} {n : ℕ}

/-- How many samples in a row were ready when `n` were taken. -/
abbrev readyStreak (ready : ℕ → Bool) (n : ℕ) : ℕ := streak (fun i => ready i = true) n

/-- The variables after `n` samples. -/
def linkWaitAt (ready : ℕ → Bool) (n : ℕ) : LinkWait := ⟨250 * n, readyStreak ready n, n⟩

/-- Before the last sample a turn goes on with the next one, unless that makes four in a row. -/
theorem linkWaitTurn_at (hmax : timeoutMs ≤ 2 ^ 31 - 1 - 250) (hn : n < linkSamples timeoutMs)
    (hstreak : readyStreak ready n < 4) : linkWaitTurn ready timeoutMs (linkWaitAt ready n) =
      if 4 ≤ readyStreak ready (n + 1) then .inr (.ok, n + 1) else .inl (linkWaitAt ready (n + 1)) := by
  unfold linkSamples at hn
  have htime : (250 : ℤ) * n < timeoutMs := by omega
  have helapsed : ((250 : ℤ) * n + w5500LinkSampleMs).bmod (2 ^ 32) = 250 * ((n + 1 : ℕ) : ℤ) := by
    unfold w5500LinkSampleMs
    rw [Int.bmod_eq_of_le (by omega) (by omega)]
    omega
  unfold linkWaitTurn linkWaitAt
  dsimp only
  rw [if_pos htime, helapsed]
  by_cases hready : ready n = true
  · have hnext : readyStreak ready (n + 1) = readyStreak ready n + 1 := streak_succ_of_pos hready
    rw [if_pos hready, hnext]
    by_cases hfour : 4 ≤ readyStreak ready n + 1
    · rw [if_pos hfour, if_pos (by unfold w5500LinkStableSamples; omega)]
    · rw [if_neg hfour, if_neg (by unfold w5500LinkStableSamples; omega)]
      rfl
  · have hnext : readyStreak ready (n + 1) = 0 := streak_succ_of_neg hready
    rw [if_neg hready, hnext, if_neg (by omega)]
    rfl

/-- With all samples taken the time is over. -/
theorem linkWaitTurn_end (hn : linkSamples timeoutMs ≤ n) :
    linkWaitTurn ready timeoutMs (linkWaitAt ready n) = .inr (.timedOut, n) := by
  unfold linkSamples at hn
  exact if_neg (by show ¬ (250 : ℤ) * n < timeoutMs; omega)

/-! ### The whole wait -/

/-- How a wait of at most `N` samples ends: with the first four in a row, or with the last one. -/
inductive LinkWaitEnds (ready : ℕ → Bool) (N : ℕ) : LinkRc × ℕ → Prop
  | stable {n : ℕ} (hle : n ≤ N) (hfour : 4 ≤ readyStreak ready n)
      (hfirst : ∀ m < n, readyStreak ready m < 4) : LinkWaitEnds ready N (.ok, n)
  | timedOut (hnever : ∀ m ≤ N, readyStreak ready m < 4) : LinkWaitEnds ready N (.timedOut, N)

/-- The loop from the `n`th sample on, with `d` samples left: each turn takes one of them. -/
theorem linkWaitLoop_at (hmax : timeoutMs ≤ 2 ^ 31 - 1 - 250) : ∀ (d n : ℕ),
    linkSamples timeoutMs = n + d → (∀ m ≤ n, readyStreak ready m < 4) →
    ∃ r, LinkWaitEnds ready (linkSamples timeoutMs) r ∧
      ∀ fuel, d < fuel → linkWaitLoop ready timeoutMs fuel (linkWaitAt ready n) = some r
  | 0, n, hd, hbelow => by
    refine ⟨(.timedOut, linkSamples timeoutMs), .timedOut fun m hm => hbelow m (by omega), ?_⟩
    intro fuel hfuel
    obtain ⟨fuel, rfl⟩ := Nat.exists_eq_succ_of_ne_zero (Nat.ne_of_gt hfuel)
    rw [linkWaitLoop, linkWaitTurn_end (by omega), hd]
    rfl
  | d + 1, n, hd, hbelow => by
    have hturn := linkWaitTurn_at hmax (by omega) (hbelow n (Nat.le_refl n))
    by_cases hfour : 4 ≤ readyStreak ready (n + 1)
    · rw [if_pos hfour] at hturn
      refine ⟨(.ok, n + 1), .stable (by omega) hfour fun m hm => hbelow m (by omega), ?_⟩
      intro fuel hfuel
      obtain ⟨fuel, rfl⟩ := Nat.exists_eq_succ_of_ne_zero (Nat.ne_of_gt (Nat.zero_lt_of_lt hfuel))
      rw [linkWaitLoop, hturn]
    · rw [if_neg hfour] at hturn
      have hbelow' : ∀ m ≤ n + 1, readyStreak ready m < 4 := by
        intro m hm
        rcases Nat.le_succ_iff.mp hm with hm | rfl
        · exact hbelow m hm
        · exact Nat.lt_of_not_le hfour
      obtain ⟨r, hr, hloop⟩ := linkWaitLoop_at hmax d (n + 1) (by omega) hbelow'
      refine ⟨r, hr, fun fuel hfuel => ?_⟩
      obtain ⟨fuel, rfl⟩ := Nat.exists_eq_succ_of_ne_zero (Nat.ne_of_gt (Nat.zero_lt_of_lt hfuel))
      rw [linkWaitLoop, hturn]
      exact hloop fuel (by omega)

theorem waitForW5500LinkStable_eq (ready : ℕ → Bool) (hmax : timeoutMs ≤ 2 ^ 31 - 1 - 250) :
    ∃ r, LinkWaitEnds ready (linkSamples timeoutMs) r ∧ ∀ fuel, linkSamples timeoutMs < fuel →
      waitForW5500LinkStable ready timeoutMs fuel = some r := by
  refine linkWaitLoop_at hmax (linkSamples timeoutMs) 0 (Nat.zero_add _).symm fun m hm => ?_
  rw [Nat.le_zero.mp hm]
  exact Nat.zero_lt_succ 3

/-- The wait returns `0` if and only if there are four samples in a row. -/
theorem LinkWaitEnds.ok_iff {N : ℕ} {r : LinkRc × ℕ} (h : LinkWaitEnds ready N r) :
    r.1 = .ok ↔ ∃ j, j + 4 ≤ N ∧ ∀ i < 4, ready (j + i) = true := by
  cases h with
  | stable hle hfour hfirst =>
    obtain ⟨j, rfl, hrun, -⟩ := streak_first hfour hfirst
    exact iff_of_true rfl ⟨j, hle, hrun⟩
  | timedOut hnever =>
    refine iff_of_false (by simp) ?_
    rintro ⟨j, hj, hrun⟩
    have hreached : 4 ≤ readyStreak ready (j + 4) := le_streak_iff.mpr (runBefore_add_iff.mpr hrun)
    have hbelow := hnever (j + 4) hj
    omega

/-- **The wait accepts exactly stable links, and ends.** It takes at most `timeout_ms / 250` samples,
rounded up; it returns `0` if and only if four of these in a row are ready, and then with the earliest
such run; else it takes all of them. -/
theorem waitForW5500LinkStable_ends (ready : ℕ → Bool) (timeoutMs : ℤ)
    (hmax : timeoutMs ≤ 2 ^ 31 - 1 - 250) :
    ∃ rc taken,
      (∀ fuel, linkSamples timeoutMs < fuel →
        waitForW5500LinkStable ready timeoutMs fuel = some (rc, taken)) ∧
      taken ≤ linkSamples timeoutMs ∧
      (rc = .ok ↔ ∃ j, j + 4 ≤ linkSamples timeoutMs ∧ ∀ i < 4, ready (j + i) = true) ∧
      (rc = .ok → ∃ j, taken = j + 4 ∧ (∀ i < 4, ready (j + i) = true) ∧
        ∀ j', (∀ i < 4, ready (j' + i) = true) → j ≤ j') ∧
      (rc = .timedOut → taken = linkSamples timeoutMs) := by
  obtain ⟨⟨rc, taken⟩, hends, hwait⟩ := waitForW5500LinkStable_eq ready hmax
  refine ⟨rc, taken, hwait, ?_, hends.ok_iff, ?_⟩
  · cases hends with
    | stable hle => exact hle
    | timedOut => exact Nat.le_refl _
  · cases hends with
    | stable hle hfour hfirst => exact ⟨fun _ => streak_first hfour hfirst, fun h => (by cases h)⟩
    | timedOut => exact ⟨fun h => (by cases h), fun _ => rfl⟩

/-- A link that is down in the second sample is stable after six. -/
theorem waitForW5500LinkStable_ends_flap :
    waitForW5500LinkStable (fun i => decide (i ≠ 1)) w5500LinkTimeoutMs 61 = some (.ok, 6) := by
  obtain ⟨rc, taken, hwait, -, hok, hearliest, -⟩ :=
    waitForW5500LinkStable_ends (fun i => decide (i ≠ 1)) w5500LinkTimeoutMs (by decide)
  have hrc : rc = .ok := hok.mpr ⟨2, by decide, fun i _ => decide_eq_true (by omega)⟩
  obtain ⟨j, htaken, hrun, hfirst⟩ := hearliest hrc
  have hle : j ≤ 2 := hfirst 2 fun i _ => decide_eq_true (by omega)
  have hzero : j + 0 ≠ 1 := of_decide_eq_true (hrun 0 (by decide))
  have hone : j + 1 ≠ 1 := of_decide_eq_true (hrun 1 (by decide))
  rw [hwait 61 (by decide), hrc, htaken, show j = 2 by omega]

/-! ### The link in `main` -/

/-- What `main` knows of Ethernet in a build for the W5500: `product_ethernet_start` returned
`startRc`, and the link answers `ready`. -/
def w5500Ethernet (startRc : Rc) (ready : ℕ → Bool) (ip : CStr fieldBridgeHostMax) : Ethernet where
  ready := startRc = .ok ∧
    (waitForW5500LinkStable ready w5500LinkTimeoutMs 61).map Prod.fst = some .ok
  ip := ip

/-- `main` goes on exactly if Ethernet has started and four of sixty samples in a row are ready. -/
theorem w5500Ethernet_ready_iff {startRc : Rc} {ip : CStr fieldBridgeHostMax} :
    (w5500Ethernet startRc ready ip).ready = true ↔
      startRc = .ok ∧ ∃ j, j + 4 ≤ 60 ∧ ∀ i < 4, ready (j + i) = true := by
  obtain ⟨r, hends, hwait⟩ :=
    @waitForW5500LinkStable_eq w5500LinkTimeoutMs ready (by decide)
  have hresult := hwait 61 (by decide)
  have hok : (waitForW5500LinkStable ready w5500LinkTimeoutMs 61).map Prod.fst = some .ok ↔
      r.1 = .ok := by
    rw [hresult, Option.map_some, Option.some.injEq]
  unfold w5500Ethernet
  rw [decide_eq_true_eq, hok, hends.ok_iff]
  exact Iff.rfl

end MqttFieldBridge.Boot
