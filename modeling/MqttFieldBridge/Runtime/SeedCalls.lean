import MqttFieldBridge.Runtime.Seeds

/-! # The calls that rebuild the seed table

The loop of `bridge_control_apply_peers` once more, now over a table of any number of slots, with
every answer of `p2p_static_seed_add` its own, and with the log of the calls it makes. The log names
the slots that are eligible, in their order, each once (`Rebuilds`), and the table holds what was
accepted of it, nothing else: `applyPeersOver_rebuilds`. -/

namespace MqttFieldBridge.Runtime

open MqttFieldBridge.CLib MqttFieldBridge.Config

/-- A call of `p2p_static_seed_add`: the slot it is made for, the seed, and whether it was taken. -/
structure SeedCall where
  slot : ℕ
  seed : Seed
  taken : Bool
deriving DecidableEq

/-- The seeds that were taken. -/
def accepted (calls : List SeedCall) : List Seed := (calls.filter (·.taken)).map (·.seed)

/-- What the loop works on: the seed table, its counter, and the calls made so far. -/
@[ext] structure SeedRun where
  table : List Seed
  enabled : ℕ
  calls : List SeedCall
deriving DecidableEq

/-- A slot that asks for a seed: it is enabled, both ports are set and its host, which is not empty,
is an IPv4 address. -/
structure Eligible (inetPton : Text → Option UInt32) (peer : FieldBridgePeer) (seed : Seed) :
    Prop where
  enabled : peer.enabled ≠ 0
  host : peer.host.text ≠ []
  mqttPort : peer.mqttPort ≠ 0
  p2pPort : peer.p2pPort ≠ 0
  addr : inetPton peer.host.text = some seed.1
  port : peer.p2pPort = seed.2

/-- One call. The table may answer the same question differently for another slot. -/
def SeedRun.add (answer : ℕ → List Seed → Seed → Bool) (i : ℕ) (seed : Seed) (s : SeedRun) :
    SeedRun :=
  if answer i s.table seed then
    { table := s.table ++ [seed]
      enabled := s.enabled + 1
      calls := s.calls ++ [⟨i, seed, true⟩] }
  else { s with calls := s.calls ++ [⟨i, seed, false⟩] }

section
variable (inetPton : Text → Option UInt32) (answer : ℕ → List Seed → Seed → Bool)

/-- The loop of `bridge_control_apply_peers` from slot `i` on. -/
def applyPeersFrom : ℕ → List FieldBridgePeer → SeedRun → SeedRun
  | _, [], s => s
  | i, peer :: peers, s =>
    if peer.enabled = 0 then applyPeersFrom (i + 1) peers s
    else if peer.host.first = 0 then applyPeersFrom (i + 1) peers s
    else if peer.mqttPort = 0 ∨ peer.p2pPort = 0 then applyPeersFrom (i + 1) peers s
    else
      match inetPton peer.host.text with
      | none => applyPeersFrom (i + 1) peers s
      | some addr => applyPeersFrom (i + 1) peers (s.add answer i (addr, peer.p2pPort))

/-- `p2p_static_seed_clear`. -/
def staticSeedClear (_ : List Seed) : List Seed := []

/-- `bridge_control_apply_peers` over these slots, beginning with the table of before. -/
def applyPeersOver (settings : FieldBridgeSettings) (peers : List FieldBridgePeer)
    (previous : List Seed) : SeedRun :=
  let cleared : SeedRun := ⟨staticSeedClear previous, 0, []⟩
  if settings.broker.bridgeEnabled = 0 then cleared
  else applyPeersFrom inetPton answer 0 peers cleared

/-! ### One slot -/

/-- A slot is either asked for and there is one call, or it is passed over. -/
theorem applyPeersFrom_cons (i : ℕ) (peer : FieldBridgePeer) (peers : List FieldBridgePeer)
    (s : SeedRun) :
    (∃ seed, Eligible inetPton peer seed ∧ applyPeersFrom inetPton answer i (peer :: peers) s =
      applyPeersFrom inetPton answer (i + 1) peers (s.add answer i seed)) ∨
    (∀ seed, ¬ Eligible inetPton peer seed) ∧ applyPeersFrom inetPton answer i (peer :: peers) s =
      applyPeersFrom inetPton answer (i + 1) peers s := by
  rw [applyPeersFrom]
  by_cases hdis : peer.enabled = 0
  · rw [if_pos hdis]
    exact Or.inr ⟨fun seed h => h.enabled hdis, rfl⟩
  by_cases hhost : peer.host.first = 0
  · rw [if_neg hdis, if_pos hhost]
    exact Or.inr ⟨fun seed h => h.host (CharArray.text_eq_nil_iff.mpr hhost), rfl⟩
  by_cases hport : peer.mqttPort = 0 ∨ peer.p2pPort = 0
  · rw [if_neg hdis, if_neg hhost, if_pos hport]
    exact Or.inr ⟨fun seed h => hport.elim h.mqttPort h.p2pPort, rfl⟩
  rw [if_neg hdis, if_neg hhost, if_neg hport]
  rw [not_or] at hport
  rcases haddr : inetPton peer.host.text with _ | addr
  · refine Or.inr ⟨fun seed h => ?_, rfl⟩
    rw [h.addr] at haddr
    exact Option.some_ne_none _ haddr
  · refine Or.inl ⟨(addr, peer.p2pPort), ?_, rfl⟩
    exact ⟨hdis, fun h => hhost (CharArray.text_eq_nil_iff.mp h), hport.1, hport.2, haddr, rfl⟩

/-- A slot asks for one seed. -/
theorem Eligible.unique {peer : FieldBridgePeer} {s t : Seed} (hs : Eligible inetPton peer s)
    (ht : Eligible inetPton peer t) : s = t := by
  have haddr : s.1 = t.1 := Option.some.inj (hs.addr.symm.trans ht.addr)
  have hport : s.2 = t.2 := hs.port.symm.trans ht.port
  exact Prod.ext haddr hport

/-! ### The whole loop -/

/-- What the calls `calls` of the loop over `peers` are, from slot `i` and the state `s` on. -/
structure Rebuilds (i : ℕ) (peers : List FieldBridgePeer) (s : SeedRun) (calls : List SeedCall) :
    Prop where
  result : applyPeersFrom inetPton answer i peers s =
    ⟨s.table ++ accepted calls, s.enabled + (accepted calls).length, s.calls ++ calls⟩
  ordered : (calls.map (·.slot)).Pairwise (· < ·)
  asked : ∀ k seed, (∃ c ∈ calls, c.slot = k ∧ c.seed = seed) ↔
    ∃ j peer, k = i + j ∧ peers[j]? = some peer ∧ Eligible inetPton peer seed
  answered : ∀ pre c post, calls = pre ++ c :: post →
    c.taken = answer c.slot (s.table ++ accepted pre) c.seed

variable {inetPton answer}

/-- The slots that are asked for lie behind the one the loop begins with. -/
theorem Rebuilds.le_slot {i : ℕ} {peers : List FieldBridgePeer} {s : SeedRun}
    {calls : List SeedCall} (h : Rebuilds inetPton answer i peers s calls) :
    ∀ c ∈ calls, i ≤ c.slot := by
  intro c hc
  obtain ⟨j, -, hj, -⟩ := (h.asked c.slot c.seed).mp ⟨c, hc, rfl, rfl⟩
  omega

/-- A slot that is passed over leaves no trace. -/
theorem Rebuilds.skip {i : ℕ} {peer : FieldBridgePeer} {peers : List FieldBridgePeer} {s : SeedRun}
    {calls : List SeedCall} (h : Rebuilds inetPton answer (i + 1) peers s calls)
    (hnot : ∀ seed, ¬ Eligible inetPton peer seed)
    (hcons : applyPeersFrom inetPton answer i (peer :: peers) s =
      applyPeersFrom inetPton answer (i + 1) peers s) :
    Rebuilds inetPton answer i (peer :: peers) s calls where
  result := hcons.trans h.result
  ordered := h.ordered
  answered := h.answered
  asked k seed := by
    rw [h.asked k seed]
    constructor
    · rintro ⟨j, p, rfl, hp, he⟩
      exact ⟨j + 1, p, by omega, hp, he⟩
    · rintro ⟨j, p, rfl, hp, he⟩
      rcases j with _ | j
      · rw [List.getElem?_cons_zero, Option.some.injEq] at hp
        exact absurd (hp ▸ he) (hnot seed)
      · exact ⟨j, p, by omega, hp, he⟩

theorem accepted_cons (c : SeedCall) (calls : List SeedCall) :
    accepted (c :: calls) = (if c.taken then [c.seed] else []) ++ accepted calls := by
  unfold accepted
  rw [List.filter_cons]
  split_ifs
  · rfl
  · rfl

/-- The state after a call, in one equation for both answers. -/
theorem SeedRun.add_eq (i : ℕ) (seed : Seed) (s : SeedRun) :
    s.add answer i seed =
      ⟨s.table ++ accepted [⟨i, seed, answer i s.table seed⟩],
        s.enabled + (accepted [⟨i, seed, answer i s.table seed⟩]).length,
        s.calls ++ [⟨i, seed, answer i s.table seed⟩]⟩ := by
  unfold SeedRun.add
  rw [accepted_cons]
  split_ifs with h
  · rw [h]
    rfl
  · rw [Bool.not_eq_true] at h
    rw [h]
    simp [accepted]

/-- A slot that is asked for is called first. -/
theorem Rebuilds.call {i : ℕ} {peer : FieldBridgePeer} {peers : List FieldBridgePeer} {s : SeedRun}
    {seed : Seed} {calls : List SeedCall}
    (h : Rebuilds inetPton answer (i + 1) peers (s.add answer i seed) calls)
    (hel : Eligible inetPton peer seed)
    (hcons : applyPeersFrom inetPton answer i (peer :: peers) s =
      applyPeersFrom inetPton answer (i + 1) peers (s.add answer i seed)) :
    Rebuilds inetPton answer i (peer :: peers) s (⟨i, seed, answer i s.table seed⟩ :: calls) where
  result := by
    have happend : accepted (⟨i, seed, answer i s.table seed⟩ :: calls) =
        accepted [⟨i, seed, answer i s.table seed⟩] ++ accepted calls := by
      rw [accepted_cons, accepted_cons]
      exact congrArg (· ++ accepted calls) (List.append_nil _).symm
    rw [hcons, h.result, SeedRun.add_eq, happend]
    simp [Nat.add_assoc]
  ordered := by
    rw [List.map_cons, List.pairwise_cons]
    refine ⟨fun k hk => ?_, h.ordered⟩
    obtain ⟨c, hc, rfl⟩ := List.mem_map.mp hk
    exact h.le_slot c hc
  asked k t := by
    constructor
    · rintro ⟨c, hc, rfl, rfl⟩
      rcases List.mem_cons.mp hc with rfl | hc
      · exact ⟨0, peer, rfl, rfl, hel⟩
      · obtain ⟨j, p, hj, hp, he⟩ := (h.asked c.slot c.seed).mp ⟨c, hc, rfl, rfl⟩
        exact ⟨j + 1, p, by omega, hp, he⟩
    · rintro ⟨j, p, rfl, hp, he⟩
      rcases j with _ | j
      · rw [List.getElem?_cons_zero, Option.some.injEq] at hp
        refine ⟨_, List.mem_cons_self, rfl, ?_⟩
        exact hel.unique inetPton (hp ▸ he)
      · obtain ⟨c, hc, hslot, hseed⟩ := (h.asked (i + (j + 1)) t).mpr ⟨j, p, by omega, hp, he⟩
        exact ⟨c, List.mem_cons_of_mem _ hc, hslot, hseed⟩
  answered pre c post hsplit := by
    rcases pre with _ | ⟨d, pre⟩
    · rw [List.nil_append, List.cons.injEq] at hsplit
      rw [← hsplit.1, accepted, List.filter_nil, List.map_nil, List.append_nil]
    · rw [List.cons_append, List.cons.injEq] at hsplit
      have hlater := h.answered pre c post hsplit.2
      rw [hlater, SeedRun.add_eq, ← hsplit.1, List.append_assoc, accepted_cons, accepted_cons]
      exact congrArg (fun t => answer c.slot (s.table ++ t) c.seed)
        (congrArg (· ++ accepted pre) (List.append_nil _))

/-- The loop over any table of slots. -/
theorem exists_rebuilds : ∀ (peers : List FieldBridgePeer) (i : ℕ) (s : SeedRun),
    ∃ calls, Rebuilds inetPton answer i peers s calls
  | [], i, s => ⟨[], by simp [applyPeersFrom, accepted], List.Pairwise.nil,
      fun k seed => by simp, fun pre c post h => absurd h (by simp)⟩
  | peer :: peers, i, s => by
    rcases applyPeersFrom_cons inetPton answer i peer peers s with ⟨seed, hel, hcons⟩ | ⟨hnot, hcons⟩
    · obtain ⟨calls, h⟩ := exists_rebuilds peers (i + 1) (s.add answer i seed)
      exact ⟨_, h.call hel hcons⟩
    · obtain ⟨calls, h⟩ := exists_rebuilds peers (i + 1) s
      exact ⟨calls, h.skip hnot hcons⟩

end

/-! ### Rebuilding the table -/

/-- The loop of the device is this loop over its two slots, with a table that answers each question
in one way. -/
theorem applyPeersLoop_eq (w : World) : ∀ (peers : List FieldBridgePeer) (i : ℕ) (s : SeedRun),
    applyPeersLoop w peers s.table s.enabled =
      ((applyPeersFrom w.p2p.inetPton (fun _ => w.seedAdd) i peers s).table,
        (applyPeersFrom w.p2p.inetPton (fun _ => w.seedAdd) i peers s).enabled)
  | [], i, s => rfl
  | peer :: peers, i, s => by
    have hnext := applyPeersLoop_eq w peers (i + 1)
    unfold applyPeersLoop applyPeersFrom
    by_cases hdis : peer.enabled = 0
    · rw [if_pos hdis, if_pos hdis]
      exact hnext s
    by_cases hhost : peer.host.first = 0
    · rw [if_neg hdis, if_neg hdis, if_pos hhost, if_pos hhost]
      exact hnext s
    by_cases hport : peer.mqttPort = 0 ∨ peer.p2pPort = 0
    · rw [if_neg hdis, if_neg hdis, if_neg hhost, if_neg hhost, if_pos hport, if_pos hport]
      exact hnext s
    rw [if_neg hdis, if_neg hdis, if_neg hhost, if_neg hhost, if_neg hport, if_neg hport]
    rcases w.p2p.inetPton peer.host.text with _ | addr
    · exact hnext s
    · dsimp only
      rw [← hnext, SeedRun.add]
      split_ifs
      · rfl
      · rfl

/-- **`bridge_control_apply_peers` on the device** is the loop over its slots. -/
theorem bridgeControlApplyPeers_eq (w : World) (a : App) :
    bridgeControlApplyPeers w a =
      ((applyPeersOver w.p2p.inetPton (fun _ => w.seedAdd) a.config.settings (peerList a.config)
          a.seeds).enabled,
        { a with
          seeds := (applyPeersOver w.p2p.inetPton (fun _ => w.seedAdd) a.config.settings
            (peerList a.config) a.seeds).table }) := by
  unfold bridgeControlApplyPeers applyPeersOver
  dsimp only
  split_ifs
  · rfl
  · have hloop := applyPeersLoop_eq w (peerList a.config) 0 ⟨staticSeedClear a.seeds, 0, []⟩
    rw [show ([] : List Seed) = staticSeedClear a.seeds from rfl, hloop]

/-- Whatever the table held before is gone. -/
theorem applyPeersOver_previous {inetPton : Text → Option UInt32}
    {answer : ℕ → List Seed → Seed → Bool} {settings : FieldBridgeSettings}
    {peers : List FieldBridgePeer} (previous previous' : List Seed) :
    applyPeersOver inetPton answer settings peers previous =
      applyPeersOver inetPton answer settings peers previous' := rfl

/-- The log of a bridge that is enabled. -/
theorem rebuilds_applyPeersOver {inetPton : Text → Option UInt32}
    {answer : ℕ → List Seed → Seed → Bool} {settings : FieldBridgeSettings}
    {peers : List FieldBridgePeer} {previous : List Seed}
    (hbridge : settings.broker.bridgeEnabled ≠ 0) :
    Rebuilds inetPton answer 0 peers ⟨[], 0, []⟩
      (applyPeersOver inetPton answer settings peers previous).calls := by
  obtain ⟨calls, hcalls⟩ := @exists_rebuilds inetPton answer peers 0
    ⟨[], 0, []⟩
  have hrun : applyPeersOver inetPton answer settings peers previous =
      applyPeersFrom inetPton answer 0 peers ⟨[], 0, []⟩ := if_neg hbridge
  rw [hrun, hcalls.result]
  exact hcalls

/-- **Applying the peers rebuilds the seed table.** Whatever it held before, however many slots
there are and however the table answers: one call is made for each eligible slot of a bridge that is
enabled, in the order of the slots, and the table holds the seeds that were taken, which are
counted. Where an answer depends on the table and the seed only, a second time gives the same. -/
theorem applyPeersOver_rebuilds (inetPton : Text → Option UInt32)
    (answer : ℕ → List Seed → Seed → Bool) (settings : FieldBridgeSettings)
    (peers : List FieldBridgePeer) (previous : List Seed) :
    let r := applyPeersOver inetPton answer settings peers previous
    r.table = accepted r.calls ∧
    r.enabled = r.table.length ∧
    (r.calls.map (·.slot)).Pairwise (· < ·) ∧
    (∀ k seed, (∃ c ∈ r.calls, c.slot = k ∧ c.seed = seed) ↔
      settings.broker.bridgeEnabled ≠ 0 ∧
        ∃ peer, peers[k]? = some peer ∧ Eligible inetPton peer seed) ∧
    (∀ pre c post, r.calls = pre ++ c :: post → c.taken = answer c.slot (accepted pre) c.seed) ∧
    (settings.broker.bridgeEnabled = 0 → r.table = [] ∧ r.enabled = 0) ∧
    ∀ (seedAdd : List Seed → Seed → Bool) (answer' : ℕ → List Seed → Seed → Bool),
      (∀ i, answer i = seedAdd) → (∀ i, answer' i = seedAdd) →
      (applyPeersOver inetPton answer' settings peers r.table).table = r.table ∧
        (applyPeersOver inetPton answer' settings peers r.table).enabled = r.enabled := by
  intro r
  have hagain : ∀ (seedAdd : List Seed → Seed → Bool) (answer' : ℕ → List Seed → Seed → Bool),
      (∀ i, answer i = seedAdd) → (∀ i, answer' i = seedAdd) →
      applyPeersOver inetPton answer' settings peers r.table = r := by
    intro seedAdd answer' h h'
    have heq : answer' = answer := funext fun i => (h' i).trans (h i).symm
    rw [heq]
    exact applyPeersOver_previous r.table previous
  by_cases hbridge : settings.broker.bridgeEnabled = 0
  · have hr : r = ⟨[], 0, []⟩ := if_pos hbridge
    refine ⟨?_, ?_, ?_, fun k seed => ?_, fun pre c post h => ?_, fun _ => ?_, fun f g h h' => ?_⟩
    · rw [hr]
      rfl
    · rw [hr]
      rfl
    · rw [hr]
      exact List.Pairwise.nil
    · rw [hr]
      exact iff_of_false (by simp) fun h => h.1 hbridge
    · rw [hr] at h
      exact absurd h (by simp)
    · rw [hr]
      exact ⟨rfl, rfl⟩
    · rw [hagain f g h h']
      exact ⟨rfl, rfl⟩
  · have hcalls := @rebuilds_applyPeersOver inetPton answer settings peers previous hbridge
    have hresult : r = ⟨[] ++ accepted r.calls, 0 + (accepted r.calls).length, [] ++ r.calls⟩ :=
      (if_neg hbridge : r = applyPeersFrom inetPton answer 0 peers ⟨[], 0, []⟩).trans hcalls.result
    have htable : r.table = accepted r.calls := congrArg SeedRun.table hresult
    have henabled : r.enabled = r.table.length := by
      rw [htable, ← Nat.zero_add (accepted r.calls).length]
      exact congrArg SeedRun.enabled hresult
    refine ⟨htable, henabled, hcalls.ordered, fun k seed => ?_, hcalls.answered,
      fun h => absurd h hbridge, fun f g h h' => ?_⟩
    · rw [hcalls.asked k seed]
      simp [hbridge]
    · rw [hagain f g h h']
      exact ⟨rfl, rfl⟩

/-- A slot with this host. -/
def slotAt (host : Text) : FieldBridgePeer where
  name := .ofBytes _ (str "node")
  host := .ofBytes _ host
  mqttPort := 1883
  p2pPort := 4884
  enabled := 1

/-- A network library that knows two addresses. -/
def twoHosts (host : Text) : Option UInt32 :=
  if host = str "10.88.0.3" then some 0x0a580003
  else if host = str "10.88.0.4" then some 0x0a580004
  else none

/-- Settings with the bridge on. -/
def bridgeSettings : FieldBridgeSettings where
  system := FieldBridgeSettings.zero.system
  network := FieldBridgeSettings.zero.network
  broker := { FieldBridgeSettings.zero.broker with bridgeEnabled := 1 }

/-- Three slots, one of them with a name for a host, and a table with one place. -/
abbrev threeSlots : SeedRun :=
  applyPeersOver twoHosts (fun _ table _ => table.isEmpty) bridgeSettings
    [slotAt (str "node.local"), slotAt (str "10.88.0.3"), slotAt (str "10.88.0.4")] [(1, 2)]

theorem applyPeersOver_rebuilds_threeSlots :
    threeSlots.table = [(0x0a580003, 4884)] ∧
      (applyPeersOver twoHosts (fun _ table _ => table.isEmpty) bridgeSettings
        [slotAt (str "node.local"), slotAt (str "10.88.0.3"), slotAt (str "10.88.0.4")]
        threeSlots.table).table = threeSlots.table := by
  have hrules := applyPeersOver_rebuilds twoHosts (fun _ table _ => table.isEmpty) bridgeSettings
    [slotAt (str "node.local"), slotAt (str "10.88.0.3"), slotAt (str "10.88.0.4")] [(1, 2)]
  obtain ⟨-, -, -, -, -, -, hagain⟩ := hrules
  exact ⟨by decide, (hagain _ _ (fun _ => rfl) fun _ => rfl).1⟩

end MqttFieldBridge.Runtime
