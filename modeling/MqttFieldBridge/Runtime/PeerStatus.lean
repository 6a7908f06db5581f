import MqttFieldBridge.Runtime.SeedCalls
import Mathlib.Data.List.Sort

/-! # What the peer status says about a slot

`SlotState` is the state that `product_runtime_get_peer_statuses` reports, as an enumeration, and
`slotState` says when it is which. The report agrees with the p2p snapshot (`StatusOf`) and with the
seeds that `bridge_control_apply_peers` asks for: `peerStatuses_agree`. -/

namespace MqttFieldBridge.Runtime

open MqttFieldBridge.CLib MqttFieldBridge.Config

/-- The state of a slot. -/
inductive SlotState
  | disabled
  | unknown
  | connected
  | connecting
  | disconnected
deriving DecidableEq

namespace SlotState

/-- The word in the report. -/
def text : SlotState → Text
  | disabled => str "disabled"
  | unknown => str "unknown"
  | connected => str "connected"
  | connecting => str "connecting"
  | disconnected => str "disconnected"

/-- The error that goes with it, for a slot that passed its check. -/
def error : SlotState → Text
  | disabled => []
  | unknown => str "host is not an IPv4 snapshot key"
  | connected => []
  | connecting => str "waiting for p2p snapshot"
  | disconnected => str "not present in p2p snapshot"

theorem text_inj {s t : SlotState} : s.text = t.text ↔ s = t := by
  cases s <;> cases t <;> decide

theorem copyStr_text (s : SlotState) : (copyStr s.text : CStr fieldBridgeStateMax).val = s.text := by
  cases s <;> decide

theorem copyStr_error (s : SlotState) :
    (copyStr s.error : CStr fieldBridgeErrorMax).val = s.error := by
  cases s <;> decide

end SlotState

/-- The device waits for the broker to start. -/
def Requested (r : RuntimeState) : Prop := r.runtimeStatus.brokerState.val = str "requested"

instance (r : RuntimeState) : Decidable (Requested r) := by unfold Requested; infer_instance

/-- The state of a slot that passed its check: what its host spells, and whether that is in the
snapshot. -/
def slotState (p2p : P2p) (r : RuntimeState) (peer : FieldBridgePeer) : SlotState :=
  if peer.enabled = 0 then .disabled
  else
    match p2p.inetPton peer.host.text with
    | none => .unknown
    | some addr =>
      if (addr, peer.p2pPort) ∈ p2p.snapshot then .connected
      else if Requested r then .connecting
      else .disconnected

variable {p2p : P2p} {r : RuntimeState} {peer : FieldBridgePeer}

theorem snapshotContainsPeer_some {addr : UInt32} (h : p2p.inetPton peer.host.text = some addr) :
    snapshotContainsPeer p2p peer = some (decide ((addr, peer.p2pPort) ∈ p2p.snapshot)) := by
  unfold snapshotContainsPeer
  rw [h, Option.map_some, Option.some.injEq, Bool.eq_iff_iff, List.any_eq_true, decide_eq_true_eq]
  constructor
  · rintro ⟨s, hs, heq⟩
    rw [Bool.and_eq_true, decide_eq_true_eq, decide_eq_true_eq] at heq
    have hseed : s = (addr, peer.p2pPort) := Prod.ext heq.1 heq.2
    exact hseed ▸ hs
  · intro hs
    exact ⟨_, hs, by simp⟩

/-- The report of a slot that passed its check. -/
theorem peerState_eq (h : PeerValid peer) :
    peerState p2p r peer = ((slotState p2p r peer).text, (slotState p2p r peer).error) := by
  unfold peerState slotState
  by_cases hdis : peer.enabled = 0
  · rw [if_pos hdis, if_pos hdis]
    rfl
  obtain ⟨hhost, -, hport⟩ := h.usable hdis
  rw [if_neg hdis, if_neg hdis, if_neg (not_or.mpr ⟨hhost, hport⟩)]
  rcases haddr : p2p.inetPton peer.host.text with _ | addr
  · have hnone : snapshotContainsPeer p2p peer = none := by
      unfold snapshotContainsPeer
      rw [haddr, Option.map_none]
    rw [hnone]
    rfl
  · rw [snapshotContainsPeer_some haddr]
    by_cases hin : (addr, peer.p2pPort) ∈ p2p.snapshot
    · rw [decide_eq_true hin]
      dsimp only
      rw [if_pos hin]
      rfl
    · rw [decide_eq_false hin]
      dsimp only
      rw [if_neg hin]
      by_cases hreq : Requested r
      · rw [if_pos hreq]
        exact if_pos hreq
      · rw [if_neg hreq]
        exact if_neg hreq

/-! ### When a slot is in which state -/

/-- The slot is enabled, and the snapshot has the address and the port of it. -/
def InSnapshot (p2p : P2p) (peer : FieldBridgePeer) : Prop :=
  peer.enabled ≠ 0 ∧
    ∃ addr, p2p.inetPton peer.host.text = some addr ∧ (addr, peer.p2pPort) ∈ p2p.snapshot

/-- The slot is enabled and has an address, which with its port is not in the snapshot. -/
def NotInSnapshot (p2p : P2p) (peer : FieldBridgePeer) : Prop :=
  peer.enabled ≠ 0 ∧
    ∃ addr, p2p.inetPton peer.host.text = some addr ∧ (addr, peer.p2pPort) ∉ p2p.snapshot

theorem slotState_iff :
    (slotState p2p r peer = .disabled ↔ peer.enabled = 0) ∧
    (slotState p2p r peer = .unknown ↔ peer.enabled ≠ 0 ∧ p2p.inetPton peer.host.text = none) ∧
    (slotState p2p r peer = .connected ↔ InSnapshot p2p peer) ∧
    (slotState p2p r peer = .connecting ↔ NotInSnapshot p2p peer ∧ Requested r) ∧
    (slotState p2p r peer = .disconnected ↔ NotInSnapshot p2p peer ∧ ¬ Requested r) := by
  unfold slotState InSnapshot NotInSnapshot
  by_cases hdis : peer.enabled = 0
  · rw [if_pos hdis]
    simp [hdis]
  rw [if_neg hdis]
  rcases p2p.inetPton peer.host.text with _ | addr
  · simp [hdis]
  by_cases hin : (addr, peer.p2pPort) ∈ p2p.snapshot
  · simp [hdis, hin]
  by_cases hreq : Requested r
  · simp [hdis, hin, hreq]
  · simp [hdis, hin, hreq]

/-! ### The report -/

/-- The record `s` describes slot `k`, which holds `peer`. -/
structure StatusOf (p2p : P2p) (r : RuntimeState) (k : ℕ) (peer : FieldBridgePeer)
    (s : FieldBridgePeerStatus) : Prop where
  index : s.index.toNat = k
  name : s.name.val = peer.name.text.take (fieldBridgeNameMax - 1)
  name_whole : peer.name.Terminated → s.name.val = peer.name.text
  host : s.host.val = peer.host.text.take (fieldBridgeHostMax - 1)
  host_whole : peer.host.Terminated → s.host.val = peer.host.text
  p2pPort : s.p2pPort = peer.p2pPort
  enabled : s.enabled = peer.enabled
  disabled : s.state.val = str "disabled" ↔ peer.enabled = 0
  connected : s.state.val = str "connected" ↔ InSnapshot p2p peer
  connected_error : s.state.val = str "connected" → s.lastError.val = []
  connecting : s.state.val = str "connecting" ↔ NotInSnapshot p2p peer ∧ Requested r
  disconnected : s.state.val = str "disconnected" ↔ NotInSnapshot p2p peer ∧ ¬ Requested r
  unknown : s.state.val = str "unknown" ↔
    peer.enabled ≠ 0 ∧ p2p.inetPton peer.host.text = none

/-- A name that was copied into a field of its own size. -/
theorem copyStr_take {n : ℕ} (a : CharArray (n + 1)) :
    (copyStr a.text : CStr (n + 1)).val = a.text.take n := by
  have hcstr : cstr a.text = a.text := cstr_of_notMem a.zero_notMem_text
  exact congrArg (List.take n) hcstr

theorem copyStr_whole {n : ℕ} {a : CharArray (n + 1)} (h : a.Terminated) :
    (copyStr a.text : CStr (n + 1)).val = a.text := by
  have hlen : a.text.length ≤ n := Nat.le_of_lt_succ (CharArray.length_text_lt h)
  rw [copyStr_take, List.take_of_length_le hlen]

/-- The state and the error of a record, for a slot that passed its check. -/
theorem peerStatus_state (h : PeerValid peer) (k : ℕ) :
    (peerStatus p2p r k peer).state.val = (slotState p2p r peer).text ∧
      (peerStatus p2p r k peer).lastError.val = (slotState p2p r peer).error := by
  have hstate : (peerStatus p2p r k peer).state = copyStr (peerState p2p r peer).1 := rfl
  have herror : (peerStatus p2p r k peer).lastError = copyStr (peerState p2p r peer).2 := rfl
  rw [hstate, herror, peerState_eq h]
  exact ⟨SlotState.copyStr_text _, SlotState.copyStr_error _⟩

theorem statusOf_peerStatus (h : PeerValid peer) {k : ℕ} (hk : k < 256) :
    StatusOf p2p r k peer (peerStatus p2p r k peer) := by
  obtain ⟨hstate, herror⟩ := @peerStatus_state p2p r peer h k
  have hword : ∀ t : SlotState, (peerStatus p2p r k peer).state.val = t.text ↔
      slotState p2p r peer = t := by
    intro t
    rw [hstate, SlotState.text_inj]
  obtain ⟨hdis, hunk, hconn, hing, hdisc⟩ := @slotState_iff p2p r peer
  exact {
    index := by
      show (UInt8.ofNat k).toNat = k
      rw [UInt8.toNat_ofNat']
      omega
    name := copyStr_take peer.name
    name_whole := copyStr_whole
    host := copyStr_take peer.host
    host_whole := copyStr_whole
    p2pPort := rfl
    enabled := rfl
    disabled := (hword .disabled).trans hdis
    connected := (hword .connected).trans hconn
    connected_error := fun hc => by
      rw [herror, (hword .connected).mp hc]
      rfl
    connecting := (hword .connecting).trans hing
    disconnected := (hword .disconnected).trans hdisc
    unknown := (hword .unknown).trans hunk }

/-! ### The report and the seeds -/

/-- The calls of `p2p_static_seed_add` that `bridge_control_apply_peers` makes. -/
def seedCalls (w : World) (a : App) : List SeedCall :=
  (applyPeersOver w.p2p.inetPton (fun _ => w.seedAdd) a.config.settings (peerList a.config)
    a.seeds).calls

/-- A state of a slot that asks for a seed. -/
abbrev Asks (t : Text) : Prop := t ≠ str "disabled" ∧ t ≠ str "unknown"

/-- The slots that are asked for are those with an address. -/
theorem eligible_iff (h : PeerValid peer) :
    (∃ seed, Eligible p2p.inetPton peer seed) ↔
      Asks (slotState p2p r peer).text := by
  obtain ⟨hdis, hunk, -⟩ := @slotState_iff p2p r peer
  have hdis' := (SlotState.text_inj (t := .disabled)).trans hdis
  have hunk' := (SlotState.text_inj (t := .unknown)).trans hunk
  refine Iff.trans ?_ (and_congr (not_congr hdis') (not_congr hunk')).symm
  constructor
  · rintro ⟨seed, hs⟩
    refine ⟨hs.enabled, fun hnone => ?_⟩
    rw [hs.addr] at hnone
    exact Option.some_ne_none _ hnone.2
  · rintro ⟨hen, hsome⟩
    obtain ⟨hhost, hmqtt, hport⟩ := h.usable hen
    obtain ⟨addr, haddr⟩ := Option.ne_none_iff_exists'.mp fun hnone => hsome ⟨hen, hnone⟩
    have htext : peer.host.text ≠ [] := fun h0 => hhost (CharArray.text_eq_nil_iff.mp h0)
    exact ⟨(addr, peer.p2pPort), hen, htext, hmqtt, hport, haddr, rfl⟩

theorem length_peerList (c : ConfigState) : (peerList c).length = fieldBridgePeerMax := by
  unfold peerList
  rw [List.length_map, List.length_finRange]

theorem getElem?_peerList (c : ConfigState) (i : Fin fieldBridgePeerMax) :
    (peerList c)[i.val]? = some (c.peers i) := by
  unfold peerList
  rw [List.getElem?_map, List.getElem?_eq_getElem (by rw [List.length_finRange]; exact i.isLt),
    List.getElem_finRange]
  rfl

/-- The records of a report over all slots are numbered. -/
theorem index_peerStatuses (p2p : P2p) (r : RuntimeState) {peers : List FieldBridgePeer}
    (hlen : peers.length ≤ 256) :
    (peers.mapIdx (peerStatus p2p r)).map (·.index.toNat) = List.range peers.length := by
  refine List.ext_getElem (by simp) fun i hi hi' => ?_
  rw [List.length_range] at hi'
  rw [List.getElem_map, List.getElem_mapIdx, List.getElem_range]
  show (UInt8.ofNat i).toNat = i
  rw [UInt8.toNat_ofNat']
  omega

/-- The slots of a report whose state asks for a seed. -/
theorem mem_asking {peers : List FieldBridgePeer} (hvalid : ∀ peer ∈ peers, PeerValid peer)
    (hlen : peers.length ≤ 256) (k : ℕ) :
    k ∈ ((peers.mapIdx (peerStatus p2p r)).filter fun s => Asks s.state.val).map (·.index.toNat) ↔
      ∃ peer, peers[k]? = some peer ∧ Asks (slotState p2p r peer).text := by
  rw [List.mem_map]
  constructor
  · rintro ⟨s, hs, rfl⟩
    obtain ⟨hmem, hasks⟩ := List.mem_filter.mp hs
    obtain ⟨j, hj, rfl⟩ := List.mem_mapIdx.mp hmem
    have hpeer := hvalid _ (List.getElem_mem hj)
    have hindex : (peerStatus p2p r j peers[j]).index.toNat = j :=
      (statusOf_peerStatus hpeer (by omega)).index
    rw [hindex]
    rw [decide_eq_true_eq, (peerStatus_state hpeer j).1] at hasks
    exact ⟨peers[j], List.getElem?_eq_getElem hj, hasks⟩
  · rintro ⟨peer, hget, hasks⟩
    obtain ⟨hk, rfl⟩ := List.getElem?_eq_some_iff.mp hget
    have hpeer := hvalid _ (List.getElem_mem hk)
    refine ⟨peerStatus p2p r k peers[k], List.mem_filter.mpr ⟨?_, ?_⟩, ?_⟩
    · exact List.mem_mapIdx.mpr ⟨k, hk, rfl⟩
    · rw [decide_eq_true_eq, (peerStatus_state hpeer k).1]
      exact hasks
    · exact (statusOf_peerStatus hpeer (by omega)).index

/-- The seeds that the device asks for. -/
theorem rebuilds_seedCalls (w : World) (a : App) (hbridge : a.config.settings.broker.bridgeEnabled = 1) :
    Rebuilds w.p2p.inetPton (fun _ => w.seedAdd) 0 (peerList a.config) ⟨[], 0, []⟩ (seedCalls w a) :=
  rebuilds_applyPeersOver (by rw [hbridge]; decide)

/-- The slots that a run over valid slots asks for. -/
theorem Rebuilds.mem_slots {answer : ℕ → List Seed → Seed → Bool} {peers : List FieldBridgePeer}
    {calls : List SeedCall} (h : Rebuilds p2p.inetPton answer 0 peers ⟨[], 0, []⟩ calls)
    (hvalid : ∀ peer ∈ peers, PeerValid peer) (k : ℕ) :
    k ∈ calls.map (·.slot) ↔
      ∃ peer, peers[k]? = some peer ∧ Asks (slotState p2p r peer).text := by
  rw [List.mem_map]
  constructor
  · rintro ⟨c, hc, rfl⟩
    obtain ⟨j, peer, hj, hget, hel⟩ := (h.asked c.slot c.seed).mp ⟨c, hc, rfl, rfl⟩
    have hpeer := hvalid peer (List.mem_of_getElem? hget)
    rw [Nat.zero_add] at hj
    exact ⟨peer, hj ▸ hget, (eligible_iff hpeer).mp ⟨c.seed, hel⟩⟩
  · rintro ⟨peer, hget, hasks⟩
    have hpeer := hvalid peer (List.mem_of_getElem? hget)
    obtain ⟨seed, hel⟩ := (eligible_iff hpeer).mpr hasks
    obtain ⟨c, hc, hslot, -⟩ := (h.asked k seed).mpr ⟨k, peer, (Nat.zero_add k).symm, hget, hel⟩
    exact ⟨c, hc, hslot⟩

/-- **The peer status, the snapshot and the seeds agree.** A report over valid slots has one record
for each slot there is room for, which says what `StatusOf` says; and with the bridge enabled and
room for all slots, the seed table is asked for exactly the slots that are neither disabled nor
unknown in it. -/
theorem peerStatuses_agree (w : World) (a : App) (max : ℤ) (hmax : 0 < max)
    (hvalid : ∀ i, validatePeer (a.config.peers i) = .ok) :
    ∃ statuses, productRuntimeGetPeerStatuses w.p2p a.runtime (peerList a.config) max =
        some statuses ∧
      (statuses.length : ℤ) = min max fieldBridgePeerMax ∧
      (∀ (i : Fin fieldBridgePeerMax) (s : FieldBridgePeerStatus), statuses[i.val]? = some s →
        StatusOf w.p2p a.runtime i (a.config.peers i) s) ∧
      (a.config.settings.broker.bridgeEnabled = 1 → (fieldBridgePeerMax : ℤ) ≤ max →
        (seedCalls w a).map (·.slot) =
          (statuses.filter fun s =>
            s.state.val ≠ str "disabled" ∧ s.state.val ≠ str "unknown").map (·.index.toNat)) := by
  have hlist := length_peerList a.config
  have hsmall : (peerList a.config).length ≤ 256 := by
    rw [hlist]
    decide
  refine ⟨_, if_neg (by omega), ?_, fun i s hs => ?_, fun hbridge hroom => ?_⟩
  · rw [List.length_mapIdx, List.length_take, hlist]
    omega
  · have hpeer := validatePeer_ok_iff.mp (hvalid i)
    rw [List.getElem?_mapIdx, Option.map_eq_some_iff] at hs
    obtain ⟨peer, htake, rfl⟩ := hs
    have hget : (peerList a.config)[i.val]? = some peer := by
      rw [List.getElem?_take] at htake
      split_ifs at htake
      exact htake
    rw [getElem?_peerList, Option.some.injEq] at hget
    rw [← hget]
    exact statusOf_peerStatus hpeer (lt_of_lt_of_le i.isLt (hlist ▸ hsmall))
  · have hall : (peerList a.config).take max.toNat = peerList a.config :=
      List.take_of_length_le (by omega)
    rw [hall]
    have hpeers : ∀ peer ∈ peerList a.config, PeerValid peer := by
      intro peer hpeer
      obtain ⟨i, -, rfl⟩ := List.mem_map.mp hpeer
      exact validatePeer_ok_iff.mp (hvalid i)
    have hcalls := rebuilds_seedCalls w a hbridge
    have hnumbers := @index_peerStatuses w.p2p a.runtime (peerList a.config) hsmall
    -- both sides are increasing, so it is enough that they have the same members
    refine hcalls.ordered.eq_of_mem_iff ?_ fun k => ?_
    · refine List.Pairwise.sublist (List.filter_sublist.map _) ?_
      rw [hnumbers]
      exact List.pairwise_lt_range
    · exact (hcalls.mem_slots hpeers k).trans (mem_asking hpeers hsmall k).symm

/-- A p2p stack that sees the first of the two hosts. -/
def seenWorld : World :=
  { World.good with p2p := ⟨[(0x0a580003, 4884)], none, twoHosts⟩ }

/-- A device with a slot that is seen and one that has a name for a host. -/
def seenApp : App where
  config :=
    { freshConfig with
      settings := bridgeSettings
      peers := fun i => if i.val = 0 then slotAt (str "10.88.0.3") else slotAt (str "node.local") }
  runtime := productRuntimeInit
  seeds := []

theorem peerStatuses_agree_seen :
    (∀ i, validatePeer (seenApp.config.peers i) = .ok) ∧
      ∃ statuses, productRuntimeGetPeerStatuses seenWorld.p2p seenApp.runtime
          (peerList seenApp.config) 2 = some statuses ∧
        statuses.map (·.state.val) = [str "connected", str "unknown"] ∧
        (seedCalls seenWorld seenApp).map (·.slot) = [0] := by
  have hvalid : ∀ i, validatePeer (seenApp.config.peers i) = .ok := by decide
  obtain ⟨statuses, hstatuses, -, -, hasks⟩ :=
    peerStatuses_agree seenWorld seenApp 2 (by decide) hvalid
  have hreport : statuses = (peerList seenApp.config).mapIdx
      (peerStatus seenWorld.p2p seenApp.runtime) := (Option.some.inj hstatuses).symm
  refine ⟨hvalid, statuses, hstatuses, ?_, ?_⟩
  · rw [hreport]
    decide
  · rw [hasks rfl (by decide), hreport]
    decide

end MqttFieldBridge.Runtime
