import MqttFieldBridge.Runtime.PeerStatus

/-! # The two status reports

`product_runtime_get_status` counts the snapshot only while the broker is running or requested,
`product_runtime_get_peer_statuses` looks a slot up in it at any time. So the reports agree while
the last call that set the broker state was a start or a request (`connected_agree`); after a stop
or an error a slot may be reported as connected beside a count of none. -/

namespace MqttFieldBridge.Runtime

open MqttFieldBridge.CLib MqttFieldBridge.Config

/-- The states of the broker. -/
inductive BrokerWord
  | stopped
  | requested
  | running
  | error
deriving DecidableEq

/-- The word in the status. -/
def BrokerWord.text : BrokerWord → Text
  | stopped => str "stopped"
  | requested => str "requested"
  | running => str "running"
  | error => str "error"

/-- A call that may change the globals of `product_runtime.c`. -/
inductive RuntimeCall
  | init
  | networkStart (settings : FieldBridgeSettings)
  | brokerStarted
  | brokerFailed (error : Text)
  | setBrokerEnabled (enabled : UInt8)
  | getStatus (p2p : P2p)
  | recordPublishTest (test : FieldBridgePublishTest)

namespace RuntimeCall

def perform : RuntimeCall → RuntimeState → RuntimeState
  | init, _ => productRuntimeInit
  | networkStart settings, r => productRuntimeNetworkStart settings r
  | brokerStarted, r => productRuntimeBrokerStarted r
  | brokerFailed error, r => productRuntimeBrokerFailed error r
  | setBrokerEnabled enabled, r => (productRuntimeSetBrokerEnabled enabled r).2
  | getStatus p2p, r => productRuntimeGetStatus p2p r
  | recordPublishTest test, r => (productRuntimeRecordPublishTest test r).2

/-- The broker state a call sets, if it sets it. -/
def sets : RuntimeCall → Option BrokerWord
  | init => some .stopped
  | networkStart _ => none
  | brokerStarted => some .running
  | brokerFailed _ => some .error
  | setBrokerEnabled enabled =>
    if enabled > 1 then none else if enabled ≠ 0 then some .requested else some .stopped
  | getStatus _ => none
  | recordPublishTest _ => none

end RuntimeCall

/-- The state after these calls. -/
def runCalls (calls : List RuntimeCall) : RuntimeState :=
  calls.foldl (fun r c => c.perform r) productRuntimeInit

/-- The broker state that was set last. -/
def lastSet (calls : List RuntimeCall) : BrokerWord :=
  calls.foldl (fun b c => c.sets.getD b) .stopped

/-- The broker is running or requested. -/
def BrokerWord.Up (b : BrokerWord) : Prop := b = .running ∨ b = .requested

instance (b : BrokerWord) : Decidable b.Up := by unfold BrokerWord.Up; infer_instance

theorem BrokerWord.copyStr_text (b : BrokerWord) :
    (copyStr b.text : CStr fieldBridgeStateMax).val = b.text := by
  cases b <;> decide

/-- What one call does to the broker state. -/
theorem brokerState_perform {r : RuntimeState} {b : BrokerWord}
    (h : r.runtimeStatus.brokerState.val = b.text) (c : RuntimeCall) :
    (c.perform r).runtimeStatus.brokerState.val = (c.sets.getD b).text := by
  cases c with
  | init => exact BrokerWord.copyStr_text .stopped
  | networkStart settings => exact h
  | brokerStarted => exact BrokerWord.copyStr_text .running
  | brokerFailed error => exact BrokerWord.copyStr_text .error
  | setBrokerEnabled enabled =>
    show (productRuntimeSetBrokerEnabled enabled r).2.runtimeStatus.brokerState.val =
      (Option.getD (if enabled > 1 then none
        else if enabled ≠ 0 then some .requested else some .stopped) b).text
    unfold productRuntimeSetBrokerEnabled
    by_cases hbig : enabled > 1
    · rw [if_pos hbig, if_pos hbig]
      exact h
    rw [if_neg hbig, if_neg hbig]
    by_cases hen : enabled ≠ 0
    · rw [if_pos hen, if_pos hen]
      exact BrokerWord.copyStr_text .requested
    · rw [if_neg hen, if_neg hen]
      exact BrokerWord.copyStr_text .stopped
  | getStatus p2p => exact (congrArg CStr.val getStatus_kept.2).trans h
  | recordPublishTest test =>
    show (productRuntimeRecordPublishTest test r).2.runtimeStatus.brokerState.val = b.text
    unfold productRuntimeRecordPublishTest
    split_ifs
    · exact h
    · exact h

/-- The broker state is the one that was set last. -/
theorem brokerState_runCalls (calls : List RuntimeCall) :
    (runCalls calls).runtimeStatus.brokerState.val = (lastSet calls).text := by
  unfold runCalls lastSet
  have hinit : productRuntimeInit.runtimeStatus.brokerState.val = BrokerWord.stopped.text :=
    BrokerWord.copyStr_text .stopped
  generalize productRuntimeInit = r at hinit ⊢
  generalize BrokerWord.stopped = b at hinit ⊢
  induction calls generalizing r b with
  | nil => exact hinit
  | cons c calls ih => exact ih _ _ (brokerState_perform hinit c)

/-- The count of the first report. -/
theorem connectedPeers_getStatus (p2p : P2p) (calls : List RuntimeCall) :
    (productRuntimeGetStatus p2p (runCalls calls)).runtimeStatus.connectedPeers =
      if (lastSet calls).Up then UInt8.ofNat p2p.snapshot.length else 0 := by
  have hword : ∀ b : BrokerWord, (b.text = str "running" ∨ b.text = str "requested") ↔ b.Up := by
    intro b
    cases b <;> decide
  have hstate := brokerState_runCalls calls
  have hup := hword (lastSet calls)
  rw [← hstate] at hup
  unfold productRuntimeGetStatus
  dsimp only
  by_cases h : (lastSet calls).Up
  · rw [if_pos h, if_pos (hup.mpr h)]
  · rw [if_neg h, if_neg (mt hup.mp h)]

/-- A slot is reported as connected exactly if it is in the snapshot, whatever the broker does. -/
theorem connected_iff {p2p : P2p} {r : RuntimeState} {peers : List FieldBridgePeer} {max : ℤ}
    {statuses : List FieldBridgePeerStatus}
    (hvalid : ∀ peer ∈ peers, validatePeer peer = .ok)
    (h : productRuntimeGetPeerStatuses p2p r peers max = some statuses) :
    (∃ s ∈ statuses, s.state.val = str "connected") ↔
      ∃ peer ∈ peers.take max.toNat, InSnapshot p2p peer := by
  unfold productRuntimeGetPeerStatuses at h
  split_ifs at h
  rw [Option.some.injEq] at h
  have hstate : ∀ (k : ℕ) peer, peer ∈ peers.take max.toNat →
      ((peerStatus p2p r k peer).state.val = str "connected" ↔ InSnapshot p2p peer) := by
    intro k peer hpeer
    have hok := validatePeer_ok_iff.mp (hvalid peer (List.mem_of_mem_take hpeer))
    rw [(peerStatus_state hok k).1]
    exact (SlotState.text_inj (t := .connected)).trans slotState_iff.2.2.1
  constructor
  · rintro ⟨s, hs, hconn⟩
    rw [← h] at hs
    obtain ⟨k, hk, rfl⟩ := List.mem_mapIdx.mp hs
    have hmem := List.getElem_mem hk
    exact ⟨_, hmem, (hstate k _ hmem).mp hconn⟩
  · rintro ⟨peer, hpeer, hin⟩
    obtain ⟨k, hk, rfl⟩ := List.getElem_of_mem hpeer
    refine ⟨_, ?_, (hstate k _ hpeer).mpr hin⟩
    rw [← h]
    exact List.mem_mapIdx.mpr ⟨k, hk, rfl⟩

/-- If some slot is reported as connected, there is a connected peer in the status. -/
def ReportsAgree (p2p : P2p) (r : RuntimeState) (peers : List FieldBridgePeer) (max : ℤ) : Prop :=
  ∀ statuses, productRuntimeGetPeerStatuses p2p r peers max = some statuses →
    (∃ s ∈ statuses, s.state.val = str "connected") →
    1 ≤ (productRuntimeGetStatus p2p r).runtimeStatus.connectedPeers

/-- **While the broker is up, the reports agree.** After any calls: if the last one that set the
broker state was a start or a request, a slot that is reported as connected is counted. Otherwise
the count is none, and the slots are still looked up in the snapshot. -/
theorem connected_agree (calls : List RuntimeCall) (p2p : P2p) (peers : List FieldBridgePeer)
    (max : ℤ) (hfits : p2p.snapshot.length < 256) (hvalid : ∀ peer ∈ peers, validatePeer peer = .ok) :
    ((lastSet calls).Up → ReportsAgree p2p (runCalls calls) peers max) ∧
      (¬ (lastSet calls).Up →
        (productRuntimeGetStatus p2p (runCalls calls)).runtimeStatus.connectedPeers = 0 ∧
        ∀ statuses, productRuntimeGetPeerStatuses p2p (runCalls calls) peers max = some statuses →
          ((∃ s ∈ statuses, s.state.val = str "connected") ↔
            ∃ peer ∈ peers.take max.toNat, InSnapshot p2p peer)) := by
  have hcount := connectedPeers_getStatus p2p calls
  refine ⟨fun hup statuses h hconn => ?_, fun hdown => ⟨?_, fun statuses h => ?_⟩⟩
  · obtain ⟨peer, -, -, addr, -, hmem⟩ := (connected_iff hvalid h).mp hconn
    have hpos : 0 < p2p.snapshot.length := List.length_pos_of_mem hmem
    rw [hcount, if_pos hup, UInt8.le_iff_toNat_le, UInt8.toNat_ofNat', Nat.mod_eq_of_lt hfits]
    exact hpos
  · rw [hcount, if_neg hdown]
  · exact connected_iff hvalid h

/-- A broker that was started, and the slot that is seen. -/
theorem connected_agree_started :
    ReportsAgree seenWorld.p2p (runCalls [.setBrokerEnabled 1, .brokerStarted])
      [slotAt (str "10.88.0.3")] 2 :=
  (connected_agree _ _ _ _ (by decide) (by decide)).1 (by decide)

/-- After a stop the slot is still connected, and nobody is counted. -/
theorem connected_stopped :
    ¬ ReportsAgree seenWorld.p2p (runCalls [.brokerStarted, .setBrokerEnabled 0])
      [slotAt (str "10.88.0.3")] 2 := by
  intro h
  have hcount := h _ rfl (by decide)
  exact absurd hcount (by decide)

end MqttFieldBridge.Runtime
