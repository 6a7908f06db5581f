import MqttFieldBridge.Boot.Broker
import MqttFieldBridge.Lts.Pace

/-! # Lost peers

An iteration of the main loop of a build for the W5500, with the clock and the variables of the loop; to
the device it is the iteration without them (`mainLoopTurn_node`). When the broker has run for a while,
the mesh and a slot are enabled and no peer is connected, the loop warns. What it remembers in times
that are `0` if there is none is the last warning since a peer was found (`warnings_eq`). However the
iterations fall, it warns at the first look that finds no peer, and then again and again, more than a
minute after the warning before and not much later, until a look finds one (`lostPeers_told`). -/

namespace MqttFieldBridge.Boot

open MqttFieldBridge.CLib MqttFieldBridge.Config MqttFieldBridge.Runtime MqttFieldBridge.Lts

def meshPeerLossGraceMs : ℤ := 90000
def meshPeerLossLogMs : ℤ := 60000

/-- `enabled_peer_count` -/
def enabledPeerCount (c : ConfigState) : ℕ := (peerList c).countP fun peer => peer.enabled ≠ 0

/-- What `k_uptime_get` returns in an iteration, which calls it up to three times. -/
structure Uptime where
  first : ℤ
  second : ℤ
  third : ℤ
  pos : 0 < first
  second_ge : first ≤ second
  third_ge : second ≤ third

/-- The variables of the loop. -/
structure LoopVars where
  brokerStartedMs : ℤ
  peerZeroSinceMs : ℤ
  peerZeroLastLogMs : ℤ

def LoopVars.zero : LoopVars := ⟨0, 0, 0⟩

/-- The warnings that the loop logs. -/
inductive Warning where
  | allDisconnected
  | stillDisconnected
deriving DecidableEq

/-- The device between two iterations. -/
structure LoopPoint where
  vars : LoopVars
  node : Node

/-- What the loop does when it has asked for the status. -/
def peersSeen (connected : UInt8) (t : Uptime) (v : LoopVars) : LoopVars × Option Warning :=
  if connected = 0 then
    if v.peerZeroSinceMs = 0 then
      ({ v with peerZeroSinceMs := t.second, peerZeroLastLogMs := t.second }, some .allDisconnected)
    else if t.second - v.peerZeroLastLogMs > meshPeerLossLogMs then
      ({ v with peerZeroLastLogMs := t.third }, some .stillDisconnected)
    else (v, none)
  else ({ v with peerZeroSinceMs := 0, peerZeroLastLogMs := 0 }, none)

/-- Whether the loop asks for the status. The settings are those of the run. -/
def asksStatus (settings : FieldBridgeSettings) (t : Uptime) (s : LoopPoint) : Bool :=
  settings.broker.meshEnabled ≠ 0 ∧ 0 < enabledPeerCount s.node.app.config ∧
    0 < s.vars.brokerStartedMs ∧ t.first - s.vars.brokerStartedMs > meshPeerLossGraceMs

/-- An iteration of the loop, and what it logs. -/
def mainLoopTurn (settings : FieldBridgeSettings) (b : BrokerLib) (w : World) (t : Uptime)
    (s : LoopPoint) : LoopPoint × Option Warning :=
  let requested := productConfigGetSettings s.node.app.config
  if !s.node.brokerThreadStarted then
    let r := startBrokerService b w requested s.node
    if r.1 = .ok then
      (⟨{ s.vars with brokerStartedMs := t.first, peerZeroSinceMs := 0 }, r.2⟩, none)
    else (⟨s.vars, r.2⟩, none)
  else if productRuntimeBrokerStartRequested s.node.app.runtime then
    (⟨s.vars, (startBrokerService b w requested s.node).2⟩, none)
  else if asksStatus settings t s then
    let runtime := productRuntimeGetStatus w.p2p s.node.app.runtime
    let r := peersSeen runtime.runtimeStatus.connectedPeers t s.vars
    (⟨r.1, { s.node with app.runtime := runtime }⟩, r.2)
  else (s, none)

variable {settings : FieldBridgeSettings} {b : BrokerLib} {w : World} {t : Uptime} {s : LoopPoint}

/-- To the device an iteration is what it is without the clock. -/
theorem mainLoopTurn_node : (mainLoopTurn settings b w t s).1.node =
    mainLoopIteration b w (asksStatus settings t s) s.node := by
  unfold mainLoopTurn mainLoopIteration
  dsimp only
  split_ifs
  all_goals rfl

/-! ### Runs -/

/-- An iteration, or what others leave of the device between two: `main` alone starts the thread. -/
inductive LoopEvent where
  | turn (b : BrokerLib) (w : World) (t : Uptime)
  | others (a : App) (thread : BrokerThread)

def LoopEvent.run (settings : FieldBridgeSettings) (s : LoopPoint) : LoopEvent → LoopPoint
  | .turn b w t => (mainLoopTurn settings b w t s).1
  | .others a thread => { s with node := { s.node with app := a, thread := thread } }

/-- The warnings of a run. -/
def warnings (settings : FieldBridgeSettings) : List LoopEvent → LoopPoint → List (Uptime × Warning)
  | [], _ => []
  | .turn b w t :: es, s =>
    ((mainLoopTurn settings b w t s).2.map fun k => (t, k)).toList ++
      warnings settings es ((LoopEvent.turn b w t).run settings s)
  | e :: es, s => warnings settings es (e.run settings s)

/-- The number of connected peers, if an iteration looks for it. -/
def look (settings : FieldBridgeSettings) (w : World) (t : Uptime) (s : LoopPoint) : Option UInt8 :=
  if s.node.brokerThreadStarted ∧ ¬ productRuntimeBrokerStartRequested s.node.app.runtime ∧
      asksStatus settings t s then
    some (productRuntimeGetStatus w.p2p s.node.app.runtime).runtimeStatus.connectedPeers
  else none

/-- The looks of a run. -/
def looks (settings : FieldBridgeSettings) : List LoopEvent → LoopPoint → List (Uptime × UInt8)
  | [], _ => []
  | .turn b w t :: es, s =>
    ((look settings w t s).map fun k => (t, k)).toList ++
      looks settings es ((LoopEvent.turn b w t).run settings s)
  | e :: es, s => looks settings es (e.run settings s)

/-! ### What is told of the looks -/

/-- A warning is due again. -/
def WarningDue (last now : Uptime) : Prop := now.second - last.third > meshPeerLossLogMs

instance : DecidableRel WarningDue := fun last now =>
  inferInstanceAs (Decidable (now.second - last.third > meshPeerLossLogMs))

/-- The warning for a look, when the last one, if no peer has been found since, was at `last`. -/
def toldNow (last : Option ℤ) (p : Uptime × UInt8) : Option Warning :=
  if p.2 ≠ 0 then none
  else
    match last with
    | none => some .allDisconnected
    | some m => if p.1.second - m > meshPeerLossLogMs then some .stillDisconnected else none

/-- The time of the last warning then. -/
def toldLast (last : Option ℤ) (p : Uptime × UInt8) : Option ℤ :=
  if p.2 ≠ 0 then none
  else
    match last with
    | none => some p.1.second
    | some m => if p.1.second - m > meshPeerLossLogMs then some p.1.third else some m

/-- The warnings for these looks. -/
def told : Option ℤ → List (Uptime × UInt8) → List (Uptime × Warning)
  | _, [] => []
  | last, p :: later => ((toldNow last p).map fun k => (p.1, k)).toList ++ told (toldLast last p) later

/-- What the variables remember. -/
def LoopVars.last (v : LoopVars) : Option ℤ :=
  if v.peerZeroSinceMs = 0 then none else some v.peerZeroLastLogMs

/-- No time is remembered while the broker's thread has not been started. -/
def Unstarted (s : LoopPoint) : Prop :=
  s.node.brokerThreadStarted = false → s.vars.peerZeroSinceMs = 0

/-- **What is seen is told** by the variables as by the time of the last warning. -/
theorem peersSeen_told (connected : UInt8) (t : Uptime) (v : LoopVars) :
    (peersSeen connected t v).2 = toldNow v.last (t, connected) ∧
      (peersSeen connected t v).1.last = toldLast v.last (t, connected) := by
  have hne : t.second ≠ 0 := (t.pos.trans_le t.second_ge).ne'
  unfold peersSeen toldNow toldLast LoopVars.last
  by_cases hc : connected = 0
  · by_cases hz : v.peerZeroSinceMs = 0
    · simp [hc, hz, hne]
    · by_cases hd : t.second - v.peerZeroLastLogMs > meshPeerLossLogMs
      · simp [hc, hz, hd]
      · simp [hc, hz, hd]
  · simp [hc]

/-- One iteration: a look is told, and without one nothing changes. -/
theorem mainLoopTurn_told (hs : Unstarted s) :
    Unstarted (mainLoopTurn settings b w t s).1 ∧
      match look settings w t s with
      | none => (mainLoopTurn settings b w t s).2 = none ∧
          (mainLoopTurn settings b w t s).1.vars.last = s.vars.last
      | some k => (mainLoopTurn settings b w t s).2 = toldNow s.vars.last (t, k) ∧
          (mainLoopTurn settings b w t s).1.vars.last = toldLast s.vars.last (t, k) := by
  unfold mainLoopTurn look Unstarted
  dsimp only
  cases hstarted : s.node.brokerThreadStarted with
  | false =>
    have hzero : s.vars.peerZeroSinceMs = 0 := hs hstarted
    by_cases hr : (startBrokerService b w (productConfigGetSettings s.node.app.config) s.node).1 = .ok
    · simp [hr, LoopVars.last, hzero]
    · simp [hr, hzero]
  | true =>
    have hsame := @startBrokerService_of_started b w
      (productConfigGetSettings s.node.app.config) s.node hstarted
    by_cases hreq : productRuntimeBrokerStartRequested s.node.app.runtime = true
    · simp [hreq, hsame, hstarted]
    · by_cases hask : asksStatus settings t s = true
      · have htold := peersSeen_told
          (productRuntimeGetStatus w.p2p s.node.app.runtime).runtimeStatus.connectedPeers t s.vars
        simp [hreq, hask, htold]
      · simp [hreq, hask, hstarted]

/-- **The warnings of a run** are what is told of its looks. -/
theorem warnings_eq : ∀ (es : List LoopEvent) (s : LoopPoint), Unstarted s →
    warnings settings es s = told s.vars.last (looks settings es s)
  | [], _, _ => rfl
  | .others a thread :: es, s, hs =>
    warnings_eq es { s with node := { s.node with app := a, thread := thread } } hs
  | .turn b w t :: es, s, hs => by
    obtain ⟨hnext, hturn⟩ := @mainLoopTurn_told settings b w t s hs
    have ih := warnings_eq es ((LoopEvent.turn b w t).run settings s) hnext
    unfold warnings looks
    rw [ih]
    cases hlook : look settings w t s with
    | none =>
      rw [hlook] at hturn
      rw [hturn.1]
      show told (mainLoopTurn settings b w t s).1.vars.last _ = _
      rw [hturn.2]
      rfl
    | some k =>
      rw [hlook] at hturn
      rw [hturn.1]
      show _ ++ told (mainLoopTurn settings b w t s).1.vars.last _ = _
      rw [hturn.2]
      rfl

/-! ### The time of grace -/

/-- Once the broker's thread has been started, the loop keeps the time. -/
theorem run_started (hs : s.node.brokerThreadStarted = true) (e : LoopEvent) :
    (e.run settings s).node.brokerThreadStarted = true ∧
      (e.run settings s).vars.brokerStartedMs = s.vars.brokerStartedMs := by
  cases e with
  | others a thread => exact ⟨hs, rfl⟩
  | turn b w t =>
    unfold LoopEvent.run mainLoopTurn
    dsimp only
    rw [hs, startBrokerService_of_started hs]
    split_ifs with hstopped hfailed hrequested hask
    · cases hstopped
    · cases hstopped
    · exact ⟨hs, rfl⟩
    · refine ⟨rfl, ?_⟩
      unfold peersSeen
      dsimp only
      split_ifs
      all_goals rfl
    · exact ⟨hs, rfl⟩

theorem foldl_started : ∀ (es : List LoopEvent) (s : LoopPoint), s.node.brokerThreadStarted = true →
    (es.foldl (LoopEvent.run settings) s).vars.brokerStartedMs = s.vars.brokerStartedMs
  | [], _, _ => rfl
  | e :: es, s, hs => by
    obtain ⟨hnext, hkept⟩ := @run_started settings s hs e
    rw [List.foldl_cons, foldl_started es _ hnext, hkept]

/-- The loop looks for peers only when the broker has run for a while. -/
theorem looks_grace : ∀ (es : List LoopEvent) (s : LoopPoint), ∀ q ∈ looks settings es s,
    q.1.first - (es.foldl (LoopEvent.run settings) s).vars.brokerStartedMs > meshPeerLossGraceMs
  | [], _, q, hq => absurd hq List.not_mem_nil
  | .others a thread :: es, s, q, hq => looks_grace es _ q hq
  | .turn b w t :: es, s, q, hq => by
    rcases List.mem_append.mp hq with hq | hq
    · obtain ⟨k, hlook, rfl⟩ := Option.map_eq_some_iff.mp (Option.mem_toList.mp hq)
      unfold look at hlook
      split_ifs at hlook with hasked
      obtain ⟨hstarted, -, hask⟩ := hasked
      unfold asksStatus at hask
      have hgrace := (of_decide_eq_true hask).2.2.2
      rw [foldl_started (.turn b w t :: es) s hstarted]
      exact hgrace
    · exact looks_grace es _ q hq

/-! ### An outage -/

variable {p : Uptime × UInt8} {later : List (Uptime × UInt8)} {last : Option ℤ} {Δ : ℤ}

theorem told_cons : told last (p :: later) =
    ((toldNow last p).map fun k => (p.1, k)).toList ++ told (toldLast last p) later := rfl

/-- What has been told stays told. -/
theorem told_append : ∀ (l : List (Uptime × UInt8)) (last : Option ℤ),
    told last (l ++ later) = told last l ++ told (l.foldl toldLast last) later
  | [], _ => rfl
  | p :: l, last => by
    rw [List.cons_append, told_cons, told_append l, ← List.append_assoc]
    rfl

/-- A look that finds a peer ends an outage. -/
theorem foldl_found {before : List (Uptime × UInt8)} (hfound : ∀ p ∈ before.getLast?, p.2 ≠ 0) :
    before.foldl toldLast none = none := by
  rcases List.eq_nil_or_concat before with rfl | ⟨l, p, rfl⟩
  · rfl
  · have hp : p.2 ≠ 0 := hfound p (by simp)
    rw [List.concat_eq_append, List.foldl_append]
    exact if_pos hp

/-- **The warnings of an outage** after the first are paced. -/
theorem told_outage : ∀ (outage : List (Uptime × UInt8)) (u : Uptime), (∀ p ∈ outage, p.2 = 0) →
    told (some u.third) outage =
      (ticks WarningDue u (outage.map Prod.fst)).map fun t => (t, .stillDisconnected)
  | [], _, _ => rfl
  | (t, k) :: outage, u, hlost => by
    obtain ⟨hk, hlater⟩ := List.forall_mem_cons.mp hlost
    have hk0 : k = 0 := hk
    subst hk0
    rw [told_cons, List.map_cons]
    by_cases hdue : t.second - u.third > meshPeerLossLogMs
    · have hnow : toldNow (some u.third) (t, 0) = some .stillDisconnected := by
        simp [toldNow, hdue]
      have hlast : toldLast (some u.third) (t, 0) = some t.third := by
        simp [toldLast, hdue]
      have hticks : WarningDue u t := hdue
      rw [hnow, hlast, told_outage outage t hlater, ticks_of_due hticks]
      rfl
    · have hnow : toldNow (some u.third) (t, 0) = none := by
        simp [toldNow, hdue]
      have hlast : toldLast (some u.third) (t, 0) = some u.third := by
        simp [toldLast, hdue]
      have hticks : ¬ WarningDue u t := hdue
      rw [hnow, hlast, told_outage outage u hlater, ticks_of_not hticks]
      rfl

theorem told_mem : ∀ (l : List (Uptime × UInt8)) (last : Option ℤ), ∀ q ∈ told last l,
    q.1 ∈ l.map Prod.fst
  | [], _, q, hq => absurd hq List.not_mem_nil
  | p :: l, last, q, hq => by
    rcases List.mem_append.mp hq with hq | hq
    · obtain ⟨k, -, rfl⟩ := Option.map_eq_some_iff.mp (Option.mem_toList.mp hq)
      exact List.mem_cons_self
    · exact List.mem_cons_of_mem _ (told_mem l _ q hq)

/-- The first warning of an outage, with the time at which it is remembered. -/
def Uptime.warned (t : Uptime) : Uptime := { t with third := t.second, third_ge := le_rfl }

/-- The warnings `ws` follow the one at `t` while no look finds a peer: each is due, not more than `Δ`
late, and after the last of them none is due. -/
structure Paced (Δ : ℤ) (t : Uptime) (outage ws : List Uptime) : Prop where
  due : (t.warned :: ws).IsChain fun u v =>
    v.second - u.third > meshPeerLossLogMs ∧ v.second - u.third ≤ meshPeerLossLogMs + Δ
  last : ∀ v ∈ outage.getLast?, (t.warned :: ws).getLast (List.cons_ne_nil _ _) = v ∨
    v.second - ((t.warned :: ws).getLast (List.cons_ne_nil _ _)).third ≤ meshPeerLossLogMs

theorem paced_ticks {outage : List Uptime}
    (hnear : (t :: outage).IsChain fun u v => v.second - u.second ≤ Δ) :
    Paced Δ t outage (ticks WarningDue t.warned outage) := by
  have hchain : (t.warned :: outage).IsChain fun u v => v.second - u.second ≤ Δ := by
    cases outage with
    | nil => exact .singleton _
    | cons v outage =>
      obtain ⟨hv, hrest⟩ := List.isChain_cons_cons.mp hnear
      exact .cons_cons hv hrest
  refine ⟨?_, fun v hv => ?_⟩
  · refine @isChain_ticks_seen Uptime WarningDue (fun u v => v.second - u.second ≤ Δ) _ _
      (fun u v huv => ?_) (fun u x v hdue hxv => ?_) outage t.warned t.warned (Or.inl rfl) hchain
    · have hu := u.third_ge
      unfold meshPeerLossLogMs
      omega
    · unfold WarningDue meshPeerLossLogMs at hdue
      unfold meshPeerLossLogMs
      omega
  · rcases @getLast_ticks Uptime WarningDue _ outage t.warned v hv with h | h
    · exact Or.inl h
    · exact Or.inr (not_lt.mp h)

/-- **Lost peers are told of.** However the iterations of a run fall and whatever others do in between:
the first look that finds no peer is told of at once, and as long as no look finds one it is told of
again, more than a minute after the last time and at most `Δ` later than that if the looks are no more
than `Δ` apart. Nothing is told in the first minute and a half of the broker. -/
theorem lostPeers_told {es : List LoopEvent} {n : Node} {before outage after : List (Uptime × UInt8)}
    (hlooks : looks settings es ⟨.zero, n⟩ = before ++ ((t, 0) :: outage ++ after))
    (hfound : ∀ p ∈ before.getLast?, p.2 ≠ 0) (hlost : ∀ p ∈ outage, p.2 = 0)
    (hnear : (t :: outage.map Prod.fst).IsChain fun u v => v.second - u.second ≤ Δ) :
    ∃ earlier ws later, warnings settings es ⟨.zero, n⟩ =
        earlier ++ ((t, .allDisconnected) :: ws.map fun u => (u, .stillDisconnected)) ++ later ∧
      (∀ q ∈ earlier, q.1 ∈ before.map Prod.fst) ∧ (∀ q ∈ later, q.1 ∈ after.map Prod.fst) ∧
        Paced Δ t (outage.map Prod.fst) ws ∧
          ∀ q ∈ warnings settings es ⟨.zero, n⟩, q.1.first -
            (es.foldl (LoopEvent.run settings) ⟨.zero, n⟩).vars.brokerStartedMs > meshPeerLossGraceMs := by
  have hwarnings := @warnings_eq settings es ⟨.zero, n⟩ fun _ => rfl
  have hfirst : told none ((t, 0) :: outage) = (t, .allDisconnected) ::
      (ticks WarningDue t.warned (outage.map Prod.fst)).map fun u => (u, .stillDisconnected) := by
    rw [told_cons, ← told_outage outage t.warned hlost]
    rfl
  have hzero : LoopVars.zero.last = none := rfl
  have hgrace : ∀ q ∈ warnings settings es ⟨.zero, n⟩, q.1.first -
      (es.foldl (LoopEvent.run settings) ⟨.zero, n⟩).vars.brokerStartedMs > meshPeerLossGraceMs := by
    intro q hq
    rw [hwarnings] at hq
    obtain ⟨p, hp, hpq⟩ := List.mem_map.mp (told_mem _ _ q hq)
    rw [← hpq]
    exact looks_grace es _ p hp
  rw [hlooks, hzero, told_append, foldl_found hfound, told_append, hfirst, ← List.append_assoc]
    at hwarnings
  exact ⟨_, _, _, hwarnings, told_mem before none, told_mem after _, paced_ticks hnear,
    hgrace⟩

/-- An iteration in which the clock stands still. -/
def uptime (ms : ℕ) : Uptime := ⟨ms + 1, ms + 1, ms + 1, by omega, le_rfl, le_rfl⟩

/-- A new device whose slots are enabled. -/
def enabledNode : Node :=
  .booted { freshApp with config.peers := fun _ => { FieldBridgePeer.zero with enabled := 1 } }

/-- The loop starts the broker, which never finds a peer. -/
def lostRun : List LoopEvent :=
  [1000, 100000, 130000, 170000].map fun ms => .turn .good .good (uptime ms)

theorem lostPeers_told_lostRun : ∃ earlier ws later,
    warnings freshApp.config.settings lostRun ⟨.zero, enabledNode⟩ = earlier ++
      ((uptime 100000, .allDisconnected) :: ws.map fun u => (u, .stillDisconnected)) ++ later ∧
        Paced 40000 (uptime 100000) [uptime 130000, uptime 170000] ws := by
  have hlooks : looks freshApp.config.settings lostRun ⟨.zero, enabledNode⟩ =
      [] ++ ((uptime 100000, 0) :: [(uptime 130000, 0), (uptime 170000, 0)] ++ []) := rfl
  have hnear : [uptime 100000, uptime 130000, uptime 170000].IsChain
      fun u v => v.second - u.second ≤ 40000 := by decide
  obtain ⟨earlier, ws, later, hwarnings, -, -, hpaced, -⟩ :=
    lostPeers_told hlooks (by simp) (by simp) hnear
  exact ⟨earlier, ws, later, hwarnings, hpaced⟩

end MqttFieldBridge.Boot
