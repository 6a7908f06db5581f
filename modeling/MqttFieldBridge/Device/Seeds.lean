import MqttFieldBridge.Config.Frame
import MqttFieldBridge.Device.Run
import MqttFieldBridge.Runtime.Seeds

/-! # A saved peer and the seed table

The seed table is a second copy of the peer slots. A POST to a slot builds it anew, but the console's
`peer` command saves the slot and leaves the table as it is, and so do the commands that reset the
slots. So the table is always that of the slots as they were when it was last built, `TableApplied`,
and after a line of the console it is that of the slots as they are only if the slots ask for the same
table as then (`seedsCurrent_line`). -/

namespace MqttFieldBridge.Device

open MqttFieldBridge.CLib MqttFieldBridge.Config MqttFieldBridge.Runtime MqttFieldBridge.Console
  MqttFieldBridge.Http MqttFieldBridge.Lts

/-! ### Which events save a peer -/

/-- A console line or a request. -/
def Event.FrontEnd : Event → Prop
  | .line _ _ | .request _ _ | .callback _ _ _ _ => True
  | _ => False

/-- The event is a console line. -/
def Event.IsLine : Event → Prop
  | .line _ _ => True
  | _ => False

/-- The event is acknowledged: a line returns 0, and a request is answered with 200. -/
def Event.Acknowledged (d : DeviceState) : Event → Prop
  | .line w text => (productConsoleHandleLine w ⟨d.menu, d.http.app⟩ text).rc = .ok
  | .request w chunks => (serveOnce w chunks d.http.app).response.status = 200
  | .callback w client status data =>
    ∃ r, (zephyrDynamicHandler w client status data d.http).response = some r ∧ r.status = 200
  | _ => False

/-- The event asks for an operation that writes a slot. -/
def WritesPeer (o : Option ConfigOp) : Prop := ∃ index p, o = some (.setPeer index p)

/-- The event is a peer update that is acknowledged. -/
def SavesPeer (d : DeviceState) (e : Event) : Prop := WritesPeer (e.op d) ∧ e.Acknowledged d

/-! ### What an event does to the table -/

section Tables

variable {w : World} {a : App}

/-- A step from `a` to `a'` that builds the table anew if `P`, and else leaves it. -/
structure Rebuilds (w : World) (a a' : App) (P : Prop) : Prop where
  rebuilt : P → a'.seeds = (bridgeControlApplyPeers w a').2.seeds
  kept : ¬ P → a'.seeds = a.seeds

theorem rebuilds_of_not {a' : App} {P : Prop} (hp : ¬ P) (h : a'.seeds = a.seeds) :
    Rebuilds w a a' P :=
  ⟨fun hP => absurd hP hp, fun _ => h⟩

/-- Applying the peers again builds the same table. -/
theorem applyPeers_again (w : World) (a : App) : (bridgeControlApplyPeers w a).2.seeds =
    (bridgeControlApplyPeers w (bridgeControlApplyPeers w a).2).2.seeds := by
  have hconfig : (bridgeControlApplyPeers w a).2.config = a.config := applyPeers_config.1
  have hlib : w.Uses ⟨w.p2p.inetPton, w.seedAdd⟩ := ⟨rfl, rfl⟩
  rw [applyPeers_seeds hlib, applyPeers_seeds hlib, hconfig]

theorem postPeer_rebuilds {index : ℤ} {body : Text} :
    Rebuilds w a (postPeer w index body a).app
      (WritesPeer (peerOp w.longBits index body a.config) ∧
        (postPeer w index body a).response.status = 200) := by
  unfold postPeer applyPeerJson peerOp
  rcases productConfigGetPeer index a.config with _ | p
  · exact rebuilds_of_not (fun h => absurd (show 400 = 200 from h.2) (by decide)) rfl
  dsimp only [Option.map_some]
  by_cases hr : (productConfigSetPeer w.store index (peerCandidate w.longBits body p) a.config).1 = .ok
  · rw [if_neg (not_not.mpr hr)]
    exact ⟨fun _ => applyPeers_again _ _, fun h => absurd ⟨⟨index, _, rfl⟩, rfl⟩ h⟩
  · rw [if_pos hr]
    exact rebuilds_of_not (fun h => absurd (show 400 = 200 from h.2) (by decide)) rfl

theorem not_writesPeer_none : ¬ WritesPeer none := by
  rintro ⟨index, p, h⟩
  cases h

theorem not_writesPeer_resetAll : ¬ WritesPeer (some .resetAll) := by
  rintro ⟨index, p, h⟩
  cases h

theorem not_writesPeer_configOp {longBits : ℕ} {body : Text} {c : ConfigState} :
    ¬ WritesPeer (configOp longBits body c) := by
  rintro ⟨index, p, h⟩
  unfold configOp at h
  split at h
  · cases h
  · split_ifs at h
    cases h

theorem postBrokerControl_seeds {body : Text} :
    (postBrokerControl w body a).app.seeds = a.seeds := by
  obtain ⟨runtime, -, happ⟩ := @postBrokerControl_app w body a
  rw [happ]

theorem postPublishTest_seeds {body : Text} : (postPublishTest w body a).app.seeds = a.seeds := by
  obtain ⟨runtime, -, happ⟩ := @postPublishTest_app w body a
  rw [happ]

/-- Only the route of the slots builds the table. -/
theorem postRoute_rebuilds {path body : Text} :
    Rebuilds w a (postRoute w path body a).app
      (WritesPeer (postOp w.longBits path body a.config) ∧
        (postRoute w path body a).response.status = 200) := by
  unfold postRoute postOp
  split_ifs
  · exact rebuilds_of_not (fun h => not_writesPeer_configOp h.1) (by rw [postConfig_app])
  · exact postPeer_rebuilds
  · exact rebuilds_of_not (fun h => not_writesPeer_none h.1) postBrokerControl_seeds
  · exact rebuilds_of_not (fun h => not_writesPeer_none h.1) postPublishTest_seeds
  · exact rebuilds_of_not (fun h => not_writesPeer_resetAll h.1) (by rw [postConfigReset_app])
  · exact rebuilds_of_not (fun h => not_writesPeer_none h.1) rfl
  · exact rebuilds_of_not (fun h => not_writesPeer_none h.1) rfl

theorem getRoute_seeds {cap : ℕ} {path : Text} : (getRoute w cap path a).2.seeds = a.seeds := by
  rw [getRoute_state]
  split_ifs
  · rfl
  · rfl

theorem saves_seeds {k : ConsoleState} {r : Rc × ConfigState} {failed saved : Text} :
    (saves k r failed saved).state.app.seeds = k.app.seeds := by
  rw [saves_app]

/-- The console never touches the table. -/
theorem perform_seeds {k : ConsoleState} {r : Request} :
    (perform w k r).state.app.seeds = k.app.seeds := by
  cases r with
  | settings cmd =>
    show (performSettings w k cmd).state.app.seeds = _
    unfold performSettings
    dsimp only
    split_ifs
    · exact saves_seeds
    · exact saves_seeds
  | peer index p =>
    show (performPeer w k index p).state.app.seeds = _
    unfold performPeer
    split
    · rfl
    · exact saves_seeds
  | defaults profile => exact saves_seeds
  | reset => exact saves_seeds
  | _ => rfl

end Tables

/-! ### Events -/

section Events

variable {d : DeviceState} {e : Event}

/-- A request builds the table anew when it saves a peer; nothing else that a front end does touches
the table. -/
theorem run_rebuilds (he : e.FrontEnd) :
    Rebuilds e.world d.http.app (e.run d).http.app (SavesPeer d e ∧ ¬ e.IsLine) := by
  cases e with
  | line w text => exact rebuilds_of_not (fun h => h.2 trivial) perform_seeds
  | request w chunks =>
    obtain ⟨req, hreq⟩ : ∃ req, req = cstr (recvLoop w.longBits chunks []) := ⟨_, rfl⟩
    unfold SavesPeer
    simp only [Event.run, Event.op, Event.Acknowledged, Event.IsLine, Event.world, serveOnce, ← hreq,
      DeviceState.config, not_false_eq_true, and_true]
    rcases handleRequest_cases w req d.http.app with ⟨rawPath, hline, h⟩ | ⟨hline, h⟩
    · rw [requestOp_of_post hline, h]
      exact postRoute_rebuilds
    · rw [requestOp_of_not hline]
      refine rebuilds_of_not (fun h => not_writesPeer_none h.1) ?_
      rcases h with h | ⟨path, h⟩
      · rw [h]
      · rw [h]
        exact getRoute_seeds
  | callback w client status data =>
    unfold SavesPeer
    simp only [Event.run, Event.op, Event.Acknowledged, Event.IsLine, Event.world,
      not_false_eq_true, and_true]
    rcases zephyrDynamicHandler_cases w client status data d.http with ⟨hp, happ, hres⟩ | ⟨hp, happ⟩
    · rw [show callbackOp w.longBits client status data d.http = _ from if_pos hp, happ, hres]
      simp only [Option.some.injEq, exists_eq_left']
      exact postRoute_rebuilds
    · rw [show callbackOp w.longBits client status data d.http = none from if_neg hp]
      refine rebuilds_of_not (fun h => not_writesPeer_none h.1) ?_
      rcases happ with happ | happ
      · rw [happ]
      · rw [happ]
        exact getRoute_seeds
  | buttonReset w => exact he.elim
  | boot w w' eth => exact he.elim

end Events

/-! ### Runs -/

/-- The device, and the configuration as it was when the table was last built. -/
structure SeedState where
  device : DeviceState
  applied : ConfigState

/-- Console lines and requests after `bridge_control_init`, with all saves succeeding. -/
def seedRuns (lib : SeedLib) : System SeedState Event where
  init s := ∃ w a, World.Uses w lib ∧ s.device.http.app = bridgeControlInit w a ∧ s.applied = a.config
  step s e s' := e.FrontEnd ∧ e.world.Uses lib ∧ SavesSucceed e.world.store ∧
    s'.device = e.run s.device ∧
    (SavesPeer s.device e ∧ ¬ e.IsLine → s'.applied = s'.device.config) ∧
    (¬ (SavesPeer s.device e ∧ ¬ e.IsLine) → s'.applied = s.applied)

/-- The table is what applying the peers would build now. -/
def SeedsCurrent (lib : SeedLib) (d : DeviceState) : Prop :=
  ∀ w : World, w.Uses lib → d.http.app.seeds = (bridgeControlApplyPeers w d.http.app).2.seeds

/-- Right after every peer update that is acknowledged, the table is that of the slots, unless the
bridge has been switched since the table was built. -/
def PeersSeeded (lib : SeedLib) (M : System SeedState Event) : Prop :=
  ∀ s e s', M.Reachable s → M.step s e s' → SavesPeer s.device e →
    s'.device.config.settings.broker.bridgeEnabled = s'.applied.settings.broker.bridgeEnabled →
      SeedsCurrent lib s'.device

/-- A valid peer that a console line asks to save leaves the seeds that are asked for as they were
when the table was built. -/
def LinesKeepSeeds (lib : SeedLib) (s : SeedState) (e : Event) : Prop :=
  e.IsLine → ∀ index p i, e.op s.device = some (.setPeer index p) → peerIndex index = some i →
    PeerValid p → s.device.config.settings.broker.bridgeEnabled =
      s.applied.settings.broker.bridgeEnabled →
    wantedSeeds lib { s.device.config with peers := Function.update s.device.config.peers i p } =
      wantedSeeds lib s.applied

variable {lib : SeedLib} {s s' : SeedState} {e : Event}

/-- The table is that of the slots as they were when it was built. -/
def TableApplied (lib : SeedLib) (s : SeedState) : Prop :=
  s.device.http.app.seeds = seedTable lib (wantedSeeds lib s.applied)

theorem tableApplied_step (h : TableApplied lib s) (hs : (seedRuns lib).step s e s') :
    TableApplied lib s' := by
  obtain ⟨he, hlib, -, hdev, hbuilt, hkept⟩ := hs
  have hr := run_rebuilds (d := s.device) he
  unfold TableApplied
  rw [hdev]
  by_cases hp : SavesPeer s.device e ∧ ¬ e.IsLine
  · rw [hr.rebuilt hp, hbuilt hp, hdev]
    exact applyPeers_seeds hlib _
  · rw [hr.kept hp, hkept hp]
    exact h

theorem tableApplied_of_reachable (hs : (seedRuns lib).Reachable s) : TableApplied lib s := by
  refine hs.invariant (fun s h => ?_) fun s e s' h hstep => tableApplied_step h hstep
  obtain ⟨w, a, hlib, happ, happlied⟩ := h
  unfold TableApplied
  rw [happ, happlied]
  exact applyPeers_seeds hlib a

/-- The table is current if and only if what the slots ask for gives the table there is. -/
theorem seedsCurrent_iff (h : TableApplied lib s) (w : World) (hw : w.Uses lib) :
    SeedsCurrent lib s.device ↔
      seedTable lib (wantedSeeds lib s.device.config) = seedTable lib (wantedSeeds lib s.applied) := by
  unfold SeedsCurrent
  constructor
  · intro hc
    rw [← h, hc w hw]
    exact (applyPeers_seeds hw _).symm
  · intro hc w hw
    rw [applyPeers_seeds hw]
    exact h.trans hc.symm

/-- A `peer` command that returns 0 has had its slot saved. -/
theorem setPeer_of_performPeer {w : World} {k : ConsoleState} {index : ℤ} {p : FieldBridgePeer}
    (h : (performPeer w k index p).rc = .ok) :
    (productConfigSetPeer w.store index p k.app.config).1 = .ok := by
  unfold performPeer at h
  split at h
  · cases h
  · unfold saves at h
    dsimp only at h
    split_ifs at h with hr
    · cases h
    · exact not_not.mp hr

/-- A line that saves a peer has written its slot. -/
theorem config_of_line (hl : e.IsLine) (hstore : SavesSucceed e.world.store) {d : DeviceState}
    (hp : SavesPeer d e) : ∃ index p i, e.op d = some (.setPeer index p) ∧ peerIndex index = some i ∧
      PeerValid p ∧ (e.run d).config.settings = d.config.settings ∧
      (e.run d).config.peers = Function.update d.config.peers i p := by
  cases e with
  | line w text =>
    obtain ⟨⟨index, p, hop⟩, hack⟩ := hp
    have hreq : lineRequest w.longBits d.menu (cstr text) = .peer index p := by
      unfold Event.op at hop
      dsimp only at hop
      rcases hr : lineRequest w.longBits d.menu (cstr text) <;> rw [hr] at hop <;> cases hop
      rfl
    have hok : (productConfigSetPeer w.store index p d.config).1 = .ok := by
      unfold Event.Acknowledged productConsoleHandleLine at hack
      dsimp only at hack
      rw [hreq] at hack
      exact setPeer_of_performPeer hack
    have hconfig : (Event.run d (.line w text)).config =
        (productConfigSetPeer w.store index p d.config).2 := by
      rw [run_config (e := .line w text) trivial, hop]
      rfl
    have hvalid : PeerValid p := by
      by_contra hv
      rw [productConfigSetPeer_of_invalid fun i _ h => hv h] at hok
      cases hok
    obtain ⟨hset, i, hi, hpeers⟩ := (setPeer_frames hstore index p).done hok
    exact ⟨index, p, i, hop, hi, hvalid, hconfig ▸ hset, hconfig ▸ hpeers⟩
  | request => exact hl.elim
  | callback => exact hl.elim
  | buttonReset => exact hl.elim
  | boot => exact hl.elim

/-- What is asked for depends on the bridge's flag and the slots only. -/
theorem wantedSeeds_congr {c c' : ConfigState}
    (hb : c.settings.broker.bridgeEnabled = c'.settings.broker.bridgeEnabled)
    (hp : c.peers = c'.peers) : wantedSeeds lib c = wantedSeeds lib c' := by
  unfold wantedSeeds peerList
  rw [hb, hp]

/-- After a line that saves a peer the table is current if and only if the slots with that peer give
the table there was. -/
theorem seedsCurrent_line (hs : (seedRuns lib).Reachable s) (hstep : (seedRuns lib).step s e s')
    (hl : e.IsLine) (hp : SavesPeer s.device e) :
    ∃ index p i, e.op s.device = some (.setPeer index p) ∧ peerIndex index = some i ∧ PeerValid p ∧
      (SeedsCurrent lib s'.device ↔ seedTable lib (wantedSeeds lib
          { s.device.config with peers := Function.update s.device.config.peers i p }) =
        seedTable lib (wantedSeeds lib s.applied)) := by
  have htable := tableApplied_step (tableApplied_of_reachable hs) hstep
  obtain ⟨he, hlib, hstore, hdev, hbuilt, hkept⟩ := hstep
  obtain ⟨index, p, i, hop, hi, hv, hset, hpeers⟩ := config_of_line hl hstore hp
  have happ : s'.applied = s.applied := hkept fun h => h.2 hl
  have hwanted : wantedSeeds lib s'.device.config = wantedSeeds lib
      { s.device.config with peers := Function.update s.device.config.peers i p } := by
    rw [hdev]
    refine wantedSeeds_congr ?_ hpeers
    rw [hset]
  refine ⟨index, p, i, hop, hi, hv, ?_⟩
  rw [seedsCurrent_iff htable e.world hlib, hwanted, happ]

/-- **A saved peer is a seeded peer** if the console's lines leave the seeds that are asked for as they
were. -/
theorem peersSeeded_of_linesKeep (lib : SeedLib) :
    PeersSeeded lib ((seedRuns lib).restrict (LinesKeepSeeds lib)) := by
  intro s e s' hs hstep hp hbridge
  obtain ⟨hkeep, hstep⟩ := hstep
  by_cases hl : e.IsLine
  · obtain ⟨index, p, i, hop, hi, hv, hiff⟩ := seedsCurrent_line hs.of_restrict hstep hl hp
    obtain ⟨-, -, hstore, hdev, -, hkept⟩ := hstep
    obtain ⟨-, -, -, -, -, -, hset, -⟩ := config_of_line hl hstore hp
    rw [hdev, hkept fun h => h.2 hl, hset] at hbridge
    rw [hiff, hkeep hl index p i hop hi hv hbridge]
  · have htable := tableApplied_step (tableApplied_of_reachable hs.of_restrict) hstep
    obtain ⟨-, hlib, -, -, hbuilt, -⟩ := hstep
    rw [seedsCurrent_iff htable e.world hlib, hbuilt ⟨hp, hl⟩]

/-- A network library that knows one address, and a table that takes every seed. -/
def exampleLib : SeedLib where
  inetPton host := if host = str "10.88.0.3" then some 0x0a580003 else none
  seedAdd _ _ := true

def exampleWorld : World where
  store := .good
  p2p := ⟨[], none, exampleLib.inetPton⟩
  seedAdd := exampleLib.seedAdd
  deviceId := []
  longBits := 32
  longBits_ge := Nat.le_refl 32

/-- A new device. -/
def exampleSeedState : SeedState where
  device := ⟨.main, bridgeControlInit exampleWorld freshApp, fun _ => .zero⟩
  applied := freshApp.config

/-- The command of the console's own help. -/
abbrev savePeer : Event := .line exampleWorld (str "peer 1 node2 10.88.0.3 1883 4884 1")

/-- The peer is saved, and the table stays empty. -/
theorem savedPeer_notSeeded : ¬ PeersSeeded exampleLib (seedRuns exampleLib) := by
  intro h
  have huses : exampleWorld.Uses exampleLib := ⟨rfl, rfl⟩
  have hs : (seedRuns exampleLib).Reachable exampleSeedState :=
    .init ⟨exampleWorld, freshApp, huses, rfl, rfl⟩
  have hsaves : SavesPeer exampleSeedState.device savePeer := by
    refine ⟨⟨_, _, rfl⟩, ?_⟩
    show (productConsoleHandleLine _ _ _).rc = .ok
    decide
  have hstep : (seedRuns exampleLib).step exampleSeedState savePeer
      ⟨savePeer.run exampleSeedState.device, exampleSeedState.applied⟩ :=
    ⟨trivial, huses, fun _ => rfl, rfl, fun h => absurd trivial h.2, fun _ => rfl⟩
  have hcurrent := h _ _ _ hs hstep hsaves (by decide) exampleWorld huses
  exact absurd hcurrent (by decide)

end MqttFieldBridge.Device
