import MqttFieldBridge.Device.Seeds
import MqttFieldBridge.Http.Retry
import MqttFieldBridge.Lts.Rebuild

/-! # The seed table while threads change the peers

`main` calls `bridge_control_apply_peers` when the provisioning server is already running, and each
POST to a slot calls it after it has written the slot, unless the slot cannot be saved. Nothing is
locked, so the calls interleave: a slot is read at one time and its seed handed to the table at
another. What else changes the slots or the bridge's switch (the console, a POST to `/config`, a reset)
calls it not at all.

Undisturbed, the steps of the threads are what the device does: `bridgeControlInit_alone`,
`postPeer_alone`, `frontEnd_alone`. -/

namespace MqttFieldBridge.Device

open MqttFieldBridge.CLib MqttFieldBridge.Config MqttFieldBridge.Runtime MqttFieldBridge.Http
  MqttFieldBridge.Lts MqttFieldBridge.Lts.Rebuild

/-- The bridge's switch and the peer slots, the seed table, and the threads that apply the peers. -/
abbrev SharedSeeds (κ : Type*) := State κ (Fin fieldBridgePeerMax) FieldBridgePeer Seed

/-- The calls of `bridge_control_apply_peers` on their own, and after a slot has been written. -/
def seedThreads (κ : Type*) [DecidableEq κ] (lib : SeedLib) (init : SharedSeeds κ → Prop) :
    System (SharedSeeds κ) (Label κ (Fin fieldBridgePeerMax) FieldBridgePeer) :=
  rebuilds (seedOf lib) lib.seedAdd (List.finRange fieldBridgePeerMax) init

/-- The device when `main` is on its way to `bridge_control_init`, and the server has been started. -/
structure BridgeInit {κ : Type*} (p : SharedSeeds κ) : Prop where
  table : p.table = []
  offered : p.offered = []
  starting : ∃ k, p.phase k = .clearing ∧ ∀ k' ≠ k, p.phase k' = .looping []

section Threads

variable {κ : Type*} [DecidableEq κ] {lib : SeedLib} {p : SharedSeeds κ}

omit [DecidableEq κ] in
theorem bridgeInit_covered (h : BridgeInit p) : Covered (seedOf lib) p := by
  obtain ⟨k, hk, -⟩ := h.starting
  exact Or.inr fun i b _ => Or.inr ⟨k, by rw [hk]; trivial⟩

/-- **No peer is forgotten.** However the calls interleave with each other and with everything else
that changes the slots or the switch, saved or not: as soon as all have returned, and if the table has
been cleared since the last change that no call follows, the seed of every slot as it is then has been
handed to the table since it was cleared last. -/
theorem seeds_offered (h : (seedThreads κ lib BridgeInit).Reachable p) (hq : Quiescent p)
    (happ : p.unapplied = false) (i : Fin fieldBridgePeerMax) (seed : Seed)
    (hseed : p.wanted (seedOf lib) i = some seed) : seed ∈ p.offered :=
  offered_of_quiescent List.mem_finRange (fun _ hs => bridgeInit_covered hs) h hq happ hseed

end Threads

/-! ### What the threads do, undisturbed -/

/-- The switch, as the calls read it. -/
def bridgeOn (c : ConfigState) : Bool := c.settings.broker.bridgeEnabled ≠ 0

/-- The threads' state is that of the device. -/
structure Mirrors {κ : Type*} (p : SharedSeeds κ) (a : App) : Prop where
  on : p.on = bridgeOn a.config
  cells : p.cells = a.config.peers
  table : p.table = a.seeds

section Alone

variable {κ : Type*} [DecidableEq κ] {w : World} {a a' : App} {p : SharedSeeds κ}

/-- What a call that is not disturbed makes of the table. -/
theorem rebuilt_eq (lib : SeedLib) (c : ConfigState) :
    rebuilt (seedOf lib) lib.seedAdd (List.finRange fieldBridgePeerMax) (bridgeOn c) c.peers =
      seedTable lib (wantedSeeds lib c) := by
  unfold rebuilt bridgeOn wantedSeeds seedTable
  by_cases hoff : c.settings.broker.bridgeEnabled = 0
  · rw [if_neg (by simp [hoff]), if_pos hoff]
    rfl
  · rw [if_pos (by simp [hoff]), if_neg hoff, peerList, List.filterMap_map]
    rfl

/-- Everything that leaves the seed table alone is a change without a call. -/
theorem change_mirrors {lib : SeedLib} {init : SharedSeeds κ → Prop} (h : Mirrors p a)
    (hseeds : a'.seeds = a.seeds) : ∃ p',
      (seedThreads κ lib init).step p (.change (bridgeOn a'.config) a'.config.peers) p' ∧
        p'.phase = p.phase ∧ Mirrors p' a' :=
  ⟨_, .change _ _, rfl, rfl, rfl, h.table.trans hseeds.symm⟩

/-- **`bridge_control_init` that nothing disturbs** is a run of its thread. -/
theorem bridgeControlInit_alone {init : SharedSeeds κ → Prop} {k : κ}
    (hp : (seedThreads κ ⟨w.p2p.inetPton, w.seedAdd⟩ init).Reachable p) (h : Mirrors p a)
    (hk : p.phase k = .clearing) :
    ∃ p', (seedThreads κ ⟨w.p2p.inetPton, w.seedAdd⟩ init).Reachable p' ∧ p'.unapplied = false ∧
      p'.phase = Function.update p.phase k (.looping []) ∧ Mirrors p' (bridgeControlInit w a) := by
  obtain ⟨p', hreach, hp'⟩ := reachable_clearing goes_rebuilds hp hk
  have hconfig : (bridgeControlInit w a).config = a.config := applyPeers_config.1
  refine ⟨p', hreach, by rw [hp'], by rw [hp']; rfl, ?_⟩
  constructor
  · rw [hp', hconfig]
    exact h.on
  · rw [hp', hconfig]
    exact h.cells
  · rw [hp', h.on, h.cells, rebuilt_eq]
    exact (applyPeers_seeds ⟨rfl, rfl⟩ a).symm

/-- A POST to a slot writes it and calls, writes it and fails, or does nothing. -/
theorem applyPeerJson_outcome (w : World) (index : ℤ) (body : Text) (a : App) :
    (∃ i peer, (applyPeerJson w index body a).2.config.peers = Function.update a.config.peers i peer ∧
      (applyPeerJson w index body a).2.config.settings = a.config.settings) ∨
    (applyPeerJson w index body a).1 = .err ∧ (applyPeerJson w index body a).2.config = a.config := by
  have hconfig := @postPeer_config w body a index
  rw [postPeer_app] at hconfig
  rw [applyPeerJson_eq.1, hconfig]
  unfold peerOp productConfigGetPeer
  rcases hi : peerIndex index with _ | i
  · exact Or.inr ⟨rfl, rfl⟩
  simp only [Option.map_some, Option.getD_some, afterOp, ConfigOp.run]
  set peer := peerCandidate w.longBits body (a.config.peers i)
  by_cases hv : PeerValid peer
  · rw [productConfigSetPeer_of_valid hi hv]
    exact Or.inl ⟨i, peer, rfl, rfl⟩
  · have hnot : ∀ j, peerIndex index = some j → ¬ PeerValid peer := fun _ _ => hv
    rw [productConfigSetPeer_of_invalid hnot]
    exact Or.inr ⟨rfl, rfl⟩

/-- **A POST to a slot that nothing disturbs**, whatever comes of it, is a run of its thread. -/
theorem postPeer_alone {index : ℤ} {body : Text} (hq : Quiescent p) (h : Mirrors p a) (k : κ) :
    ∃ p', (seedThreads κ ⟨w.p2p.inetPton, w.seedAdd⟩ (· = p)).Reachable p' ∧ Quiescent p' ∧
      Mirrors p' (applyPeerJson w index body a).2 := by
  obtain ⟨-, -, hseeds⟩ := @applyPeerJson_eq w body a index
  set lib : SeedLib := ⟨w.p2p.inetPton, w.seedAdd⟩
  have hinit : (seedThreads κ lib (· = p)).Reachable p := .init rfl
  rcases applyPeerJson_outcome w index body a with ⟨i, peer, hpeers, hsettings⟩ | ⟨herr, hsame⟩
  · have hon : bridgeOn (applyPeerJson w index body a).2.config = bridgeOn a.config := by
      unfold bridgeOn
      rw [hsettings]
    by_cases hok : (applyPeerJson w index body a).1 = .ok
    · obtain ⟨p', hreach, hp'⟩ := reachable_writing hinit (hq k) i peer
      rw [if_pos hok] at hseeds
      refine ⟨p', hreach, fun k' => by rw [hp']; exact hq k', ?_⟩
      constructor
      · rw [hp', hon]
        exact h.on
      · rw [hp', hpeers, h.cells]
      · rw [hp', hseeds, ← rebuilt_eq, hon, hpeers, ← h.on, ← h.cells]
    · rw [if_neg hok] at hseeds
      exact ⟨_, reachable_failing hinit (hq k) i peer, hq, h.on.trans hon.symm,
        (congrArg (Function.update · i peer) h.cells).trans hpeers.symm, h.table.trans hseeds.symm⟩
  · have hnot : (applyPeerJson w index body a).1 ≠ .ok := by
      rw [herr]
      exact nofun
    rw [if_neg hnot] at hseeds
    exact ⟨p, hinit, hq, by rw [hsame]; exact h.on, by rw [hsame]; exact h.cells,
      h.table.trans hseeds.symm⟩

/-- **Whatever a front end does undisturbed**, a line of the console or a request, is a run of the
threads: a change, and a call after it if a peer has been saved by a request. -/
theorem frontEnd_alone {d : DeviceState} {e : Event} (he : e.FrontEnd) (hq : Quiescent p)
    (h : Mirrors p d.http.app) (k : κ) :
    ∃ p', (seedThreads κ ⟨e.world.p2p.inetPton, e.world.seedAdd⟩ (· = p)).Reachable p' ∧
      Quiescent p' ∧ Mirrors p' (e.run d).http.app := by
  have hrebuilds := run_rebuilds (d := d) he
  set lib : SeedLib := ⟨e.world.p2p.inetPton, e.world.seedAdd⟩
  set after := (e.run d).http.app
  have hinit : (seedThreads κ lib (· = p)).Reachable p := .init rfl
  by_cases hsaves : SavesPeer d e ∧ ¬ e.IsLine
  · have hchange := hinit.step (Step.change (bridgeOn after.config) after.config.peers)
    have hstart := hchange.step (Step.start none (hq k))
    obtain ⟨p', hreach, hp'⟩ :=
      reachable_clearing goes_rebuilds hstart (Function.update_self k _ _)
    refine ⟨p', hreach, fun k' => ?_, by rw [hp']; rfl, by rw [hp']; rfl, ?_⟩
    · rw [hp']
      dsimp only [State.at]
      rw [Function.update_idem, ← hq k, Function.update_eq_self]
      exact (hq k').trans (hq k).symm
    · have hseeds : (bridgeControlApplyPeers e.world after).2.seeds =
          seedTable lib (wantedSeeds lib after.config) := applyPeers_seeds ⟨rfl, rfl⟩ after
      rw [hp', hrebuilds.rebuilt hsaves, hseeds, ← rebuilt_eq]
      rfl
  · obtain ⟨p', hstep, hphase, hmirrors⟩ := change_mirrors h (hrebuilds.kept hsaves)
    exact ⟨p', hinit.step hstep, fun k' => by rw [hphase]; exact hq k', hmirrors⟩

end Alone

/-! ### Calls that overlap -/

/-- A slot with a host. -/
def peerAt (host : String) : FieldBridgePeer :=
  { FieldBridgePeer.zero with
    host := (CharArray.zero _).strncpy (str host)
    mqttPort := 1883
    p2pPort := 4884
    enabled := 1 }

/-- A network library that knows two hosts, and a table without room for a seed it holds. -/
def twoHostLib : SeedLib where
  inetPton host :=
    if host = str "10.0.0.2" then some 2 else if host = str "10.0.0.3" then some 3 else none
  seedAdd table seed := !table.contains seed

/-- `main` (`false`) is on its way to `bridge_control_init`, with two slots in use. -/
def bootingThreads : SharedSeeds Bool where
  on := true
  cells i := if i.val = 0 then peerAt "10.0.0.2" else peerAt "10.0.0.3"
  table := []
  offered := []
  unapplied := false
  phase k := if k then .looping [] else .clearing

theorem bridgeInit_bootingThreads : BridgeInit bootingThreads := by
  refine ⟨rfl, rfl, false, rfl, fun k' hk' => ?_⟩
  have htrue : k' = true := by simpa using hk'
  rw [htrue]
  rfl

/-- **A slot that is emptied may leave its seed behind**: a POST empties slot 0 and applies the peers
after `main` has read the slot, and before `main` hands over what it has read. -/
theorem stale_seed : ∃ p, (seedThreads Bool twoHostLib BridgeInit).Reachable p ∧ Quiescent p ∧
    p.on = true ∧ p.unapplied = false ∧ p.cells = Function.update bootingThreads.cells 0 .zero ∧
    p.table = [(3, 4884), (2, 4884)] := by
  have hinit : (seedThreads Bool twoHostLib BridgeInit).Reachable bootingThreads :=
    .init bridgeInit_bootingThreads
  have hgoes : Goes (seedOf twoHostLib) twoHostLib.seedAdd (List.finRange fieldBridgePeerMax)
      (seedThreads Bool twoHostLib BridgeInit) := goes_rebuilds
  -- `main` clears the table, sees the switch on and reads slot 0
  have hclear := hgoes.reachable hinit (k := false) nofun (.clear rfl)
  have hcheck := hgoes.reachable hclear (k := false) nofun (.check rfl)
  have hread := hgoes.reachable hcheck (k := false) nofun (.read (i := 0) rfl)
  -- the POST comes and goes
  obtain ⟨p, hp, hpost⟩ :=
    reachable_writing hread (k := true) rfl (0 : Fin fieldBridgePeerMax) .zero
  -- `main` hands over the seed it has read, and goes on with slot 1
  have hfirst : seedOf twoHostLib (bootingThreads.cells 0) = some (2, 4884) := by decide
  have hholds : p.phase false = .adding (some (2, 4884)) [1] := by
    rw [hpost, ← hfirst]
    rfl
  have hadd := hgoes.reachable hp (k := false) (by rw [hholds]; exact nofun) (.add hholds)
  obtain ⟨p', hp', hlast⟩ := reachable_looping hgoes hadd (k := false) rfl
  have hcells : p.cells = Function.update bootingThreads.cells 0 .zero := by rw [hpost]; rfl
  have hafter : p.table = [(3, 4884)] := by
    have hrebuilt : rebuilt (seedOf twoHostLib) twoHostLib.seedAdd (List.finRange fieldBridgePeerMax)
        true (Function.update bootingThreads.cells 0 .zero) = [(3, 4884)] := by decide
    rw [hpost]
    exact hrebuilt
  have hrest : offerAll (seedOf twoHostLib) twoHostLib.seedAdd
      (Function.update bootingThreads.cells 0 .zero) [1] [(3, 4884), (2, 4884)] =
        [(3, 4884), (2, 4884)] := by decide
  refine ⟨p', hp', fun k => ?_, ?_, ?_, ?_, ?_⟩
  · rw [hlast]
    rcases k with _ | _
    · rfl
    · show p.phase true = _
      rw [hpost]
      rfl
  · rw [hlast]
    show p.on = true
    rw [hpost]
    rfl
  · rw [hlast]
    show p.unapplied = false
    rw [hpost]
  · rw [hlast]
    exact hcells
  · rw [hlast]
    dsimp only [State.at]
    rw [hafter, hcells]
    exact hrest

/-- The other slot is not forgotten in that run. -/
theorem seeds_offered_stale : ∃ p, (seedThreads Bool twoHostLib BridgeInit).Reachable p ∧
    Quiescent p ∧ p.unapplied = false ∧ (2, 4884) ∈ p.table ∧ (3, 4884) ∈ p.offered := by
  obtain ⟨p, hp, hq, hon, happ, hcells, htable⟩ := stale_seed
  have hseed : p.wanted (seedOf twoHostLib) 1 = some (3, 4884) := by
    rw [State.wanted, if_pos hon, hcells]
    decide
  refine ⟨p, hp, hq, happ, ?_, seeds_offered hp hq happ 1 (3, 4884) hseed⟩
  rw [htable]
  decide

/-- **A POST that cannot be saved leaves its slot without a seed**: `main` is done, slot 0 gets another
host, and no call follows. -/
theorem forgotten_seed : ∃ p, (seedThreads Bool twoHostLib BridgeInit).Reachable p ∧ Quiescent p ∧
    p.wanted (seedOf twoHostLib) 0 = some (3, 4885) ∧ (3, 4885) ∉ p.table := by
  have hinit : (seedThreads Bool twoHostLib BridgeInit).Reachable bootingThreads :=
    .init bridgeInit_bootingThreads
  obtain ⟨p, hp, hlast⟩ := reachable_clearing goes_rebuilds hinit (k := false) rfl
  have hdone : ∀ k, p.phase k = .looping [] := by
    intro k
    rw [hlast]
    rcases k with _ | _
    · rfl
    · rfl
  have hfail := reachable_failing hp (hdone true) (0 : Fin fieldBridgePeerMax)
    { peerAt "10.0.0.3" with p2pPort := 4885 }
  have hon : p.on = true := by rw [hlast]; rfl
  have htable : (3, 4885) ∉ rebuilt (seedOf twoHostLib) twoHostLib.seedAdd
      (List.finRange fieldBridgePeerMax) true bootingThreads.cells := by decide
  refine ⟨_, hfail, hdone, (if_pos hon).trans ?_, ?_⟩
  · dsimp only
    rw [Function.update_self]
    decide
  · rw [hlast]
    exact htable

end MqttFieldBridge.Device
