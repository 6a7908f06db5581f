import MqttFieldBridge.Runtime.Bridge

/-! # What the seed table is built from

`seedOf` is the seed that a slot asks for, and `wantedSeeds` all that a configuration asks for. The
table is built from nothing else: `applyPeers_seeds`. -/

namespace MqttFieldBridge.Runtime

open MqttFieldBridge.CLib MqttFieldBridge.Config

/-- What the network library and the seed table answer, the same on every call. -/
structure SeedLib where
  inetPton : Text → Option UInt32
  seedAdd : List Seed → Seed → Bool

/-- A world with these answers. -/
structure World.Uses (w : World) (lib : SeedLib) : Prop where
  inetPton : w.p2p.inetPton = lib.inetPton
  seedAdd : w.seedAdd = lib.seedAdd

/-- The seed a slot asks for. -/
def seedOf (lib : SeedLib) (peer : FieldBridgePeer) : Option Seed :=
  if peer.enabled = 0 ∨ peer.host.first = 0 ∨ peer.mqttPort = 0 ∨ peer.p2pPort = 0 then none
  else (lib.inetPton peer.host.text).map fun addr => (addr, peer.p2pPort)

/-- The seeds that the slots ask for, in their order. -/
def wantedSeeds (lib : SeedLib) (c : ConfigState) : List Seed :=
  if c.settings.broker.bridgeEnabled = 0 then [] else (peerList c).filterMap (seedOf lib)

/-- The table after a seed has been handed to it. -/
def addSeed (lib : SeedLib) (table : List Seed) (seed : Seed) : List Seed :=
  if lib.seedAdd table seed then table ++ [seed] else table

/-- The table that is built from these seeds. -/
def seedTable (lib : SeedLib) (seeds : List Seed) : List Seed := seeds.foldl (addSeed lib) []

variable {w : World} {lib : SeedLib}

/-- The loop hands over the seeds that the slots ask for. -/
theorem applyPeersLoop_table (h : w.Uses lib) : ∀ (peers : List FieldBridgePeer) (table : List Seed)
    (enabled : ℕ), (applyPeersLoop w peers table enabled).1 =
      (peers.filterMap (seedOf lib)).foldl (addSeed lib) table
  | [], table, enabled => rfl
  | peer :: peers, table, enabled => by
    have hskip := applyPeersLoop_table h peers table enabled
    unfold applyPeersLoop
    rw [List.filterMap_cons, h.inetPton, h.seedAdd]
    by_cases hdis : peer.enabled = 0
    · rw [if_pos hdis, show seedOf lib peer = none from if_pos (Or.inl hdis)]
      exact hskip
    by_cases hhost : peer.host.first = 0
    · rw [if_neg hdis, if_pos hhost, show seedOf lib peer = none from if_pos (Or.inr (Or.inl hhost))]
      exact hskip
    by_cases hport : peer.mqttPort = 0 ∨ peer.p2pPort = 0
    · rw [if_neg hdis, if_neg hhost, if_pos hport,
        show seedOf lib peer = none from if_pos (Or.inr (Or.inr hport))]
      exact hskip
    rw [if_neg hdis, if_neg hhost, if_neg hport]
    have hseed : seedOf lib peer =
        (lib.inetPton peer.host.text).map fun addr => (addr, peer.p2pPort) :=
      if_neg (by simp only [hdis, hhost, false_or]; exact hport)
    rw [hseed]
    rcases lib.inetPton peer.host.text with _ | addr
    · exact hskip
    · dsimp only [Option.map_some]
      rw [List.foldl_cons]
      unfold addSeed
      split_ifs with hadd
      · exact applyPeersLoop_table h peers (table ++ [(addr, peer.p2pPort)]) (enabled + 1)
      · exact hskip

/-- **The table that `bridge_control_apply_peers` builds** is that of the seeds which are asked for. -/
theorem applyPeers_seeds (h : w.Uses lib) (a : App) :
    (bridgeControlApplyPeers w a).2.seeds = seedTable lib (wantedSeeds lib a.config) := by
  unfold bridgeControlApplyPeers wantedSeeds
  split_ifs
  · rfl
  · exact applyPeersLoop_table h _ _ _

end MqttFieldBridge.Runtime
