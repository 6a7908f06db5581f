import MqttFieldBridge.Config.Init
import MqttFieldBridge.Runtime.Status

/-! # Peers as static seeds, and the state of the whole device

`bridge_control_apply_peers` hands the configured peers to the peer-to-peer stack. Its seed table is
part of the state of the device, `App`, beside the globals of `product_config.c` and of
`product_runtime.c`. A `World` is everything outside that a call may ask. -/

namespace MqttFieldBridge.Runtime

open MqttFieldBridge.CLib MqttFieldBridge.Config

/-- An address and a port of the seed table. -/
abbrev Seed := UInt32 × UInt16

/-- What the outside answers during one call: the config store, the peer-to-peer stack, whether its
table takes a seed, the hardware's device id, and how wide a `long` is, which C lets be 32 bits or
more. -/
structure World where
  store : StoreEnv
  p2p : P2p
  seedAdd : List Seed → Seed → Bool
  deviceId : List Byte
  longBits : ℕ
  longBits_ge : 32 ≤ longBits

/-- A world where nothing fails. -/
def World.good : World where
  store := .good
  p2p := ⟨[], none, fun _ => none⟩
  seedAdd _ _ := true
  deviceId := []
  longBits := 32
  longBits_ge := le_rfl

/-- The state of the device. -/
@[ext] structure App where
  config : ConfigState
  runtime : RuntimeState
  seeds : List Seed

/-- The device after start-up with an empty store. -/
def freshApp : App where
  config := freshConfig
  runtime := productRuntimeInit
  seeds := []

/-- The slots as the loops over them read them. -/
def peerList (c : ConfigState) : List FieldBridgePeer :=
  (List.finRange fieldBridgePeerMax).map c.peers

/-- The loop of `bridge_control_apply_peers`: the seed table and how many seeds were added. -/
def applyPeersLoop (w : World) : List FieldBridgePeer → List Seed → ℕ → List Seed × ℕ
  | [], table, enabled => (table, enabled)
  | peer :: peers, table, enabled =>
    if peer.enabled = 0 then applyPeersLoop w peers table enabled
    else if peer.host.first = 0 then applyPeersLoop w peers table enabled
    else if peer.mqttPort = 0 ∨ peer.p2pPort = 0 then applyPeersLoop w peers table enabled
    else
      match w.p2p.inetPton peer.host.text with
      | none => applyPeersLoop w peers table enabled
      | some addr =>
        if w.seedAdd table (addr, peer.p2pPort) then
          applyPeersLoop w peers (table ++ [(addr, peer.p2pPort)]) (enabled + 1)
        else applyPeersLoop w peers table enabled

/-- The table is cleared first; without the bridge it stays empty. -/
def bridgeControlApplyPeers (w : World) (a : App) : ℕ × App :=
  if a.config.settings.broker.bridgeEnabled = 0 then (0, { a with seeds := [] })
  else
    let r := applyPeersLoop w (peerList a.config) [] 0
    (r.2, { a with seeds := r.1 })

def bridgeControlInit (w : World) (a : App) : App := (bridgeControlApplyPeers w a).2

/-- Applying the peers touches the seed table only. -/
theorem applyPeers_config {w : World} {a : App} :
    (bridgeControlApplyPeers w a).2.config = a.config ∧
      (bridgeControlApplyPeers w a).2.runtime = a.runtime := by
  unfold bridgeControlApplyPeers
  split_ifs
  · exact ⟨rfl, rfl⟩
  · exact ⟨rfl, rfl⟩

end MqttFieldBridge.Runtime
