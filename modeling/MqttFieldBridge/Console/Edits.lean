import MqttFieldBridge.Console.Line

/-! # What a line may ask to store

Every string that a command stores is printed into its field by `snprintf`, which ends it with a NUL.
So what a line asks to store is terminated if the settings it edits are. -/

namespace MqttFieldBridge.Console

open MqttFieldBridge.CLib MqttFieldBridge.Config MqttFieldBridge.Runtime

/-- What a request asks to store is terminated. -/
def Request.Terminates : Request → Prop
  | .settings cmd => ∀ s, SettingsTerminated s → SettingsTerminated (cmd.edit s)
  | .peer _ p => PeerTerminated p
  | _ => True

theorem terminated_print {n : ℕ} (a : CharArray (n + 1)) (t : Text) : (a.snprintf t).Terminated :=
  CharArray.terminated_snprintf (Nat.succ_pos n)

theorem networkTerminated_editIp {ip : Text} {gw mask : Option Text}
    {n : FieldBridgeNetworkSettings} (h : NetworkTerminated n) :
    NetworkTerminated (editIp ip gw mask n) := by
  have hip : NetworkTerminated { n with deviceIp := n.deviceIp.snprintf ip } :=
    { h with deviceIp := terminated_print _ _ }
  unfold editIp
  extract_lets n1 n2 n3 n4
  have h2 : NetworkTerminated n2 := by
    cases gw with
    | none =>
      by_cases hg : n1.gateway.first = 0
      · rw [show n2 = _ from if_pos hg]
        exact { hip with gateway := terminated_print _ _, dns := terminated_print _ _ }
      · rw [show n2 = _ from if_neg hg]
        exact hip
    | some gw => exact { hip with gateway := terminated_print _ _, dns := terminated_print _ _ }
  have h3 : NetworkTerminated n3 := by
    cases mask with
    | none =>
      by_cases hm : n2.netmask.first = 0
      · rw [show n3 = _ from if_pos hm]
        exact { h2 with netmask := terminated_print _ _ }
      · rw [show n3 = _ from if_neg hm]
        exact h2
    | some mask => exact { h2 with netmask := terminated_print _ _ }
  have h4 : NetworkTerminated n4 := by
    by_cases hd : n3.dns.first = 0
    · rw [show n4 = _ from if_pos hd]
      exact { h3 with dns := terminated_print _ _ }
    · rw [show n4 = _ from if_neg hd]
      exact h3
  exact { h4 with }

theorem terminates_cmdIp (save : Text) : (cmdIp save).Terminates := by
  unfold cmdIp
  dsimp only
  rcases (nextToken save).1 with _ | ip
  · trivial
  · exact fun s h => { h with network := networkTerminated_editIp h.network }

theorem terminates_cmdMode (save : Text) : (cmdMode save).Terminates := by
  unfold cmdMode
  rcases (nextToken save).1.bind productConfigNetworkModeFromName with _ | mode
  · trivial
  · exact fun s h => { h with network := { h.network with } }

theorem terminates_cmdDhcp : cmdDhcp.Terminates :=
  fun _ h => { h with network := { h.network with } }

theorem terminates_cmdBroker (longBits : ℕ) (save : Text) :
    (cmdBroker longBits save).Terminates := by
  unfold cmdBroker
  dsimp only
  split
  · intro s h
    refine { h with brokerIp := ?_ }
    dsimp only
    split
    · exact terminated_print _ _
    · exact h.brokerIp
  · trivial

theorem terminates_portCommand {longBits : ℕ} {name : String}
    {set : UInt16 → FieldBridgeSettings → FieldBridgeSettings} {get : FieldBridgeSettings → UInt16}
    (h : ∀ port s, SettingsTerminated s → SettingsTerminated (set port s)) (save : Text) :
    (portCommand longBits name set get save).Terminates := by
  unfold portCommand
  rcases (nextToken save).1 with _ | port
  · trivial
  · exact fun s hs => h _ s hs

theorem terminates_cmdBrokerIp (save : Text) : (cmdBrokerIp save).Terminates := by
  unfold cmdBrokerIp
  rcases (nextToken save).1 with _ | ip
  · trivial
  · exact fun s h => { h with brokerIp := terminated_print _ _ }

theorem terminates_cmdBrokerState (longBits : ℕ) (save : Text) :
    (cmdBrokerState longBits save).Terminates := by
  unfold cmdBrokerState
  rcases (nextToken save).1 with _ | enabled
  · trivial
  · refine chain_ite (fun _ => trivial) ?_
    exact fun s h => { h with }

theorem terminates_cmdPeer (longBits : ℕ) (save : Text) : (cmdPeer longBits save).Terminates := by
  unfold cmdPeer
  dsimp only
  split
  · exact ⟨terminated_print _ _, terminated_print _ _⟩
  · trivial

theorem terminates_cmdDefaults (save : Text) : (cmdDefaults save).Terminates := by
  unfold cmdDefaults
  rcases (nextToken save).1 with _ | profile
  · trivial
  · exact chain_ite (fun _ => trivial) (chain_ite (fun _ => trivial) trivial)

/-- A plain request stores nothing. -/
theorem Request.Plain.terminates {r : Request} (h : r.Plain) : r.Terminates := by
  cases r with
  | settings cmd => exact h.elim
  | peer index p => exact h.elim
  | _ => trivial

theorem MenuItem.terminates {m : Menu} {index : ℤ} {r : Request} (h : MenuItem m index r) :
    r.Terminates := by
  cases h with
  | plain hr => exact hr.terminates
  | dhcp => exact terminates_cmdDhcp
  | reset => trivial
  | unknown t => trivial

theorem Command.terminates {longBits : ℕ} {cmd save : Text} {r : Request}
    (h : Command longBits cmd save r) : r.Terminates := by
  cases h with
  | plain hr => exact hr.terminates
  | ip => exact terminates_cmdIp save
  | mode => exact terminates_cmdMode save
  | dhcp => exact terminates_cmdDhcp
  | broker => exact terminates_cmdBroker longBits save
  | brokerPort =>
    refine terminates_portCommand ?_ save
    exact fun _ _ h => { h with }
  | brokerFallbackPort =>
    refine terminates_portCommand ?_ save
    exact fun _ _ h => { h with }
  | brokerIp => exact terminates_cmdBrokerIp save
  | bridgePort =>
    refine terminates_portCommand ?_ save
    exact fun _ _ h => { h with }
  | brokerState => exact terminates_cmdBrokerState longBits save
  | peer => exact terminates_cmdPeer longBits save
  | defaults => exact terminates_cmdDefaults save
  | reset => trivial
  | unknown t => trivial

/-- **What a line asks to store is terminated.** -/
theorem terminates_lineRequest (longBits : ℕ) (m : Menu) (line : Text) :
    (lineRequest longBits m line).Terminates := by
  rcases lineRequest_cases longBits m line with ⟨-, h⟩ | ⟨cmd, save, -, ⟨-, h⟩ | ⟨-, h⟩ | ⟨-, h⟩⟩
  · rw [h]
    trivial
  · rw [h]
    trivial
  · rw [h]
    exact (menuItem_menuRequest m _).terminates
  · rw [h]
    exact (command_commandRequest longBits cmd save).terminates

end MqttFieldBridge.Console
