import MqttFieldBridge.Config.Frame
import MqttFieldBridge.Console.Handle

/-! # A line changes only what its command is about

`lineScope` says what a line is about: it depends on the command word, or on the current menu and the
item that a numeric line means, and on nothing after it. `Scope.Allows` is what a line with this scope
may change. -/

namespace MqttFieldBridge.Console

open MqttFieldBridge.CLib MqttFieldBridge.Config MqttFieldBridge.Runtime

/-! ### What a line is about -/

inductive Scope where
  | nothing
  | mode
  | dhcp
  | ip
  | broker
  | brokerPort
  | brokerFallbackPort
  | brokerIp
  | bridgePort
  | brokerState
  | peer
  | defaults
deriving DecidableEq

/-- The commands that may change the configuration. -/
def commandScopes : List (String × Scope) :=
  [("mode", .mode), ("dhcp", .dhcp), ("ip", .ip), ("broker", .broker),
    ("broker-port", .brokerPort), ("broker-fallback-port", .brokerFallbackPort),
    ("fallback-port", .brokerFallbackPort), ("broker-ip", .brokerIp), ("bridge-port", .bridgePort),
    ("broker-state", .brokerState), ("peer", .peer), ("defaults", .defaults), ("reset", .defaults)]

def commandScope (cmd : Text) : Scope :=
  ((commandScopes.find? fun e => str e.1 = cmd).map Prod.snd).getD .nothing

/-- The menu items that change the configuration. -/
def menuScope (m : Menu) (index : ℤ) : Scope :=
  if m = .deviceNetwork ∧ index = 3 then .dhcp
  else if m = .system ∧ index = 1 then .defaults
  else .nothing

def lineScope (m : Menu) (line : Text) : Scope :=
  match (nextToken line).1 with
  | none => .nothing
  | some cmd =>
    if numericMenuCommand cmd > 0 then menuScope m (numericMenuCommand cmd) else commandScope cmd

/-! ### What it may change -/

/-- The settings differ in the fields of the scope only. -/
def Scope.Edits : Scope → FieldBridgeSettings → FieldBridgeSettings → Prop
  | .mode, s, s' => ∃ mode, s' = { s with network.mode := mode }
  | .dhcp, s, s' => ∃ dhcp, s' = { s with network.dhcpEnabled := dhcp }
  | .ip, s, s' => ∃ ip gw mask dns dhcp, s' =
      { s with
        network :=
          { s.network with
            deviceIp := ip
            gateway := gw
            netmask := mask
            dns := dns
            dhcpEnabled := dhcp } }
  | .broker, s, s' => ∃ mqtt p2p ip, s' =
      { s with broker := { s.broker with mqttPort := mqtt, p2pPort := p2p, brokerIp := ip } }
  | .brokerPort, s, s' => ∃ port, s' = { s with broker.mqttPort := port }
  | .brokerFallbackPort, s, s' => ∃ port, s' = { s with broker.fallbackPort := port }
  | .brokerIp, s, s' => ∃ ip, s' = { s with broker.brokerIp := ip }
  | .bridgePort, s, s' => ∃ port, s' = { s with broker.p2pPort := port }
  | .brokerState, s, s' => ∃ enabled, s' = { s with broker.brokerEnabled := enabled }
  | .nothing, _, _ | .peer, _, _ | .defaults, _, _ => False

/-- What a line that returns 0 may have changed. -/
def Scope.Allows (deviceId : List Byte) : Scope → ConfigState → ConfigState → Prop
  | .nothing, c, c' => c'.settings = c.settings ∧ c'.peers = c.peers
  | .peer, c, c' => c'.settings = c.settings ∧ ∃ i p, c'.peers = Function.update c.peers i p
  | .defaults, _, c' => Wiped (defaultSettings deviceId) c' ∨ Wiped (largeDefaultSettings deviceId) c'
  | sc, c, c' => sc.Edits c.settings c'.settings ∧ c'.peers = c.peers

/-- A request that stays in the scope. -/
def Scope.Covers (sc : Scope) : Request → Prop
  | .settings cmd => ∀ s, sc.Edits s (cmd.edit s)
  | .peer _ _ => sc = .peer
  | .defaults profile => sc = .defaults ∧ (profile = profileSmall ∨ profile = profileLarge)
  | .reset => sc = .defaults
  | .error _ => True
  | _ => sc = .nothing

/-! ### A request in the scope changes no more -/

section Perform

variable {w : World} {k : ConsoleState}

theorem saves_frames {r : Rc × ConfigState} {P : ConfigState → Prop} {failed saved : Text}
    (h : Frames k.app.config r P) : Frames k.app.config (saves k r failed saved).call P := by
  rw [saves_call]
  exact h

theorem performSettings_frames (h : SavesSucceed w.store) (cmd : SettingsCommand) :
    Frames k.app.config (performSettings w k cmd).call fun c' =>
      c'.settings = cmd.edit k.app.config.settings ∧ c'.peers = k.app.config.peers := by
  rw [performSettings_call]
  exact setSettings_frames h _

theorem performPeer_frames (h : SavesSucceed w.store) (index : ℤ) (peer : FieldBridgePeer) :
    Frames k.app.config (performPeer w k index peer).call fun c' =>
      c'.settings = k.app.config.settings ∧
        ∃ i p, c'.peers = Function.update k.app.config.peers i p := by
  rw [performPeer_call]
  refine (setPeer_frames h index peer).mono fun c' hc => ?_
  obtain ⟨hs, i, -, hp⟩ := hc
  exact ⟨hs, i, peer, hp⟩

theorem performDefaults_frames (h : SavesSucceed w.store) {profile : FieldBridgeDefaultsProfile}
    (hp : profile = profileSmall ∨ profile = profileLarge) :
    Frames k.app.config (performDefaults w k profile).call
      (Scope.defaults.Allows w.deviceId k.app.config) := by
  rcases hp with rfl | rfl
  · exact saves_frames ((applySmall_frames h).mono fun _ hw => Or.inl hw)
  · exact saves_frames ((applyLarge_frames h).mono fun _ hw => Or.inr hw)

theorem performReset_frames (h : SavesSucceed w.store) :
    Frames k.app.config (performReset w k).call
      (Scope.defaults.Allows w.deviceId k.app.config) :=
  saves_frames ((resetAll_frames h).mono fun _ hw => Or.inl hw)

/-- For a scope of settings, a settings edit is all that is allowed. -/
theorem Scope.Edits.allows {sc : Scope} {deviceId : List Byte} {c c' : ConfigState}
    (h : sc.Edits c.settings c'.settings) (hp : c'.peers = c.peers) :
    sc.Allows deviceId c c' := by
  cases sc with
  | nothing => exact h.elim
  | peer => exact h.elim
  | defaults => exact h.elim
  | _ => exact ⟨h, hp⟩

theorem perform_frames (h : SavesSucceed w.store) {sc : Scope} {r : Request} (hr : sc.Covers r) :
    Frames k.app.config (perform w k r).call (sc.Allows w.deviceId k.app.config) := by
  cases r with
  | settings cmd =>
    refine (performSettings_frames h cmd).mono fun c' hc => ?_
    obtain ⟨hs, hp⟩ := hc
    have hedit : sc.Edits k.app.config.settings c'.settings := hs ▸ hr k.app.config.settings
    exact hedit.allows hp
  | peer index p =>
    rw [show sc = .peer from hr]
    exact performPeer_frames h index p
  | defaults profile =>
    obtain ⟨rfl, hp⟩ := hr
    exact performDefaults_frames h hp
  | reset =>
    rw [show sc = .defaults from hr]
    exact performReset_frames h
  | error t => exact frames_err
  | _ =>
    rw [show sc = .nothing from hr]
    exact frames_ok ⟨rfl, rfl⟩

end Perform

/-! ### Every line asks for a request in its scope -/

theorem mode_ite {c : Prop} [Decidable c] {m : UInt8} {n n' : FieldBridgeNetworkSettings}
    (h : n.mode = m) (h' : n'.mode = m) : (if c then n else n').mode = m := by
  split_ifs
  · exact h
  · exact h'

/-- `cmd_ip` leaves the network mode alone. -/
theorem editIp_mode (ip : Text) (gw mask : Option Text) (n : FieldBridgeNetworkSettings) :
    (editIp ip gw mask n).mode = n.mode := by
  unfold editIp
  extract_lets n1 n2 n3 n4
  have h2 : n2.mode = n1.mode := by
    cases gw with
    | some gw => rfl
    | none => exact mode_ite rfl rfl
  have h3 : n3.mode = n2.mode := by
    cases mask with
    | some mask => rfl
    | none => exact mode_ite rfl rfl
  have h4 : n4.mode = n3.mode := mode_ite rfl rfl
  exact h4.trans (h3.trans h2)

theorem covers_cmdIp (save : Text) : Scope.ip.Covers (cmdIp save) := by
  unfold cmdIp
  dsimp only
  rcases (nextToken save).1 with _ | ip
  · trivial
  · intro s
    obtain ⟨n, hn⟩ : ∃ n, n = editIp ip (nextToken (nextToken save).2).1
      (nextToken (nextToken (nextToken save).2).2).1 s.network := ⟨_, rfl⟩
    have hmode : n.mode = s.network.mode := hn ▸ editIp_mode _ _ _ _
    refine ⟨n.deviceIp, n.gateway, n.netmask, n.dns, n.dhcpEnabled, ?_⟩
    show { s with network := editIp _ _ _ s.network } = _
    rw [← hn]
    simp only [← hmode]

theorem covers_cmdMode (save : Text) : Scope.mode.Covers (cmdMode save) := by
  unfold cmdMode
  rcases (nextToken save).1.bind productConfigNetworkModeFromName with _ | mode
  · trivial
  · exact fun s => ⟨mode, rfl⟩

theorem covers_cmdDhcp : Scope.dhcp.Covers cmdDhcp := fun _ => ⟨1, rfl⟩

theorem covers_cmdBroker (longBits : ℕ) (save : Text) :
    Scope.broker.Covers (cmdBroker longBits save) := by
  unfold cmdBroker
  dsimp only
  split
  · exact fun s => ⟨_, _, _, rfl⟩
  · trivial

theorem covers_portCommand {sc : Scope} {longBits : ℕ} {name : String}
    {set : UInt16 → FieldBridgeSettings → FieldBridgeSettings} {get : FieldBridgeSettings → UInt16}
    (h : ∀ port s, sc.Edits s (set port s)) (save : Text) :
    sc.Covers (portCommand longBits name set get save) := by
  unfold portCommand
  rcases (nextToken save).1 with _ | port
  · trivial
  · exact fun s => h _ s

theorem covers_cmdBrokerPort (longBits : ℕ) (save : Text) :
    Scope.brokerPort.Covers (cmdBrokerPort longBits save) := by
  refine covers_portCommand ?_ save
  exact fun port s => ⟨port, rfl⟩

theorem covers_cmdBrokerFallbackPort (longBits : ℕ) (save : Text) :
    Scope.brokerFallbackPort.Covers (cmdBrokerFallbackPort longBits save) := by
  refine covers_portCommand ?_ save
  exact fun port s => ⟨port, rfl⟩

theorem covers_cmdBridgePort (longBits : ℕ) (save : Text) :
    Scope.bridgePort.Covers (cmdBridgePort longBits save) := by
  refine covers_portCommand ?_ save
  exact fun port s => ⟨port, rfl⟩

theorem covers_cmdBrokerIp (save : Text) : Scope.brokerIp.Covers (cmdBrokerIp save) := by
  unfold cmdBrokerIp
  rcases (nextToken save).1 with _ | ip
  · trivial
  · exact fun s => ⟨_, rfl⟩

theorem covers_cmdBrokerState (longBits : ℕ) (save : Text) :
    Scope.brokerState.Covers (cmdBrokerState longBits save) := by
  unfold cmdBrokerState
  rcases (nextToken save).1 with _ | enabled
  · trivial
  · exact chain_ite (fun _ => trivial) fun s => ⟨_, rfl⟩

theorem covers_cmdPeer (longBits : ℕ) (save : Text) : Scope.peer.Covers (cmdPeer longBits save) := by
  unfold cmdPeer
  dsimp only
  split
  · rfl
  · trivial

theorem covers_cmdDefaults (save : Text) : Scope.defaults.Covers (cmdDefaults save) := by
  unfold cmdDefaults
  rcases (nextToken save).1 with _ | profile
  · trivial
  · exact chain_ite (fun _ => ⟨rfl, Or.inl rfl⟩) (chain_ite (fun _ => ⟨rfl, Or.inr rfl⟩) trivial)

/-- A plain request changes nothing. -/
theorem covers_plain {r : Request} (h : r.Plain) : Scope.nothing.Covers r := by
  cases r with
  | settings cmd => exact h.elim
  | peer index p => exact h.elim
  | defaults profile => exact h.elim
  | reset => exact h.elim
  | error t => exact h.elim
  | _ => rfl

theorem commandScope_plain : ∀ word ∈ plainWords, commandScope (str word) = .nothing := by
  decide

/-- What a command word is about, read off the table. -/
theorem covers_of_word (sc : Scope) {cmd word : Text} {r : Request} (hs : commandScope word = sc)
    (hr : sc.Covers r) (h : cmd = word) : (commandScope cmd).Covers r := by
  rw [h, hs]
  exact hr

theorem Command.covers {longBits : ℕ} {cmd save : Text} {r : Request}
    (h : Command longBits cmd save r) : (commandScope cmd).Covers r := by
  cases h with
  | plain hr hw h => exact covers_of_word _ (commandScope_plain _ hw) (covers_plain hr) h
  | ip h => exact covers_of_word _ (by decide) (covers_cmdIp save) h
  | mode h => exact covers_of_word _ (by decide) (covers_cmdMode save) h
  | dhcp h => exact covers_of_word _ (by decide) covers_cmdDhcp h
  | broker h => exact covers_of_word _ (by decide) (covers_cmdBroker longBits save) h
  | brokerPort h =>
    exact covers_of_word _ (by decide) (covers_cmdBrokerPort longBits save) h
  | brokerFallbackPort h =>
    have hfallback := covers_cmdBrokerFallbackPort longBits save
    rcases h with h | h
    · exact covers_of_word _ (by decide) hfallback h
    · exact covers_of_word _ (by decide) hfallback h
  | brokerIp h => exact covers_of_word _ (by decide) (covers_cmdBrokerIp save) h
  | bridgePort h =>
    exact covers_of_word _ (by decide) (covers_cmdBridgePort longBits save) h
  | brokerState h =>
    exact covers_of_word _ (by decide) (covers_cmdBrokerState longBits save) h
  | peer h => exact covers_of_word _ (by decide) (covers_cmdPeer longBits save) h
  | defaults h => exact covers_of_word _ (by decide) (covers_cmdDefaults save) h
  | reset h => exact covers_of_word .defaults (by decide) rfl h
  | unknown t => trivial

theorem MenuItem.covers {m : Menu} {index : ℤ} {r : Request} (h : MenuItem m index r) :
    (menuScope m index).Covers r := by
  unfold menuScope
  cases h with
  | plain hr hdhcp hreset =>
    rw [if_neg hdhcp, if_neg hreset]
    exact covers_plain hr
  | dhcp h =>
    rw [if_pos h]
    exact covers_cmdDhcp
  | reset h =>
    have hnot : ¬ (m = .deviceNetwork ∧ index = 3) := fun hd => by
      have hi := hd.2.symm.trans h.2
      omega
    rw [if_neg hnot, if_pos h]
    rfl
  | unknown t => trivial

theorem covers_lineRequest (longBits : ℕ) (m : Menu) (line : Text) :
    (lineScope m line).Covers (lineRequest longBits m line) := by
  unfold lineScope
  rcases lineRequest_cases longBits m line with
    ⟨hw, h⟩ | ⟨cmd, save, hw, ⟨hback, h⟩ | ⟨hnum, h⟩ | ⟨hnum, h⟩⟩
  · rw [h, hw]
    rfl
  · -- neither word is a number above 0 or in the table
    have hscope : numericMenuCommand cmd = 0 ∧ commandScope cmd = .nothing := by
      rcases hback with rfl | rfl
      · decide
      · decide
    rw [h, hw]
    dsimp only
    rw [hscope.1, if_neg (lt_irrefl 0), hscope.2]
    rfl
  · rw [h, hw]
    dsimp only
    rw [if_pos hnum]
    exact (menuItem_menuRequest m _).covers
  · rw [h, hw]
    dsimp only
    rw [if_neg hnum]
    exact (command_commandRequest longBits cmd save).covers

/-- **A line changes only what its command is about, and an error changes nothing.** -/
theorem handleLine_frames {w : World} (h : SavesSucceed w.store) (k : ConsoleState) (line : Text) :
    Frames k.app.config (productConsoleHandleLine w k line).call
      ((lineScope k.menu (cstr line)).Allows w.deviceId k.app.config) :=
  perform_frames h (covers_lineRequest w.longBits k.menu (cstr line))

theorem handleLine_frames_mode :
    Frames freshConfig (productConsoleHandleLine .good ⟨.main, freshApp⟩ (str "mode eth")).call
      ((lineScope .main (cstr (str "mode eth"))).Allows [] freshConfig) :=
  handleLine_frames (fun _ => rfl) ⟨.main, freshApp⟩ (str "mode eth")

end MqttFieldBridge.Console
