import MqttFieldBridge.CLib.CharArray
import MqttFieldBridge.Config.Api
import MqttFieldBridge.Runtime.Status

/-! # Console lines

How `product_console.c` reads a line, and what a line asks for. A line is read without looking at the
configuration: its first word and the current menu say which `Request` it is. A settings command
becomes the edit of the settings that it is, `SettingsCommand`. -/

namespace MqttFieldBridge.Console

open MqttFieldBridge.CLib MqttFieldBridge.Config MqttFieldBridge.Runtime

/-! ### Words -/

/-- The delimiters of `strtok_r`. -/
def isDelimiter (c : Byte) : Bool := c = 32 || c = 9 || c = 13 || c = 10

/-- `strtok_r`: the next word, if there is one, and the text after its delimiter. -/
def nextToken (save : Text) : Option Text × Text :=
  let p := save.dropWhile isDelimiter
  if p = [] then (none, [])
  else
    (some (p.takeWhile fun c => !isDelimiter c), (p.dropWhile fun c => !isDelimiter c).drop 1)

/-- The loop of `numeric_menu_command`; an `int` that overflows is taken to wrap. -/
def menuDigits : Text → ℤ → ℤ
  | [], value => value
  | c :: cs, value =>
    if isdigit c then menuDigits cs ((value * 10 + (c.toNat - 48 : ℕ)).bmod (2 ^ 32)) else 0

def numericMenuCommand (cmd : Text) : ℤ := menuDigits cmd 0

/-- `(uint16_t)atoi(t)` and `(uint8_t)atoi(t)`. -/
def atoiU16 (longBits : ℕ) (t : Text) : UInt16 := UInt16.ofInt (atoi longBits t)
def atoiU8 (longBits : ℕ) (t : Text) : UInt8 := UInt8.ofInt (atoi longBits t)

/-! ### What a line asks for -/

inductive Menu where
  | main
  | info
  | settings
  | deviceNetwork
  | broker
  | peerBridge
  | system
deriving DecidableEq

/-- The pages that tell how a command is used. -/
inductive Usage where
  | mode
  | ip
  | brokerPort
  | brokerFallbackPort
  | brokerIp
  | brokerState
  | bridgePort
  | peer
  | defaults
deriving DecidableEq

/-- A command that edits the settings: what it makes of them, what it prints if they cannot be saved
and if they can, and what it does to the runtime status then. -/
structure SettingsCommand where
  edit : FieldBridgeSettings → FieldBridgeSettings
  failed : Text
  saved : FieldBridgeSettings → Text
  after : RuntimeState → RuntimeState

inductive Request where
  | nothing
  | menu (m : Menu)
  | usage (u : Usage)
  | help
  | status
  | summary
  | showConfig
  | settings (cmd : SettingsCommand)
  | peer (index : ℤ) (peer : FieldBridgePeer)
  | defaults (profile : FieldBridgeDefaultsProfile)
  | reset
  | reboot
  /-- Refused for what it is, with the text that says so. -/
  | error (t : Text)

/-! ### The settings commands -/

/-- The address that stands in for a missing gateway. -/
def fallbackGateway : Text := str "192.168.127.5"

/-- What `cmd_ip` does to the network settings. -/
def editIp (ip : Text) (gw mask : Option Text) (n : FieldBridgeNetworkSettings) :
    FieldBridgeNetworkSettings :=
  let n := { n with deviceIp := n.deviceIp.snprintf ip }
  let n :=
    match gw with
    | some gw => { n with gateway := n.gateway.snprintf gw, dns := n.dns.snprintf gw }
    | none =>
      if n.gateway.first = 0 then
        { n with
          gateway := n.gateway.snprintf fallbackGateway
          dns := n.dns.snprintf fallbackGateway }
      else n
  let n :=
    match mask with
    | some mask => { n with netmask := n.netmask.snprintf mask }
    | none =>
      if n.netmask.first = 0 then { n with netmask := n.netmask.snprintf (str "255.255.0.0") }
      else n
  let n :=
    if n.dns.first = 0 then
      { n with
        dns := n.dns.snprintf (if n.gateway.first ≠ 0 then n.gateway.text else fallbackGateway) }
    else n
  { n with dhcpEnabled := 0 }

def cmdIp (save : Text) : Request :=
  let ip := nextToken save
  let gw := nextToken ip.2
  let mask := nextToken gw.2
  match ip.1 with
  | none => .error (str "ERR usage: ip <addr> [gw] [mask]\n")
  | some ip => .settings
    { edit := fun s => { s with network := editIp ip gw.1 mask.1 s.network }
      failed := str "ERR save failed\n"
      saved := fun s => str "OK saved static ip=" ++ s.network.deviceIp.text ++ str " gw=" ++
        s.network.gateway.text ++ str " mask=" ++ s.network.netmask.text ++ str " dns=" ++
        s.network.dns.text ++ str "; reboot to apply\n"
      after := id }

def cmdMode (save : Text) : Request :=
  match (nextToken save).1.bind productConfigNetworkModeFromName with
  | none => .error (str "ERR usage: mode auto|eth\n")
  | some mode => .settings
    { edit := fun s => { s with network.mode := mode }
      failed := str "ERR save mode failed\n"
      saved := fun s => str "OK saved mode=" ++ productConfigNetworkModeName s.network.mode ++
        str "; reboot to apply\n"
      after := id }

def dhcpCommand : SettingsCommand where
  edit s := { s with network.dhcpEnabled := 1 }
  failed := str "ERR save failed\n"
  saved _ := str "OK saved DHCP enabled; reboot to apply\n"
  after := id

def cmdDhcp : Request := .settings dhcpCommand

def cmdBroker (longBits : ℕ) (save : Text) : Request :=
  let mqtt := nextToken save
  let p2p := nextToken mqtt.2
  let ip := nextToken p2p.2
  match mqtt.1, p2p.1 with
  | some mqtt, some p2p => .settings
    { edit := fun s =>
        { s with
          broker :=
            { s.broker with
              mqttPort := atoiU16 longBits mqtt
              p2pPort := atoiU16 longBits p2p
              brokerIp :=
                match ip.1 with
                | some ip => s.broker.brokerIp.snprintf ip
                | none => s.broker.brokerIp } }
      failed := str "ERR save failed\n"
      saved := fun _ => str "OK saved broker config; reboot to apply\n"
      after := id }
  | _, _ => .error (str "ERR legacy usage: broker <broker-port> <bridge-port> [broker-ip]\n")

/-- A command `name` that sets one port. -/
def portCommand (longBits : ℕ) (name : String) (set : UInt16 → FieldBridgeSettings →
    FieldBridgeSettings) (get : FieldBridgeSettings → UInt16) (save : Text) : Request :=
  match (nextToken save).1 with
  | none => .error (str "ERR usage: " ++ str name ++ str " <port>\n")
  | some port => .settings
    { edit := set (atoiU16 longBits port)
      failed := str "ERR save failed\n"
      saved := fun s => str "OK saved " ++ str name ++ str "=" ++ decimal (get s).toNat ++
        str "; reboot to apply\n"
      after := id }

def cmdBrokerPort (longBits : ℕ) : Text → Request :=
  portCommand longBits "broker-port" (fun port s => { s with broker.mqttPort := port })
    fun s => s.broker.mqttPort

def cmdBrokerFallbackPort (longBits : ℕ) : Text → Request :=
  portCommand longBits "broker-fallback-port" (fun port s => { s with broker.fallbackPort := port })
    fun s => s.broker.fallbackPort

def cmdBridgePort (longBits : ℕ) : Text → Request :=
  portCommand longBits "bridge-port" (fun port s => { s with broker.p2pPort := port })
    fun s => s.broker.p2pPort

def cmdBrokerIp (save : Text) : Request :=
  match (nextToken save).1 with
  | none => .error (str "ERR usage: broker-ip <ip>\n")
  | some ip => .settings
    { edit := fun s => { s with broker.brokerIp := s.broker.brokerIp.snprintf ip }
      failed := str "ERR save failed\n"
      saved := fun s => str "OK saved broker-ip=" ++ s.broker.brokerIp.text ++
        str "; reboot to apply\n"
      after := id }

def cmdBrokerState (longBits : ℕ) (save : Text) : Request :=
  match (nextToken save).1 with
  | none => .error (str "ERR usage: broker-state <0|1>\n")
  | some enabled =>
    let value := atoi longBits enabled
    if value ≠ 0 ∧ value ≠ 1 then .error (str "ERR broker-state must be 0 or 1\n")
    else .settings
      { edit := fun s => { s with broker.brokerEnabled := UInt8.ofInt value }
        failed := str "ERR save failed\n"
        saved := fun _ => str "OK saved broker-state=" ++ decimal value.toNat ++
          str "; reboot to apply\n"
        after := fun r => if value = 1 then (productRuntimeSetBrokerEnabled 1 r).2 else r }

/-! ### The other commands that save -/

def cmdPeer (longBits : ℕ) (save : Text) : Request :=
  let index := nextToken save
  let name := nextToken index.2
  let host := nextToken name.2
  let mqtt := nextToken host.2
  let p2p := nextToken mqtt.2
  let enabled := nextToken p2p.2
  match index.1, name.1, host.1 with
  | some index, some name, some host =>
    .peer (atoi longBits index)
      { name := FieldBridgePeer.zero.name.snprintf name
        host := FieldBridgePeer.zero.host.snprintf host
        mqttPort := (mqtt.1.map (atoiU16 longBits)).getD 1883
        p2pPort := (p2p.1.map (atoiU16 longBits)).getD 4884
        enabled := (enabled.1.map (atoiU8 longBits)).getD 1 }
  | _, _, _ =>
    .error (str "ERR usage: peer <i> <name> <host> [broker-port] [bridge-port] [0|1]\n")

def cmdDefaults (save : Text) : Request :=
  match (nextToken save).1 with
  | none => .error (str "ERR usage: defaults small|large\n")
  | some profile =>
    if profile = str "small" then .defaults profileSmall
    else if profile = str "large" then .defaults profileLarge
    else .error (str "ERR unknown defaults profile\n")

/-! ### Menus and lines -/

/-- `cmd_menu_index`: the entry of a menu. -/
def menuRequest (m : Menu) (index : ℤ) : Request :=
  match m with
  | .main =>
    if index = 1 then .menu .info
    else if index = 2 then .menu .settings
    else if index = 3 then .menu .system
    else .error (str "ERR unknown menu index; try menu\n")
  | .info =>
    if index = 1 then .status
    else if index = 2 then .summary
    else if index = 3 then .showConfig
    else .error (str "ERR unknown info index; try info\n")
  | .settings =>
    if index = 1 then .menu .deviceNetwork
    else if index = 2 then .menu .broker
    else if index = 3 then .menu .peerBridge
    else .error (str "ERR unknown settings index; try settings\n")
  | .deviceNetwork =>
    if index = 1 then .usage .mode
    else if index = 2 then .usage .ip
    else if index = 3 then cmdDhcp
    else .error (str "ERR unknown network index; try device-network\n")
  | .broker =>
    if index = 1 then .usage .brokerPort
    else if index = 2 then .usage .brokerFallbackPort
    else if index = 3 then .usage .brokerIp
    else if index = 4 then .usage .brokerState
    else .error (str "ERR unknown local broker index; try local-broker\n")
  | .peerBridge =>
    if index = 1 then .usage .bridgePort
    else if index = 2 then .usage .peer
    else if index = 3 then .usage .defaults
    else .error (str "ERR unknown peer index; try peer-bridge\n")
  | .system =>
    if index = 1 then .reset
    else if index = 2 then .reboot
    else .error (str "ERR unknown system index; try system\n")

/-- The commands that are words, with the text after the word. -/
def commandRequest (longBits : ℕ) (cmd save : Text) : Request :=
  if cmd = str "help" ∨ cmd = str "?" then .help
  else if cmd = str "menu" then .menu .main
  else if cmd = str "info" then .menu .info
  else if cmd = str "settings" then .menu .settings
  else if cmd = str "device-network" ∨ cmd = str "network" then .menu .deviceNetwork
  else if cmd = str "local-broker" ∨ cmd = str "broker-setting" ∨ cmd = str "broker-ui" then
    .menu .broker
  else if cmd = str "peer-bridge" ∨ cmd = str "peer-ui" then .menu .peerBridge
  else if cmd = str "system" then .menu .system
  else if cmd = str "status" then .status
  else if cmd = str "summary" then .summary
  else if cmd = str "show" then .showConfig
  else if cmd = str "ip" then cmdIp save
  else if cmd = str "mode" then cmdMode save
  else if cmd = str "dhcp" then cmdDhcp
  else if cmd = str "broker" then cmdBroker longBits save
  else if cmd = str "broker-port" then cmdBrokerPort longBits save
  else if cmd = str "broker-fallback-port" ∨ cmd = str "fallback-port" then
    cmdBrokerFallbackPort longBits save
  else if cmd = str "broker-ip" then cmdBrokerIp save
  else if cmd = str "bridge-port" then cmdBridgePort longBits save
  else if cmd = str "broker-state" then cmdBrokerState longBits save
  else if cmd = str "peer" then cmdPeer longBits save
  else if cmd = str "defaults" then cmdDefaults save
  else if cmd = str "reset" then .reset
  else if cmd = str "reboot" then .reboot
  else .error (str "ERR unknown command; try help\n")

/-- What a line asks for while `m` is the current menu. -/
def lineRequest (longBits : ℕ) (m : Menu) (line : Text) : Request :=
  match nextToken line with
  | (none, _) => .nothing
  | (some cmd, save) =>
    if cmd = str "0" ∨ cmd = str "back" then .menu .main
    else if numericMenuCommand cmd > 0 then menuRequest m (numericMenuCommand cmd)
    else commandRequest longBits cmd save

/-- A line whose word leaves no menu and is no number is a command. -/
theorem lineRequest_command {longBits : ℕ} {m : Menu} {line cmd save : Text}
    (hword : nextToken line = (some cmd, save)) (hback : ¬ (cmd = str "0" ∨ cmd = str "back"))
    (hnum : ¬ numericMenuCommand cmd > 0) :
    lineRequest longBits m line = commandRequest longBits cmd save := by
  unfold lineRequest
  rw [hword]
  dsimp only
  rw [if_neg hback, if_neg hnum]

/-! ### All that a line can ask for -/

/-- Requests that show something, or reboot. -/
def Request.Plain : Request → Prop
  | .settings _ | .peer _ _ | .defaults _ | .reset | .error _ => False
  | _ => True

/-- The words that ask for a plain request. -/
def plainWords : List String :=
  ["help", "?", "menu", "info", "settings", "device-network", "network", "local-broker",
    "broker-setting", "broker-ui", "peer-bridge", "peer-ui", "system", "status", "summary", "show",
    "reboot"]

/-- What the word `cmd` may ask for. -/
inductive Command (longBits : ℕ) (cmd save : Text) : Request → Prop
  | plain {word : String} {r : Request} (hr : r.Plain) (hw : word ∈ plainWords)
      (h : cmd = str word) : Command longBits cmd save r
  | ip (h : cmd = str "ip") : Command longBits cmd save (cmdIp save)
  | mode (h : cmd = str "mode") : Command longBits cmd save (cmdMode save)
  | dhcp (h : cmd = str "dhcp") : Command longBits cmd save cmdDhcp
  | broker (h : cmd = str "broker") : Command longBits cmd save (cmdBroker longBits save)
  | brokerPort (h : cmd = str "broker-port") :
      Command longBits cmd save (cmdBrokerPort longBits save)
  | brokerFallbackPort (h : cmd = str "broker-fallback-port" ∨ cmd = str "fallback-port") :
      Command longBits cmd save (cmdBrokerFallbackPort longBits save)
  | brokerIp (h : cmd = str "broker-ip") : Command longBits cmd save (cmdBrokerIp save)
  | bridgePort (h : cmd = str "bridge-port") :
      Command longBits cmd save (cmdBridgePort longBits save)
  | brokerState (h : cmd = str "broker-state") :
      Command longBits cmd save (cmdBrokerState longBits save)
  | peer (h : cmd = str "peer") : Command longBits cmd save (cmdPeer longBits save)
  | defaults (h : cmd = str "defaults") : Command longBits cmd save (cmdDefaults save)
  | reset (h : cmd = str "reset") : Command longBits cmd save .reset
  | unknown (t : Text) : Command longBits cmd save (.error t)

/-- What the item `index` of the menu `m` may ask for. -/
inductive MenuItem (m : Menu) (index : ℤ) : Request → Prop
  | plain {r : Request} (hr : r.Plain) (hdhcp : ¬ (m = .deviceNetwork ∧ index = 3))
      (hreset : ¬ (m = .system ∧ index = 1)) : MenuItem m index r
  | dhcp (h : m = .deviceNetwork ∧ index = 3) : MenuItem m index cmdDhcp
  | reset (h : m = .system ∧ index = 1) : MenuItem m index .reset
  | unknown (t : Text) : MenuItem m index (.error t)

/-- A chain of comparisons, one after the other. -/
theorem chain_ite {P : Request → Prop} {c : Prop} [Decidable c] {r r' : Request} (h : c → P r)
    (h' : P r') : P (if c then r else r') := by
  split_ifs with hc
  · exact h hc
  · exact h'

theorem command_commandRequest (longBits : ℕ) (cmd save : Text) :
    Command longBits cmd save (commandRequest longBits cmd save) := by
  have hplain : ∀ {word : String} {r : Request}, word ∈ plainWords → r.Plain →
      cmd = str word → Command longBits cmd save r := fun hw hr h => .plain hr hw h
  unfold commandRequest
  refine chain_ite (fun h => h.elim (hplain (by decide) trivial) (hplain (by decide) trivial)) ?_
  refine chain_ite (hplain (by decide) trivial) (chain_ite (hplain (by decide) trivial) ?_)
  refine chain_ite (hplain (by decide) trivial) ?_
  refine chain_ite (fun h => h.elim (hplain (by decide) trivial) (hplain (by decide) trivial)) ?_
  refine chain_ite (fun h => h.elim (hplain (by decide) trivial) fun h =>
    h.elim (hplain (by decide) trivial) (hplain (by decide) trivial)) ?_
  refine chain_ite (fun h => h.elim (hplain (by decide) trivial) (hplain (by decide) trivial)) ?_
  refine chain_ite (hplain (by decide) trivial) (chain_ite (hplain (by decide) trivial) ?_)
  refine chain_ite (hplain (by decide) trivial) (chain_ite (hplain (by decide) trivial) ?_)
  refine chain_ite .ip (chain_ite .mode (chain_ite .dhcp (chain_ite .broker ?_)))
  refine chain_ite .brokerPort (chain_ite .brokerFallbackPort (chain_ite .brokerIp ?_))
  refine chain_ite .bridgePort (chain_ite .brokerState (chain_ite .peer (chain_ite .defaults ?_)))
  exact chain_ite .reset (chain_ite (hplain (by decide) trivial) (.unknown _))

theorem menuItem_menuRequest (m : Menu) (index : ℤ) : MenuItem m index (menuRequest m index) := by
  have hplain : ∀ {r : Request}, r.Plain → m ≠ .deviceNetwork → m ≠ .system →
      MenuItem m index r := fun hr hd hs => .plain hr (fun h => hd h.1) (fun h => hs h.1)
  have hthree : ∀ {r1 r2 r3 : Request} {t : Text}, r1.Plain → r2.Plain → r3.Plain →
      m ≠ .deviceNetwork → m ≠ .system → MenuItem m index (if index = 1 then r1
        else if index = 2 then r2 else if index = 3 then r3 else .error t) :=
    fun h1 h2 h3 hd hs => chain_ite (fun _ => hplain h1 hd hs) (chain_ite
      (fun _ => hplain h2 hd hs) (chain_ite (fun _ => hplain h3 hd hs) (.unknown _)))
  cases m with
  | main => exact hthree trivial trivial trivial nofun nofun
  | info => exact hthree trivial trivial trivial nofun nofun
  | settings => exact hthree trivial trivial trivial nofun nofun
  | peerBridge => exact hthree trivial trivial trivial nofun nofun
  | broker =>
    have hitem : ∀ {r : Request}, r.Plain → MenuItem .broker index r :=
      fun hr => .plain hr nofun nofun
    exact chain_ite (fun _ => hitem trivial) (chain_ite (fun _ => hitem trivial)
      (chain_ite (fun _ => hitem trivial) (chain_ite (fun _ => hitem trivial) (.unknown _))))
  | deviceNetwork =>
    have hitem : ∀ {r : Request} {i : ℤ}, i ≠ 3 → r.Plain → index = i →
        MenuItem .deviceNetwork index r := fun hi hr h => .plain hr (fun h3 => hi (h ▸ h3.2)) nofun
    exact chain_ite (hitem (by decide) trivial) (chain_ite (hitem (by decide) trivial)
      (chain_ite (fun h => .dhcp ⟨rfl, h⟩) (.unknown _)))
  | system =>
    have hreboot : index = 2 → MenuItem .system index .reboot :=
      fun h => .plain trivial nofun fun h1 => by omega
    exact chain_ite (fun h => .reset ⟨rfl, h⟩) (chain_ite hreboot (.unknown _))

/-- **All that a line can ask for**: nothing or a menu, an item of the menu, or a command. -/
theorem lineRequest_cases (longBits : ℕ) (m : Menu) (line : Text) :
    (nextToken line).1 = none ∧ lineRequest longBits m line = .nothing ∨
    ∃ cmd save, nextToken line = (some cmd, save) ∧
      ((cmd = str "0" ∨ cmd = str "back") ∧ lineRequest longBits m line = .menu .main ∨
        numericMenuCommand cmd > 0 ∧
          lineRequest longBits m line = menuRequest m (numericMenuCommand cmd) ∨
        ¬ numericMenuCommand cmd > 0 ∧
          lineRequest longBits m line = commandRequest longBits cmd save) := by
  unfold lineRequest
  rcases nextToken line with ⟨_ | cmd, save⟩
  · exact Or.inl ⟨rfl, rfl⟩
  · refine Or.inr ⟨cmd, save, rfl, ?_⟩
    dsimp only
    split_ifs with hback hnum
    · exact Or.inl ⟨hback, rfl⟩
    · exact Or.inr (Or.inl ⟨hnum, rfl⟩)
    · exact Or.inr (Or.inr ⟨hnum, rfl⟩)

end MqttFieldBridge.Console
