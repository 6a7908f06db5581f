import MqttFieldBridge.CLib.Decimal
import MqttFieldBridge.Console.Frame

/-! # What is typed and what is stored

The arguments of a line that sets ports, flags, names and addresses (`lineArgs`), each with the field
it is meant for. An argument is `Proper` if it is a number in the range of its field, or a string that
fits. A line is `Acknowledged` as it should be if it stores what was typed when it returns 0, and
fails without a change if an argument is not proper (`acknowledged_iff`). -/

namespace MqttFieldBridge.Console

open MqttFieldBridge.CLib MqttFieldBridge.Config MqttFieldBridge.Runtime

/-! ### The arguments of a line -/

/-- A token and the field it is meant for: a port of at least `lo`, a flag or a string. -/
inductive Arg where
  | port (lo : ℕ) (get : ConfigState → Option UInt16) (token : Text)
  | flag (get : ConfigState → Option UInt8) (token : Text)
  | text {n : ℕ} (get : ConfigState → Option (CharArray n)) (token : Text)

/-- The token is a number in the range of the field, or fits it. -/
def Arg.Proper : Arg → Prop
  | .port lo _ t => Numeral t ∧ lo ≤ numeralValue t ∧ numeralValue t ≤ 65535
  | .flag _ t => Numeral t ∧ numeralValue t ≤ 1
  | @Arg.text n _ t => t.length < n

/-- The token is a number and the field has its value, or the field holds its bytes. -/
def Arg.StoredIn (c : ConfigState) : Arg → Prop
  | .port _ get t => Numeral t ∧ ∃ v, get c = some v ∧ v.toNat = numeralValue t
  | .flag get t => Numeral t ∧ ∃ v, get c = some v ∧ v.toNat = numeralValue t
  | .text get t => ∃ a, get c = some a ∧ a.text = t

/-- The argument of a token that may be missing. -/
def typed (arg : Text → Arg) (token : Option Text) : List Arg := (token.map arg).toList

def ipArgs (save : Text) : List Arg :=
  let ip := nextToken save
  let gw := nextToken ip.2
  let mask := nextToken gw.2
  typed (.text fun c => some c.settings.network.deviceIp) ip.1 ++
    typed (.text fun c => some c.settings.network.gateway) gw.1 ++
    typed (.text fun c => some c.settings.network.netmask) mask.1

def brokerArgs (save : Text) : List Arg :=
  let mqtt := nextToken save
  let p2p := nextToken mqtt.2
  let ip := nextToken p2p.2
  typed (.port 1 fun c => some c.settings.broker.mqttPort) mqtt.1 ++
    typed (.port 1 fun c => some c.settings.broker.p2pPort) p2p.1 ++
    typed (.text fun c => some c.settings.broker.brokerIp) ip.1

/-- The index of the slot is no such argument. A peer that is not enabled may have the port 0. -/
def peerArgs (longBits : ℕ) (save : Text) : List Arg :=
  let index := nextToken save
  let name := nextToken index.2
  let host := nextToken name.2
  let mqtt := nextToken host.2
  let p2p := nextToken mqtt.2
  let enabled := nextToken p2p.2
  let slot : ConfigState → Option FieldBridgePeer := fun c =>
    index.1.bind fun index => productConfigGetPeer (atoi longBits index) c
  typed (.text fun c => (slot c).map FieldBridgePeer.name) name.1 ++
    typed (.text fun c => (slot c).map FieldBridgePeer.host) host.1 ++
    typed (.port 0 fun c => (slot c).map FieldBridgePeer.mqttPort) mqtt.1 ++
    typed (.port 0 fun c => (slot c).map FieldBridgePeer.p2pPort) p2p.1 ++
    typed (.flag fun c => (slot c).map FieldBridgePeer.enabled) enabled.1

/-- The arguments of a line. -/
def lineArgs (longBits : ℕ) (line : Text) : List Arg :=
  match nextToken line with
  | (none, _) => []
  | (some cmd, save) =>
    let first := (nextToken save).1
    if cmd = str "ip" then ipArgs save
    else if cmd = str "broker" then brokerArgs save
    else if cmd = str "broker-port" then
      typed (.port 1 fun c => some c.settings.broker.mqttPort) first
    else if cmd = str "broker-fallback-port" ∨ cmd = str "fallback-port" then
      typed (.port 1 fun c => some c.settings.broker.fallbackPort) first
    else if cmd = str "broker-ip" then typed (.text fun c => some c.settings.broker.brokerIp) first
    else if cmd = str "bridge-port" then
      typed (.port 1 fun c => some c.settings.broker.p2pPort) first
    else if cmd = str "broker-state" then
      typed (.flag fun c => some c.settings.broker.brokerEnabled) first
    else if cmd = str "peer" then peerArgs longBits save
    else []

/-- What is acknowledged is what was typed, and what cannot be stored as it was typed is refused. -/
structure Acknowledged (args : List Arg) (c : ConfigState) (r : Rc × ConfigState) : Prop where
  stored : r.1 = .ok → ∀ a ∈ args, a.StoredIn r.2
  refused : (∃ a ∈ args, ¬ a.Proper) →
    r.1 = .err ∧ r.2.settings = c.settings ∧ r.2.peers = c.peers

/-- An operation that is refused and changes nothing: its record fails its check, or it is the one
there is and is not saved. -/
def OpRefused (env : StoreEnv) (c : ConfigState) : ConfigOp → Prop
  | .setSettings s => SettingsValid s → env.save settingsKey = .err ∧ s = c.settings
  | .setPeer index p => ∀ i, peerIndex index = some i → PeerValid p →
    env.save (peerKey i) = .err ∧ p = c.peers i
  | .resetAll | .applyDefaults _ => False

@[simp] theorem forall_typed {arg : Text → Arg} {token : Option Text} {P : Arg → Prop} :
    (∀ a ∈ typed arg token, P a) ↔ ∀ t, token = some t → P (arg t) := by
  cases token with
  | none => simp [typed]
  | some t => simp [typed]

/-! ### Numbers and strings that are stored -/

variable {longBits : ℕ}

theorem atoiU16_numeral {t : Text} (ht : Numeral t) (hbits : 32 ≤ longBits)
    (hle : numeralValue t ≤ 65535) : (atoiU16 longBits t).toNat = numeralValue t := by
  have hread := atoi_of_numeral ht hbits (by omega)
  unfold atoiU16 UInt16.ofInt
  rw [hread, UInt16.toNat_ofNat']
  omega

theorem atoiU8_numeral {t : Text} (ht : Numeral t) (hbits : 32 ≤ longBits)
    (hle : numeralValue t ≤ 255) : (atoiU8 longBits t).toNat = numeralValue t := by
  have hread := atoi_of_numeral ht hbits (by omega)
  unfold atoiU8 UInt8.ofInt
  rw [hread, UInt8.toNat_ofNat']
  omega

theorem storedIn_port {lo : ℕ} {get : ConfigState → Option UInt16} {t : Text} {c : ConfigState}
    (hbits : 32 ≤ longBits) (h : (Arg.port lo get t).Proper)
    (hget : get c = some (atoiU16 longBits t)) : (Arg.port lo get t).StoredIn c := by
  obtain ⟨hnum, -, hle⟩ := h
  exact ⟨hnum, _, hget, atoiU16_numeral hnum hbits hle⟩

theorem storedIn_flag {get : ConfigState → Option UInt8} {t : Text} {c : ConfigState}
    (hbits : 32 ≤ longBits) (h : (Arg.flag get t).Proper)
    (hget : get c = some (atoiU8 longBits t)) : (Arg.flag get t).StoredIn c := by
  obtain ⟨hnum, hle⟩ := h
  exact ⟨hnum, _, hget, atoiU8_numeral hnum hbits (by omega)⟩

theorem storedIn_text {n : ℕ} {get : ConfigState → Option (CharArray n)} {t : Text}
    {c : ConfigState} (a : CharArray n) (h0 : (0 : Byte) ∉ t) (h : (Arg.text get t).Proper)
    (hget : get c = some (a.snprintf t)) : (Arg.text get t).StoredIn c :=
  ⟨_, hget, CharArray.text_snprintf h0 h⟩

/-- The tokens of a C string, and what is left of it, hold no NUL. -/
theorem notMem_nextToken {save : Text} (h0 : (0 : Byte) ∉ save) :
    (∀ t, (nextToken save).1 = some t → (0 : Byte) ∉ t) ∧ (0 : Byte) ∉ (nextToken save).2 := by
  have hdrop : (0 : Byte) ∉ save.dropWhile isDelimiter := fun h =>
    h0 (( List.dropWhile_suffix _).subset h)
  unfold nextToken
  dsimp only
  split_ifs with hempty
  · exact ⟨fun t ht => absurd ht (by simp), List.not_mem_nil⟩
  · refine ⟨fun t ht => ?_, fun h => ?_⟩
    · rw [← Option.some.inj ht]
      exact fun h => hdrop (( List.takeWhile_prefix _).subset h)
    · exact hdrop (( List.dropWhile_suffix _).subset ((List.drop_suffix 1 _).subset h))

/-! ### What the commands store -/

/-- A request that is refused for what it is, or that stores the arguments as they were typed if they
are proper. -/
inductive Stores (args : List Arg) : Request → Prop
  | error (t : Text) : Stores args (.error t)
  | settings {cmd : SettingsCommand} (h : (∀ a ∈ args, a.Proper) → ∀ s (c' : ConfigState),
      c'.settings = cmd.edit s → ∀ a ∈ args, a.StoredIn c') : Stores args (.settings cmd)
  | peer {index : ℤ} {p : FieldBridgePeer} (h : (∀ a ∈ args, a.Proper) → ∀ c' : ConfigState,
      productConfigGetPeer index c' = some p → ∀ a ∈ args, a.StoredIn c') :
      Stores args (.peer index p)

/-- The addresses that are given are printed into their fields, whatever becomes of the others. -/
theorem editIp_fields (ip : Text) (gw mask : Option Text) (n : FieldBridgeNetworkSettings) :
    (editIp ip gw mask n).deviceIp = n.deviceIp.snprintf ip ∧
      (∀ t, gw = some t → (editIp ip gw mask n).gateway = n.gateway.snprintf t) ∧
      ∀ t, mask = some t → (editIp ip gw mask n).netmask = n.netmask.snprintf t := by
  have hnone : ∀ {P : Text → Prop}, ∀ t, False → P t := fun t h => h.elim
  have hsome : ∀ {a : CharArray fieldBridgeHostMax} {u : Text}, ∀ t, some u = some t →
      a.snprintf u = a.snprintf t := fun t ht => by rw [Option.some.inj ht]
  unfold editIp
  cases gw with
  | none =>
    cases mask with
    | none =>
      dsimp only
      split_ifs <;> exact ⟨rfl, hnone, hnone⟩
    | some mask =>
      dsimp only
      split_ifs <;> exact ⟨rfl, hnone, hsome⟩
  | some gw =>
    cases mask with
    | none =>
      dsimp only
      split_ifs <;> exact ⟨rfl, hsome, hnone⟩
    | some mask =>
      dsimp only
      split_ifs <;> exact ⟨rfl, hsome, hsome⟩

variable {save : Text}

theorem stores_cmdIp (h0 : (0 : Byte) ∉ save) : Stores (ipArgs save) (cmdIp save) := by
  obtain ⟨hip0, h1⟩ := notMem_nextToken h0
  obtain ⟨hgw0, h2⟩ := notMem_nextToken h1
  obtain ⟨hmask0, -⟩ := notMem_nextToken h2
  unfold cmdIp ipArgs
  dsimp only
  rcases hip : (nextToken save).1 with _ | ip
  · exact .error _
  · refine .settings ?_
    simp only [List.forall_mem_append, forall_typed]
    rintro ⟨⟨hip', hgw'⟩, hmask'⟩ s c' hs
    obtain ⟨hdev, hgw, hmask⟩ := editIp_fields ip (nextToken (nextToken save).2).1
      (nextToken (nextToken (nextToken save).2).2).1 s.network
    refine ⟨⟨fun t ht => ?_, fun t ht => ?_⟩, fun t ht => ?_⟩
    · rw [← Option.some.inj ht]
      refine storedIn_text s.network.deviceIp (hip0 ip hip) (hip' ip rfl) ?_
      rw [hs, hdev]
    · refine storedIn_text s.network.gateway (hgw0 t ht) (hgw' t ht) ?_
      rw [hs, hgw t ht]
    · refine storedIn_text s.network.netmask (hmask0 t ht) (hmask' t ht) ?_
      rw [hs, hmask t ht]

theorem stores_cmdBroker (hbits : 32 ≤ longBits) (h0 : (0 : Byte) ∉ save) :
    Stores (brokerArgs save) (cmdBroker longBits save) := by
  have hip0 := (notMem_nextToken (notMem_nextToken (notMem_nextToken h0).2).2).1
  unfold cmdBroker brokerArgs
  dsimp only
  rcases hmqtt : (nextToken save).1 with _ | mqtt
  · exact .error _
  rcases hp2p : (nextToken (nextToken save).2).1 with _ | p2p
  · exact .error _
  refine .settings ?_
  simp only [List.forall_mem_append, forall_typed]
  rintro ⟨⟨hmqtt', hp2p'⟩, hip'⟩ s c' hs
  refine ⟨⟨fun t ht => ?_, fun t ht => ?_⟩, fun t ht => ?_⟩
  · refine storedIn_port hbits (hmqtt' t ht) ?_
    rw [hs, Option.some.inj ht]
  · refine storedIn_port hbits (hp2p' t ht) ?_
    rw [hs, Option.some.inj ht]
  · refine storedIn_text s.broker.brokerIp (hip0 t ht) (hip' t ht) ?_
    rw [hs, ht]

/-- The commands that set one port. -/
theorem stores_portCommand (get : FieldBridgeSettings → UInt16) (hbits : 32 ≤ longBits)
    {name : String} {set : UInt16 → FieldBridgeSettings → FieldBridgeSettings}
    (hset : ∀ port s, get (set port s) = port) :
    Stores (typed (.port 1 fun c => some (get c.settings)) (nextToken save).1)
      (portCommand longBits name set get save) := by
  unfold portCommand
  rcases (nextToken save).1 with _ | port
  · exact .error _
  · refine .settings ?_
    simp only [forall_typed]
    intro hport s c' hs t ht
    refine storedIn_port hbits (hport t ht) ?_
    rw [hs, hset, Option.some.inj ht]

theorem stores_cmdBrokerPort (hbits : 32 ≤ longBits) :
    Stores (typed (.port 1 fun c => some c.settings.broker.mqttPort) (nextToken save).1)
      (cmdBrokerPort longBits save) := by
  refine stores_portCommand (fun s => s.broker.mqttPort) hbits ?_
  exact fun _ _ => rfl

theorem stores_cmdBrokerFallbackPort (hbits : 32 ≤ longBits) :
    Stores (typed (.port 1 fun c => some c.settings.broker.fallbackPort) (nextToken save).1)
      (cmdBrokerFallbackPort longBits save) := by
  refine stores_portCommand (fun s => s.broker.fallbackPort) hbits ?_
  exact fun _ _ => rfl

theorem stores_cmdBridgePort (hbits : 32 ≤ longBits) :
    Stores (typed (.port 1 fun c => some c.settings.broker.p2pPort) (nextToken save).1)
      (cmdBridgePort longBits save) := by
  refine stores_portCommand (fun s => s.broker.p2pPort) hbits ?_
  exact fun _ _ => rfl

theorem stores_cmdBrokerIp (h0 : (0 : Byte) ∉ save) :
    Stores (typed (.text fun c => some c.settings.broker.brokerIp) (nextToken save).1)
      (cmdBrokerIp save) := by
  have hip0 := (notMem_nextToken h0).1
  unfold cmdBrokerIp
  rcases hip : (nextToken save).1 with _ | ip
  · exact .error _
  · refine .settings ?_
    simp only [forall_typed]
    intro hip' s c' hs t ht
    refine storedIn_text s.broker.brokerIp (hip0 t (hip.trans ht)) (hip' t ht) ?_
    rw [hs, Option.some.inj ht]

theorem stores_cmdBrokerState (hbits : 32 ≤ longBits) :
    Stores (typed (.flag fun c => some c.settings.broker.brokerEnabled) (nextToken save).1)
      (cmdBrokerState longBits save) := by
  unfold cmdBrokerState
  rcases (nextToken save).1 with _ | enabled
  · exact .error _
  · refine chain_ite (fun _ => .error _) (.settings ?_)
    simp only [forall_typed]
    intro henabled s c' hs t ht
    refine storedIn_flag hbits (henabled t ht) ?_
    rw [hs, ← Option.some.inj ht]
    rfl

theorem stores_cmdPeer (hbits : 32 ≤ longBits) (h0 : (0 : Byte) ∉ save) :
    Stores (peerArgs longBits save) (cmdPeer longBits save) := by
  obtain ⟨-, h1⟩ := notMem_nextToken h0
  obtain ⟨hname0, h2⟩ := notMem_nextToken h1
  obtain ⟨hhost0, -⟩ := notMem_nextToken h2
  unfold cmdPeer peerArgs
  dsimp only
  rcases hindex : (nextToken save).1 with _ | index
  · exact .error _
  rcases hname : (nextToken (nextToken save).2).1 with _ | name
  · exact .error _
  rcases hhost : (nextToken (nextToken (nextToken save).2).2).1 with _ | host
  · exact .error _
  refine .peer ?_
  simp only [List.forall_mem_append, forall_typed, Option.bind_some]
  rintro ⟨⟨⟨⟨hname', hhost'⟩, hmqtt'⟩, hp2p'⟩, henabled'⟩ c' hslot
  refine ⟨⟨⟨⟨fun t ht => ?_, fun t ht => ?_⟩, fun t ht => ?_⟩, fun t ht => ?_⟩, fun t ht => ?_⟩
  · refine storedIn_text FieldBridgePeer.zero.name (hname0 t (hname.trans ht)) (hname' t ht) ?_
    rw [hslot, Option.map_some, Option.some.inj ht]
  · refine storedIn_text FieldBridgePeer.zero.host (hhost0 t (hhost.trans ht)) (hhost' t ht) ?_
    rw [hslot, Option.map_some, Option.some.inj ht]
  · refine storedIn_port hbits (hmqtt' t ht) ?_
    rw [hslot, Option.map_some, ht, Option.map_some, Option.getD_some]
  · refine storedIn_port hbits (hp2p' t ht) ?_
    rw [hslot, Option.map_some, ht, Option.map_some, Option.getD_some]
  · refine storedIn_flag hbits (henabled' t ht) ?_
    rw [hslot, Option.map_some, ht, Option.map_some, Option.getD_some]

/-! ### What a line stores -/

/-- What a line with a command word stores is what its command stores. -/
theorem Stores.of_command {args : List Arg} {m : Menu} {line cmd word : Text}
    (hword : nextToken line = (some cmd, save)) (h : cmd = word)
    (hback : ¬ (word = str "0" ∨ word = str "back")) (hnum : ¬ numericMenuCommand word > 0)
    (hstores : Stores args (commandRequest longBits word save)) :
    Stores args (lineRequest longBits m line) := by
  rw [h] at hword
  rw [lineRequest_command hword hback hnum]
  exact hstores

/-- **Every line** has no such arguments, or asks to store them. -/
theorem stores_lineRequest (hbits : 32 ≤ longBits) (m : Menu) {line : Text}
    (h0 : (0 : Byte) ∉ line) : lineArgs longBits line = [] ∨
      Stores (lineArgs longBits line) (lineRequest longBits m line) := by
  have hsave0 := (notMem_nextToken h0).2
  unfold lineArgs
  rcases hword : nextToken line with ⟨_ | cmd, save⟩
  · exact Or.inl rfl
  rw [hword] at hsave0
  dsimp only
  split_ifs with h1 h2 h3 h4 h5 h6 h7 h8
  · exact Or.inr (.of_command hword h1 (by decide) (by decide) (stores_cmdIp hsave0))
  · exact Or.inr (.of_command hword h2 (by decide) (by decide) (stores_cmdBroker hbits hsave0))
  · exact Or.inr (.of_command hword h3 (by decide) (by decide) (stores_cmdBrokerPort hbits))
  · have hstores := @stores_cmdBrokerFallbackPort longBits save hbits
    rcases h4 with h4 | h4
    · exact Or.inr (.of_command hword h4 (by decide) (by decide) hstores)
    · exact Or.inr (.of_command hword h4 (by decide) (by decide) hstores)
  · exact Or.inr (.of_command hword h5 (by decide) (by decide) (stores_cmdBrokerIp hsave0))
  · exact Or.inr (.of_command hword h6 (by decide) (by decide) (stores_cmdBridgePort hbits))
  · exact Or.inr (.of_command hword h7 (by decide) (by decide) (stores_cmdBrokerState hbits))
  · exact Or.inr (.of_command hword h8 (by decide) (by decide) (stores_cmdPeer hbits hsave0))
  · exact Or.inl rfl

/-! ### When a line is acknowledged as it should be -/

section Perform

variable {w : World} {k : ConsoleState}

theorem setSettings_refused_iff {env : StoreEnv} {s : FieldBridgeSettings} {c : ConfigState} :
    ((productConfigSetSettings env s c).1 = .err ∧
      (productConfigSetSettings env s c).2.settings = c.settings ∧
        (productConfigSetSettings env s c).2.peers = c.peers) ↔ OpRefused env c (.setSettings s) := by
  unfold OpRefused
  by_cases hv : SettingsValid s
  · rw [productConfigSetSettings_of_valid hv]
    constructor
    · rintro ⟨hsave, hset, -⟩ -
      exact ⟨hsave, hset⟩
    · intro h
      obtain ⟨hsave, hset⟩ := h hv
      exact ⟨hsave, hset, rfl⟩
  · rw [productConfigSetSettings_of_invalid hv]
    exact ⟨fun _ h => absurd h hv, fun _ => ⟨rfl, rfl, rfl⟩⟩

theorem setPeer_refused_iff {env : StoreEnv} {index : ℤ} {p : FieldBridgePeer} {c : ConfigState} :
    ((productConfigSetPeer env index p c).1 = .err ∧
      (productConfigSetPeer env index p c).2.settings = c.settings ∧
        (productConfigSetPeer env index p c).2.peers = c.peers) ↔
      OpRefused env c (.setPeer index p) := by
  unfold OpRefused
  by_cases hv : ∃ i, peerIndex index = some i ∧ PeerValid p
  · obtain ⟨i, hi, hv⟩ := hv
    rw [productConfigSetPeer_of_valid hi hv]
    constructor
    · rintro ⟨hsave, -, hpeers⟩ j hj -
      have hij : i = j := Option.some.inj (hi.symm.trans hj)
      have hslot : Function.update c.peers i p i = c.peers i := congrFun hpeers i
      rw [Function.update_self] at hslot
      rw [← hij]
      exact ⟨hsave, hslot⟩
    · intro h
      obtain ⟨hsave, hp⟩ := h i hi hv
      refine ⟨hsave, rfl, ?_⟩
      rw [hp]
      exact Function.update_eq_self i c.peers
  · have hnot : ∀ i, peerIndex index = some i → ¬ PeerValid p := fun i hi h => hv ⟨i, hi, h⟩
    rw [productConfigSetPeer_of_invalid hnot]
    exact ⟨fun _ i hi h => absurd h (hnot i hi), fun _ => ⟨rfl, rfl, rfl⟩⟩

/-- Proper arguments are found where they belong if the request returns 0. -/
theorem Stores.stored {args : List Arg} {r : Request} (h : Stores args r)
    (hproper : ∀ a ∈ args, a.Proper) (hok : (perform w k r).call.1 = .ok) :
    ∀ a ∈ args, a.StoredIn (perform w k r).call.2 := by
  cases h with
  | error t => cases hok
  | @settings cmd h =>
    refine h hproper k.app.config.settings _ ?_
    have hcall : (perform w k (.settings cmd)).call = _ := performSettings_call
    rw [hcall] at hok ⊢
    by_cases hv : SettingsValid (cmd.edit k.app.config.settings)
    · rw [productConfigSetSettings_of_valid hv]
    · rw [productConfigSetSettings_of_invalid hv] at hok
      cases hok
  | @peer index p h =>
    refine h hproper _ ?_
    have hcall : (perform w k (.peer index p)).call = _ := performPeer_call
    rw [hcall] at hok ⊢
    by_cases hv : ∃ i, peerIndex index = some i ∧ PeerValid p
    · obtain ⟨i, hi, hv⟩ := hv
      rw [productConfigSetPeer_of_valid hi hv]
      unfold productConfigGetPeer
      rw [hi, Option.map_some]
      exact congrArg some (Function.update_self i p k.app.config.peers)
    · rw [productConfigSetPeer_of_invalid fun i hi h => hv ⟨i, hi, h⟩] at hok
      cases hok

theorem Stores.refused_iff {args : List Arg} {r : Request} (h : Stores args r) :
    ((perform w k r).call.1 = .err ∧
      (perform w k r).call.2.settings = k.app.config.settings ∧
        (perform w k r).call.2.peers = k.app.config.peers) ↔
      ∀ o, r.configOp k.app.config.settings = some o → OpRefused w.store k.app.config o := by
  cases h with
  | error t => exact ⟨fun _ o ho => absurd ho (by simp [Request.configOp]), fun _ => ⟨rfl, rfl, rfl⟩⟩
  | @settings cmd h =>
    have hcall : (perform w k (.settings cmd)).call = _ := performSettings_call
    rw [hcall, setSettings_refused_iff]
    simp [Request.configOp]
  | @peer index p h =>
    have hcall : (perform w k (.peer index p)).call = _ := performPeer_call
    rw [hcall, setPeer_refused_iff]
    simp [Request.configOp]

end Perform

/-- **A line stores what was typed**, and refuses what it cannot store so, exactly if its arguments
are proper or the operation that it asks for is refused. -/
theorem acknowledged_iff (w : World) (k : ConsoleState) (line : Text) :
    Acknowledged (lineArgs w.longBits (cstr line)) k.app.config
        (productConsoleHandleLine w k line).call ↔
      (∀ a ∈ lineArgs w.longBits (cstr line), a.Proper) ∨
        ∀ o, (lineRequest w.longBits k.menu (cstr line)).configOp k.app.config.settings = some o →
          OpRefused w.store k.app.config o := by
  rcases stores_lineRequest w.longBits_ge k.menu (zero_notMem_cstr line) with hargs | hstores
  · rw [hargs]
    have hnone : ∀ {P : Arg → Prop}, ∀ a ∈ ([] : List Arg), P a := fun a ha => absurd ha (by simp)
    refine iff_of_true ⟨fun _ => hnone, ?_⟩ (Or.inl hnone)
    rintro ⟨a, ha, -⟩
    cases ha
  by_cases hproper : ∀ a ∈ lineArgs w.longBits (cstr line), a.Proper
  · refine iff_of_true ⟨hstores.stored hproper, ?_⟩ (Or.inl hproper)
    rintro ⟨a, ha, hnot⟩
    exact absurd (hproper a ha) hnot
  · have hbad : ∃ a ∈ lineArgs w.longBits (cstr line), ¬ a.Proper := by
      by_contra hnone
      exact hproper fun a ha => not_not.mp fun h => hnone ⟨a, ha, h⟩
    rw [or_iff_right hproper, ← hstores.refused_iff]
    constructor
    · intro h
      exact h.refused hbad
    · intro h
      refine ⟨fun hok => ?_, fun _ => h⟩
      have herr : (perform w k (lineRequest w.longBits k.menu (cstr line))).call.1 = .ok := hok
      rw [h.1] at herr
      cases herr

/-- A port that is out of range is stored modulo `2 ^ 16`, a name that does not fit is cut, and both
lines return 0. -/
theorem acknowledged_wrapped :
    ¬ Acknowledged (lineArgs 32 (cstr (str "broker-port 67421"))) freshConfig
        (productConsoleHandleLine .good ⟨.main, freshApp⟩ (str "broker-port 67421")).call ∧
      ¬ Acknowledged (lineArgs 32 (cstr (str "peer 0 gateway-of-the-northern-building 10.0.0.2")))
        freshConfig (productConsoleHandleLine .good ⟨.main, freshApp⟩
          (str "peer 0 gateway-of-the-northern-building 10.0.0.2")).call := by
  constructor
  · intro h
    refine absurd (h.refused ⟨.port 1 (fun c => some c.settings.broker.mqttPort) (str "67421"),
      List.mem_singleton_self _, fun hp => ?_⟩).1 (by decide)
    exact absurd hp.2.2 (by decide)
  · intro h
    refine absurd (h.refused ⟨_, List.mem_cons_self, fun hp => ?_⟩).1 (by decide)
    have hlen : (str "gateway-of-the-northern-building").length < fieldBridgeNameMax := hp
    exact absurd hlen (by decide)

end MqttFieldBridge.Console
