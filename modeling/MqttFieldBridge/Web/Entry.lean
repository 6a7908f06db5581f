import MqttFieldBridge.Http.Faithful
import MqttFieldBridge.Http.Restore
import MqttFieldBridge.Web.Script

/-! # What is typed into the settings page

An entry is what a user means by the inputs of the page (`Typed`, `PeerTyped`). If the object `C` shows
settings, then after the assignments of `s` it shows these with the entry, whatever the inputs showed
before (`collect_typed`), and what is posted is the text in which a device shows them
(`stringify_config`). -/

namespace MqttFieldBridge.Web

open MqttFieldBridge.CLib MqttFieldBridge.Config MqttFieldBridge.Http MqttFieldBridge.Json

/-! ### Texts -/

/-- A text that needs no escape and is no key of `apply_config_json`. -/
structure Writable (t : Text) : Prop where
  plain : PlainText t
  key : ∀ f ∈ configFields, t ≠ f.key

theorem Writable.harmless {t : Text} (h : Writable t) : Harmless t :=
  ⟨h.plain.bytes.1, h.plain.bytes.2.1, h.key⟩

theorem PlainText.zero_notMem {t : Text} (h : PlainText t) : 0 ∉ t := fun h0 =>
  absurd (h.bytes.2.2 0 h0) (by decide)

/-- An array that holds this text. -/
def typedArray (n : ℕ) (t : Text) : CharArray n := (CharArray.zero n).write (t ++ [0])

theorem text_typedArray {n : ℕ} {t : Text} (h : PlainText t) (hlen : t.length < n) :
    (typedArray n t).text = t :=
  CharArray.text_write (PlainText.zero_notMem h) hlen

theorem terminated_typedArray {n : ℕ} {t : Text} (hlen : t.length < n) :
    (typedArray n t).Terminated :=
  CharArray.terminated_write hlen

/-! ### Entries -/

/-- What a user means by the inputs of the settings. -/
structure Entry where
  mode : UInt8
  dhcpEnabled : Bool
  deviceIp : Text
  gateway : Text
  netmask : Text
  dns : Text
  brokerIp : Text
  topicPrefix : Text
  mqttPort : UInt16
  fallbackPort : UInt16
  p2pPort : UInt16

namespace Entry

/-- The texts with the `id` of their inputs. -/
def texts (e : Entry) : List (Text × Text) :=
  [(str "device_ip", e.deviceIp), (str "gateway", e.gateway), (str "netmask", e.netmask),
    (str "dns", e.dns), (str "broker_ip", e.brokerIp), (str "topic_prefix", e.topicPrefix)]

/-- The ports with the `id` of their inputs and what the script takes for a missing one. -/
def ports (e : Entry) : List (Text × ℕ × UInt16) :=
  [(str "mqtt_port", 1883, e.mqttPort), (str "fallback_port", 1884, e.fallbackPort),
    (str "p2p_port", 4884, e.p2pPort)]

/-- The entry can be stored: a mode that passes the check, ports, and texts that fit. -/
structure Sound (e : Entry) : Prop where
  mode : e.mode = networkModeAuto ∨ e.mode = networkModeEth
  texts : ∀ p ∈ e.texts, Writable p.2 ∧ p.2.length < fieldBridgeHostMax
  ports : ∀ p ∈ e.ports, p.2.2 ≠ 0

/-- The settings `s` with the entry: the name of the device, the site and the flags of the broker are
not on the page. -/
def onto (e : Entry) (s : FieldBridgeSettings) : FieldBridgeSettings where
  system := s.system
  network :=
    { deviceIp := typedArray _ e.deviceIp
      gateway := typedArray _ e.gateway
      netmask := typedArray _ e.netmask
      dns := typedArray _ e.dns
      dhcpEnabled := if e.dhcpEnabled then 1 else 0
      mode := e.mode }
  broker :=
    { s.broker with
      brokerIp := typedArray _ e.brokerIp
      topicPrefix := typedArray _ e.topicPrefix
      mqttPort := e.mqttPort
      fallbackPort := e.fallbackPort
      p2pPort := e.p2pPort }

end Entry

/-- The inputs mean this entry to the script. -/
structure Typed (B : Browser) (F : SettingsForm) (e : Entry) : Prop where
  mode : F.mode = plain (productConfigNetworkModeName e.mode)
  dhcpEnabled : F.dhcpEnabled = e.dhcpEnabled
  texts : ∀ p ∈ e.texts, F.input p.1 = plain p.2
  ports : ∀ p ∈ e.ports,
    plusOr B (some (.string (F.input p.1))) p.2.1 = .number (.ofNat p.2.2.toNat)

variable {B : Browser} {F : SettingsForm} {e : Entry} {s : FieldBridgeSettings}

theorem plusOr_natural {n d : ℕ} {k : JsonString} (hn : n ≠ 0)
    (h : B.toNumber k = .finite (.ofNat n)) : plusOr B (some (.string k)) d = .number (.ofNat n) := by
  have hplus : plus B (some (.string k)) = .finite (.ofNat n) := h
  unfold plusOr
  rw [hplus]
  exact if_neg fun hzero => hn (JsonNumber.digits_ofNat.mp hzero)

/-! ### The object of the script -/

/-- The object that shows settings. -/
def configObject (s : FieldBridgeSettings) : JsonObject := .ofRaw (configMembers s)

theorem members_configObject : (configObject s).members = (configMembers s).map RawMember.member :=
  JsonObject.members_ofRaw configMembers_distinct

/-- The first assignments of `s`: the inputs, the mode and the flag. -/
def inputs (F : SettingsForm) : List Member :=
  (ethFields ++ brokerFields).map (fun f => (plain f, .string (F.input f))) ++
    [(key "mode", .string F.mode), (key "dhcp_enabled", flagValue F.dhcpEnabled)]

/-- The assignments of `s` to the ports. -/
def portMembers (e : Entry) : List Member :=
  e.ports.map fun p => (plain p.1, .number (.ofNat p.2.2.toNat))

theorem collect_assign (h : Typed B F e) (C : JsonObject) :
    collect B F C = (C.assign (inputs F)).assign (portMembers e) := by
  have hports := h.ports
  simp only [Entry.ports, List.forall_mem_cons] at hports
  obtain ⟨hmqtt, hfallback, hp2p, -⟩ := hports
  have hinputs : (C.assign (inputs F)) = (((ethFields ++ brokerFields).foldl
      (fun C f => C.set (plain f) (.string (F.input f))) C).set (key "mode") (.string F.mode)).set
        (key "dhcp_enabled") (flagValue F.dhcpEnabled) := by
    unfold inputs
    rw [JsonObject.assign_append, JsonObject.assign, JsonObject.assign, List.foldl_map]
    rfl
  have hget : ∀ f ∈ [str "mqtt_port", str "fallback_port", str "p2p_port"],
      (C.assign (inputs F)).get? (plain f) = some (.string (F.input f)) := by
    simp only [List.forall_mem_cons, JsonObject.get?_assign]
    exact ⟨rfl, rfl, rfl, List.forall_mem_nil _⟩
  simp only [List.forall_mem_cons] at hget
  obtain ⟨hget1, hget2, hget3, -⟩ := hget
  have hne : key "mqtt_port" ≠ key "fallback_port" ∧ key "mqtt_port" ≠ key "p2p_port" ∧
      key "fallback_port" ≠ key "p2p_port" := by decide
  unfold collect
  dsimp only
  rw [← hinputs]
  generalize C.assign (inputs F) = C' at hget1 hget2 hget3 ⊢
  have hvalue1 : plusOr B (C'.get? (key "mqtt_port")) 1883 = .number (.ofNat e.mqttPort.toNat) :=
    (congrArg (plusOr B · 1883) hget1).trans hmqtt
  rw [hvalue1, JsonObject.get?_set_of_ne hne.1]
  have hvalue2 : plusOr B (C'.get? (key "fallback_port")) 1884 =
      .number (.ofNat e.fallbackPort.toNat) := (congrArg (plusOr B · 1884) hget2).trans hfallback
  rw [hvalue2, JsonObject.get?_set_of_ne hne.2.2, JsonObject.get?_set_of_ne hne.2.1]
  have hvalue3 : plusOr B (C'.get? (key "p2p_port")) 4884 = .number (.ofNat e.p2pPort.toNat) :=
    (congrArg (plusOr B · 4884) hget3).trans hp2p
  rw [hvalue3]
  rfl

/-- The script assigns to members that are there. -/
theorem mem_keys_inputs : ∀ a ∈ inputs F ++ portMembers e, a.1 ∈ (configObject s).keys := by
  have hraw : (configObject s).keys = ((configMembers s).map Prod.fst).map plain := by
    rw [← keys_raw, ← members_configObject]
    rfl
  have hassigned : (inputs F ++ portMembers e).map Prod.fst =
      (ethFields ++ brokerFields ++ [str "mode", str "dhcp_enabled", str "mqtt_port",
        str "fallback_port", str "p2p_port"]).map plain := rfl
  have hcheck : ∀ k ∈ ethFields ++ brokerFields ++ [str "mode", str "dhcp_enabled",
      str "mqtt_port", str "fallback_port", str "p2p_port"], k ∈ (configMembers s).map Prod.fst := by
    simp only [configMembers, List.map_cons, List.map_nil]
    decide
  intro a ha
  have hmem := List.mem_map_of_mem (f := Prod.fst) ha
  rw [hassigned] at hmem
  obtain ⟨k, hk, hka⟩ := List.mem_map.mp hmem
  rw [hraw, ← hka]
  exact List.mem_map_of_mem (hcheck k hk)

theorem flagValue_eq (b : Bool) :
    flagValue b = .number (.ofNat (if b then 1 else 0 : UInt8).toNat) := by
  cases b with
  | true => rfl
  | false => rfl

/-- **The object shows the entry** after the assignments of `s`, and what it has shown before of the
rest. -/
theorem collect_typed (h : Typed B F e) (he : e.Sound) :
    collect B F (configObject s) = configObject (e.onto s) := by
  have htexts := h.texts
  have hsound := he.texts
  simp only [Entry.texts, List.forall_mem_cons] at htexts hsound
  obtain ⟨h1, h2, h3, h4, h5, h6, -⟩ := htexts
  obtain ⟨⟨t1, l1⟩, ⟨t2, l2⟩, ⟨t3, l3⟩, ⟨t4, l4⟩, ⟨t5, l5⟩, ⟨t6, l6⟩, -⟩ := hsound
  have hdhcp : flagValue F.dhcpEnabled =
      .number (.ofNat (if e.dhcpEnabled then 1 else 0 : UInt8).toNat) := by
    rw [h.dhcpEnabled, flagValue_eq]
  have htext : ∀ {n : ℕ} {f t : Text}, F.input f = plain t → PlainText t → t.length < n →
      JsonValue.string (F.input f) = .string (plain (typedArray n t).text) := by
    intro n f t hf ht hlen
    rw [hf, text_typedArray ht hlen]
  refine JsonObject.ext_members ?_
  rw [collect_assign h, ← JsonObject.assign_append, JsonObject.members_assign _ mem_keys_inputs,
    members_configObject, members_configObject]
  simp only [configMembers, List.map_cons, List.map_nil, List.cons.injEq, and_true]
  exact ⟨rfl, rfl, rfl, congrArg (Prod.mk _) (congrArg JsonValue.string h.mode),
    congrArg (Prod.mk _) (htext h1 t1.plain l1), congrArg (Prod.mk _) (htext h2 t2.plain l2),
    congrArg (Prod.mk _) (htext h3 t3.plain l3), congrArg (Prod.mk _) (htext h4 t4.plain l4),
    congrArg (Prod.mk _) hdhcp, congrArg (Prod.mk _) (htext h5 t5.plain l5), rfl,
    congrArg (Prod.mk _) (htext h6 t6.plain l6), rfl, rfl, rfl, rfl, rfl, rfl⟩

/-! ### The texts that are posted and read -/

/-- Settings that the object of the script may show: all but the checks that compare ports. -/
structure Postable (s : FieldBridgeSettings) : Prop where
  readable : ∀ f ∈ configFields, f.slot.Readable s
  terminated : SettingsTerminated s
  texts : ∀ t ∈ settingsTexts s, Writable t

theorem postable_of_sound (hs : SettingsSound s) (ht : ∀ t ∈ settingsTexts s, Writable t) : Postable s :=
  ⟨readable_configFields hs.valid hs.terminated fun t h => (ht t h).harmless, hs.terminated, ht⟩

theorem Postable.onto (h : Postable s) (he : e.Sound) : Postable (e.onto s) := by
  obtain ⟨hreadable, hterm, htexts⟩ := h
  have hsound := he.texts
  have hports := he.ports
  simp only [Entry.texts, Entry.ports, List.forall_mem_cons] at hsound hports
  obtain ⟨⟨t1, l1⟩, ⟨t2, l2⟩, ⟨t3, l3⟩, ⟨t4, l4⟩, ⟨t5, l5⟩, ⟨t6, l6⟩, -⟩ := hsound
  obtain ⟨hmqtt, hfallback, hp2p, -⟩ := hports
  have hdhcp : (if e.dhcpEnabled then 1 else 0 : UInt8) ≤ 1 := by
    split_ifs
    · decide
    · decide
  have harray : ∀ {t : Text}, PlainText t → t.length < 64 →
      (typedArray 64 t).Terminated ∧ 34 ∉ (typedArray 64 t).text ∧ 92 ∉ (typedArray 64 t).text := by
    intro t ht hlen
    rw [text_typedArray ht hlen]
    exact ⟨terminated_typedArray hlen, ht.bytes.1, ht.bytes.2.1⟩
  simp only [configFields, List.forall_mem_cons, Slot.Readable] at hreadable
  obtain ⟨hname, -, -, -, -, -, hsite, -, -, -, hbroker, hbridge, hmesh, -⟩ := hreadable
  refine ⟨?_, ⟨hterm.deviceName, ⟨(harray t1.plain l1).1, (harray t2.plain l2).1,
    (harray t3.plain l3).1, (harray t4.plain l4).1⟩, (harray t5.plain l5).1, hterm.siteId,
    (harray t6.plain l6).1⟩, ?_⟩
  · simp only [configFields, List.forall_mem_cons, Slot.Readable]
    exact ⟨hname, harray t1.plain l1, harray t2.plain l2, harray t3.plain l3, harray t4.plain l4,
      harray t5.plain l5, hsite, harray t6.plain l6, he.mode, hdhcp, hbroker, hbridge, hmesh, hmqtt,
      hfallback, hp2p, List.forall_mem_nil _⟩
  · have htext : ∀ {t : Text}, Writable t → t.length < 64 → Writable (typedArray 64 t).text := by
      intro t ht hlen
      rw [text_typedArray ht.plain hlen]
      exact ht
    simp only [settingsTexts, List.forall_mem_cons] at htexts ⊢
    obtain ⟨hn, -, -, -, -, -, hs, -⟩ := htexts
    exact ⟨hn, htext t1 l1, htext t2 l2, htext t3 l3, htext t4 l4, htext t5 l5, hs, htext t6 l6,
      List.forall_mem_nil _⟩

theorem number_lt {n k : ℕ} (hn : n < 10 ^ 21) (h : RawValue.number n = .number k) : k < 10 ^ 21 :=
  RawValue.number.inj h ▸ hn

/-- A string holds no number. -/
theorem string_lt {t : Text} (n : ℕ) (h : RawValue.string t = .number n) : n < 10 ^ 21 := by
  cases h

theorem u16_lt (n : UInt16) : n.toNat < 10 ^ 21 := n.toNat_lt.trans (by decide)

theorem u8_lt (n : UInt8) : n.toNat < 10 ^ 21 := n.toNat_lt.trans (by decide)

/-- **What the script posts of settings is what a device shows of them.** -/
theorem stringify_config (h : Postable s) :
    stringify (configObject s) = rawObject (configMembers s) := by
  refine stringify_ofRaw configMembers_distinct ((keyed_configMembers s).verbatim
    (plain_configMembers_iff.mpr fun t ht => (h.texts t ht).plain) ?_)
  simp only [configMembers, List.forall_mem_cons]
  exact ⟨string_lt, string_lt, fun _ => number_lt (u16_lt _), string_lt, string_lt, string_lt,
    string_lt, string_lt, fun _ => number_lt (u8_lt _), string_lt, string_lt, string_lt,
    fun _ => number_lt (u16_lt _), fun _ => number_lt (u16_lt _), fun _ => number_lt (u16_lt _),
    fun _ => number_lt (u8_lt _), fun _ => number_lt (u8_lt _), fun _ => number_lt (u8_lt _),
    List.forall_mem_nil _⟩

/-- The script reads the object from what a device shows. -/
theorem parseObject_config (h : ∀ t ∈ settingsTexts s, Writable t) :
    parseObject (rawObject (configMembers s)) = some (configObject s) :=
  parseObject_rawObject (keyed_configMembers s)
    (plain_configMembers_iff.mpr fun t ht => (h t ht).plain)

/-! ### Peers -/

/-- What a user means by the row of a peer. -/
structure PeerEntry where
  enabled : Bool
  name : Text
  host : Text
  mqttPort : UInt16
  p2pPort : UInt16

/-- The entry can be stored. -/
structure PeerEntry.Sound (e : PeerEntry) : Prop where
  name : PlainText e.name ∧ (∀ f ∈ peerFields, e.name ≠ f.key) ∧ e.name.length < fieldBridgeNameMax
  host : PlainText e.host ∧ (∀ f ∈ peerFields, e.host ≠ f.key) ∧ e.host.length < fieldBridgeHostMax
  mqttPort : e.mqttPort ≠ 0
  p2pPort : e.p2pPort ≠ 0

def PeerEntry.peer (e : PeerEntry) : FieldBridgePeer :=
  ⟨typedArray _ e.name, typedArray _ e.host, e.mqttPort, e.p2pPort, if e.enabled then 1 else 0⟩

/-- The inputs of the row mean this entry to the script. -/
structure PeerTyped (B : Browser) (F : PeerForm) (e : PeerEntry) : Prop where
  enabled : F.enabled = e.enabled
  name : F.name = plain e.name
  host : F.host = plain e.host
  mqttPort : plusOr B (some (.string F.mqttPort)) 1883 = .number (.ofNat e.mqttPort.toNat)
  p2pPort : plusOr B (some (.string F.p2pPort)) 4884 = .number (.ofNat e.p2pPort.toNat)

/-- The members of the object of `V`. -/
def rowMembers (p : FieldBridgePeer) : List RawMember :=
  [(str "enabled", .number p.enabled.toNat),
    (str "name", .string p.name.text),
    (str "host", .string p.host.text),
    (str "mqtt_port", .number p.mqttPort.toNat),
    (str "p2p_port", .number p.p2pPort.toNat)]

variable {R : PeerForm} {d : PeerEntry}

theorem PeerEntry.Sound.texts (h : d.Sound) : d.peer.name.text = d.name ∧ d.peer.host.text = d.host :=
  ⟨text_typedArray h.name.1 h.name.2.2, text_typedArray h.host.1 h.host.2.2⟩

theorem PeerEntry.Sound.terminated (h : d.Sound) : PeerTerminated d.peer :=
  ⟨terminated_typedArray h.name.2.2, terminated_typedArray h.host.2.2⟩

theorem PeerEntry.Sound.harmless (h : d.Sound) : HarmlessPeer d.peer := by
  unfold HarmlessPeer
  rw [h.texts.1, h.texts.2]
  simp only [List.forall_mem_cons]
  exact ⟨⟨h.name.1.bytes.1, h.name.1.bytes.2.1, h.name.2.1⟩,
    ⟨h.host.1.bytes.1, h.host.1.bytes.2.1, h.host.2.1⟩, List.forall_mem_nil _⟩

theorem PeerEntry.enabled_le (d : PeerEntry) : d.peer.enabled ≤ 1 := by
  show (if d.enabled then 1 else 0 : UInt8) ≤ 1
  split_ifs
  · decide
  · decide

theorem keyed_rowMembers (p : FieldBridgePeer) : Keyed (rowMembers p) := by
  refine keyed_of_ascii (List.cons_ne_nil _ _) ?_ ?_
  · simp only [rowMembers, List.map_cons, List.map_nil]
    decide
  · simp only [rowMembers, List.map_cons, List.map_nil]
    decide

theorem shows_rowMembers {p : FieldBridgePeer} (hp : HarmlessPeer p) :
    Shows peerFields (rowMembers p) p where
  members := by
    simp only [peerFields, List.forall_mem_cons, Slot.printedValue, rowMembers]
    simp
  distinct := (keyed_rowMembers p).distinct
  names m hm := ((keyed_rowMembers p).keys m hm).bytes.1
  strings := by
    simp only [HarmlessPeer, List.forall_mem_cons] at hp
    obtain ⟨hname, hhost, -⟩ := hp
    simp only [rowMembers, List.forall_mem_cons]
    exact ⟨RawValue.of_number, RawValue.of_string ⟨hname.1, hname.2.2⟩,
      RawValue.of_string ⟨hhost.1, hhost.2.2⟩, RawValue.of_number, RawValue.of_number,
      List.forall_mem_nil _⟩

theorem peerObject_typed (h : PeerTyped B R d) (hd : d.Sound) :
    peerObject B R = .ofRaw (rowMembers d.peer) := by
  have henabled : flagValue R.enabled = .number (.ofNat d.peer.enabled.toNat) := by
    rw [h.enabled, flagValue_eq]
    rfl
  unfold peerObject rowMembers JsonObject.ofRaw
  rw [henabled, h.name, h.host, h.mqttPort, h.p2pPort, hd.texts.1, hd.texts.2]
  rfl

/-- **What the script posts of a row.** -/
theorem stringify_row (h : PeerTyped B R d) (hd : d.Sound) :
    stringify (peerObject B R) = rawObject (rowMembers d.peer) := by
  rw [peerObject_typed h hd]
  refine stringify_ofRaw (keyed_rowMembers _).distinct ((keyed_rowMembers _).verbatim ?_ ?_)
  · simp only [rowMembers, List.forall_mem_cons, plainValue_string, plainValue_number, hd.texts.1,
      hd.texts.2]
    exact ⟨trivial, hd.name.1, hd.host.1, trivial, trivial, List.forall_mem_nil _⟩
  · simp only [rowMembers, List.forall_mem_cons]
    exact ⟨fun _ => number_lt (u8_lt _), string_lt, string_lt, fun _ => number_lt (u16_lt _),
      fun _ => number_lt (u16_lt _), List.forall_mem_nil _⟩

end MqttFieldBridge.Web
