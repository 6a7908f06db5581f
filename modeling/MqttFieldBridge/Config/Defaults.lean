import MqttFieldBridge.Config.Validate

/-! # The default settings

`settings_defaults` is a sequence of assignments to the global settings. It is modelled as this
sequence, `settingsDefaultsAssigns`, since another thread may run between two of them; executed in
one go it leaves `defaultSettings`, whatever was there before. A build that reads the hardware's
device id overrides two addresses on six known boards; a build that does not has the empty id. -/

namespace MqttFieldBridge.Config

open MqttFieldBridge.CLib

/-- One assignment to the global settings. -/
abbrev Assign := FieldBridgeSettings → FieldBridgeSettings

/-- The assignments one after another. -/
def runAssigns (l : List Assign) (s : FieldBridgeSettings) : FieldBridgeSettings :=
  l.foldl (fun s f => f s) s

/-- The boards that `apply_known_esp32_default_ip` knows, by the tail of their id. -/
def knownBoards : List (List Byte × Text) :=
  [([0x60, 0x37, 0x28], str "192.168.127.10"), ([0x0c, 0x5d, 0xd8], str "192.168.127.11"),
    ([0x60, 0x39, 0xe8], str "192.168.127.12"), ([0x0c, 0x20, 0x90], str "192.168.127.13"),
    ([0x09, 0xc4, 0x04], str "192.168.127.14"), ([0x5a, 0xb4, 0x1c], str "192.168.127.15")]

/-- The address of the first known board whose tail the id has. -/
def knownBoardIp (deviceId : List Byte) : Option Text :=
  if deviceId.length < 3 then none
  else (knownBoards.find? fun b => deviceId.drop (deviceId.length - 3) = b.1).map Prod.snd

def applyKnownEsp32DefaultIp : Option Text → List Assign
  | none => []
  | some ip =>
    [fun s => { s with network.deviceIp := s.network.deviceIp.strncpy ip },
      fun s => { s with broker.brokerIp := s.broker.brokerIp.strncpy ip }]

/-- `settings_defaults` up to the board's address. -/
def settingsDefaultsHead : List Assign :=
  [fun _ => .zero,
    fun s => { s with system.deviceName := s.system.deviceName.strncpy (str "esp32-min-broker") },
    fun s => { s with network.deviceIp := s.network.deviceIp.strncpy (str "192.168.127.10") },
    fun s => { s with network.gateway := s.network.gateway.strncpy (str "192.168.127.5") },
    fun s => { s with network.netmask := s.network.netmask.strncpy (str "255.255.0.0") },
    fun s => { s with network.dns := s.network.dns.strncpy (str "192.168.127.5") },
    fun s => { s with network.dhcpEnabled := 0 },
    fun s => { s with broker.brokerIp := s.broker.brokerIp.strncpy (str "192.168.127.10") }]

/-- `settings_defaults` after the board's address. -/
def settingsDefaultsTail : List Assign :=
  [fun s => { s with network.mode := networkModeAuto },
    fun s => { s with broker.siteId := s.broker.siteId.strncpy (str "field-a") },
    fun s => { s with broker.topicPrefix := s.broker.topicPrefix.strncpy (str "site/field-a") },
    fun s => { s with broker.mqttPort := 1883 },
    fun s => { s with broker.p2pPort := 4884 },
    fun s => { s with broker.fallbackPort := 1884 },
    fun s => { s with broker.brokerEnabled := 1 },
    fun s => { s with broker.bridgeEnabled := 1 },
    fun s => { s with broker.meshEnabled := 1 }]

def settingsDefaultsAssigns (deviceId : List Byte) : List Assign :=
  settingsDefaultsHead ++ applyKnownEsp32DefaultIp (knownBoardIp deviceId) ++ settingsDefaultsTail

/-- What `settings_large_defaults` assigns after `settings_defaults`. -/
def largeAssigns : List Assign :=
  [fun s => { s with system.deviceName := s.system.deviceName.strncpy (str "esp32-field-router") },
    fun s => { s with broker.siteId := s.broker.siteId.strncpy (str "field-large") },
    fun s => { s with broker.topicPrefix := s.broker.topicPrefix.strncpy (str "site/field-large") }]

def settingsLargeDefaultsAssigns (deviceId : List Byte) : List Assign :=
  settingsDefaultsAssigns deviceId ++ largeAssigns

def settingsDefaults (deviceId : List Byte) (s : FieldBridgeSettings) : FieldBridgeSettings :=
  runAssigns (settingsDefaultsAssigns deviceId) s

def settingsLargeDefaults (deviceId : List Byte) (s : FieldBridgeSettings) : FieldBridgeSettings :=
  runAssigns (settingsLargeDefaultsAssigns deviceId) s

/-- The settings that `settings_defaults` leaves. -/
def defaultSettings (deviceId : List Byte) : FieldBridgeSettings := settingsDefaults deviceId .zero

/-- The settings that `settings_large_defaults` leaves. -/
def largeDefaultSettings (deviceId : List Byte) : FieldBridgeSettings :=
  settingsLargeDefaults deviceId .zero

theorem runAssigns_append (l l' : List Assign) (s : FieldBridgeSettings) :
    runAssigns (l ++ l') s = runAssigns l' (runAssigns l s) := by
  simp [runAssigns, List.foldl_append]

/-- The assignments begin with `memset`, so nothing of the old settings is left. -/
theorem settingsDefaults_eq (deviceId : List Byte) (s : FieldBridgeSettings) :
    settingsDefaults deviceId s = defaultSettings deviceId := rfl

theorem settingsLargeDefaults_eq (deviceId : List Byte) (s : FieldBridgeSettings) :
    settingsLargeDefaults deviceId s = largeDefaultSettings deviceId := rfl

/-! ### The defaults are sound -/

theorem knownBoardIp_mem (deviceId : List Byte) :
    knownBoardIp deviceId ∈ none :: knownBoards.map (some ·.2) := by
  unfold knownBoardIp
  split_ifs
  · simp
  · rcases h : knownBoards.find? fun b => deviceId.drop (deviceId.length - 3) = b.1 with _ | b
    · rw [h]
      exact List.mem_cons_self
    · rw [h]
      exact List.mem_cons_of_mem _ (List.mem_map.mpr ⟨b, List.mem_of_find?_eq_some h, rfl⟩)

instance (cfg : FieldBridgeSettings) : Decidable (SettingsSound cfg) :=
  decidable_of_iff (SettingsValid cfg ∧ cfg.system.deviceName.Terminated ∧
      cfg.network.deviceIp.Terminated ∧ cfg.network.gateway.Terminated ∧
      cfg.network.netmask.Terminated ∧ cfg.network.dns.Terminated ∧
      cfg.broker.brokerIp.Terminated ∧ cfg.broker.siteId.Terminated ∧
      cfg.broker.topicPrefix.Terminated)
    ⟨fun ⟨h, a, b, c, d, e, f, g, i⟩ => ⟨h, ⟨a, ⟨b, c, d, e⟩, f, g, i⟩⟩,
      fun ⟨h, ⟨a, ⟨b, c, d, e⟩, f, g, i⟩⟩ => ⟨h, a, b, c, d, e, f, g, i⟩⟩

theorem settingsSound_assigns : ∀ ip ∈ none :: knownBoards.map (some ·.2),
    SettingsSound (runAssigns
      (settingsDefaultsHead ++ applyKnownEsp32DefaultIp ip ++ settingsDefaultsTail) .zero) ∧
    SettingsSound (runAssigns (settingsDefaultsHead ++ applyKnownEsp32DefaultIp ip ++
      settingsDefaultsTail ++ largeAssigns) .zero) := by
  decide

theorem settingsSound_default (deviceId : List Byte) : SettingsSound (defaultSettings deviceId) :=
  (settingsSound_assigns _ (knownBoardIp_mem deviceId)).1

theorem settingsSound_largeDefault (deviceId : List Byte) :
    SettingsSound (largeDefaultSettings deviceId) :=
  (settingsSound_assigns _ (knownBoardIp_mem deviceId)).2

end MqttFieldBridge.Config
