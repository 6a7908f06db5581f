import MqttFieldBridge.Http.Documents
import MqttFieldBridge.Json.ReadBack

/-! # What a parser reads from the answers

The builders print every string with `%s`, while the decoder of a POST and the words of a console line
take any byte. A parser reads the stored values back if and only if the strings that came from outside
need no escape (`faithful_iff`): those of the settings and of the peers, and the acquired address. -/

namespace MqttFieldBridge.Http

open MqttFieldBridge.CLib MqttFieldBridge.Config MqttFieldBridge.Runtime MqttFieldBridge.Json

/-- The topic that `/status` shows. -/
def testTopic (s : FieldBridgeSettings) : Text := s.broker.topicPrefix.text ++ slash :: str "test"

/-- What `/peer-status` says of a slot: its name and host, and the state it is in. -/
def peerReport (p2p : P2p) (r : RuntimeState) (i : ℕ) (p : FieldBridgePeer) : List RawMember :=
  [(str "index", .number i),
    (str "name", .string p.name.text),
    (str "host", .string p.host.text),
    (str "p2p_port", .number p.p2pPort.toNat),
    (str "enabled", .number p.enabled.toNat),
    (str "state", .string (peerState p2p r p).1),
    (str "last_error", .string (peerState p2p r p).2)]

/-- The four texts are documents from which a parser reads the values of the device. -/
structure Faithful (w : World) (cap : ℕ) (a : App) : Prop where
  status : ∃ t, (buildStatusJson w cap a).1 = ⟨true, some t⟩ ∧ ObjectReadsBack t
    (statusMembers (productRuntimeGetStatus w.p2p a.runtime).runtimeStatus
      (testTopic a.config.settings))
  config : ∃ t, buildConfigJson cap a.config = ⟨true, some t⟩ ∧
    ObjectReadsBack t (configMembers a.config.settings)
  peers : ∃ t, buildPeersJson cap a.config = ⟨true, some t⟩ ∧
    ArrayReadsBack t ((peerList a.config).mapIdx peerMembers)
  peerStatus : ∃ t, buildPeerStatusJson w cap a = ⟨true, some t⟩ ∧
    ArrayReadsBack t ((peerList a.config).mapIdx (peerReport w.p2p a.runtime))

/-- The strings of the settings need no escape. -/
def PlainSettings (s : FieldBridgeSettings) : Prop := ∀ t ∈ settingsTexts s, PlainText t

/-- The strings of the peer need no escape. -/
structure PlainPeer (p : FieldBridgePeer) : Prop where
  name : PlainText p.name.text
  host : PlainText p.host.text

/-- The strings that came from outside need no escape. -/
structure PlainInputs (a : App) : Prop where
  settings : PlainSettings a.config.settings
  peers : ∀ i, PlainPeer (a.config.peers i)
  ipAddr : PlainText a.runtime.runtimeStatus.ipAddr.val

/-- The strings of the status that the program chooses need no escape. -/
structure PlainStatus (s : FieldBridgeRuntimeStatus) : Prop where
  networkState : PlainText s.networkState.val
  brokerState : PlainText s.brokerState.val
  p2pRole : PlainText s.p2pRole.val
  lastError : PlainText s.lastError.val

/-! ### The members of the documents -/

theorem plainValue_string {t : Text} : PlainValue (.string t) ↔ PlainText t :=
  ⟨fun h => h t rfl, RawValue.of_string⟩

theorem plainValue_number {n : ℕ} : PlainValue (.number n) ↔ True :=
  ⟨fun _ => trivial, fun _ => RawValue.of_number⟩

theorem plainText_version : PlainText fieldBridgeFirmwareVersion :=
  PrintableAscii.plain (by decide)

theorem plainText_modeName (mode : UInt8) : PlainText (productConfigNetworkModeName mode) := by
  unfold productConfigNetworkModeName
  split_ifs
  · exact PrintableAscii.plain (by decide)
  · exact PrintableAscii.plain (by decide)
  · exact PrintableAscii.plain (by decide)

/-- Keys of printable ASCII, each used once. -/
theorem keyed_of_ascii {ms : List RawMember} (hne : ms ≠ [])
    (hkeys : ∀ k ∈ ms.map Prod.fst, PrintableAscii k) (hdistinct : (ms.map Prod.fst).Nodup) :
    Keyed ms :=
  ⟨hne, fun _ hm => (hkeys _ (List.mem_map_of_mem hm)).plain, hdistinct⟩

theorem keyed_configMembers (s : FieldBridgeSettings) : Keyed (configMembers s) := by
  refine keyed_of_ascii (List.cons_ne_nil _ _) ?_ ?_
  · simp only [configMembers, List.map_cons, List.map_nil]
    decide
  · simp only [configMembers, List.map_cons, List.map_nil]
    decide

theorem keyed_statusMembers (status : FieldBridgeRuntimeStatus) (topic : Text) :
    Keyed (statusMembers status topic) := by
  refine keyed_of_ascii (List.cons_ne_nil _ _) ?_ ?_
  · simp only [statusMembers, List.map_cons, List.map_nil]
    decide
  · simp only [statusMembers, List.map_cons, List.map_nil]
    decide

theorem keyed_peerMembers (i : ℕ) (p : FieldBridgePeer) : Keyed (peerMembers i p) := by
  refine keyed_of_ascii (List.cons_ne_nil _ _) ?_ ?_
  · simp only [peerMembers, List.map_cons, List.map_nil]
    decide
  · simp only [peerMembers, List.map_cons, List.map_nil]
    decide

theorem keyed_peerReport (p2p : P2p) (r : RuntimeState) (i : ℕ) (p : FieldBridgePeer) :
    Keyed (peerReport p2p r i p) := by
  refine keyed_of_ascii (List.cons_ne_nil _ _) ?_ ?_
  · simp only [peerReport, List.map_cons, List.map_nil]
    decide
  · simp only [peerReport, List.map_cons, List.map_nil]
    decide

theorem plain_configMembers_iff {s : FieldBridgeSettings} :
    (∀ m ∈ configMembers s, PlainValue m.2) ↔ PlainSettings s := by
  unfold PlainSettings
  simp only [configMembers, settingsTexts, List.forall_mem_cons, plainValue_string,
    plainValue_number, plainText_version, plainText_modeName, true_and, List.not_mem_nil,
    false_implies, implies_true, and_true]

theorem plain_peerMembers_iff {i : ℕ} {p : FieldBridgePeer} :
    (∀ m ∈ peerMembers i p, PlainValue m.2) ↔ PlainPeer p := by
  simp only [peerMembers, List.forall_mem_cons, plainValue_string, plainValue_number, true_and,
    List.not_mem_nil, false_implies, implies_true, and_true]
  exact ⟨fun h => ⟨h.1, h.2⟩, fun h => ⟨h.name, h.host⟩⟩

theorem plain_statusMembers_iff {status : FieldBridgeRuntimeStatus} {topic : Text}
    (h : PlainStatus status) : (∀ m ∈ statusMembers status topic, PlainValue m.2) ↔
      PlainText status.ipAddr.val ∧ PlainText topic := by
  have hok : PlainText (str "ok") := PrintableAscii.plain (by decide)
  simp only [statusMembers, List.forall_mem_cons, plainValue_string, plainValue_number, hok,
    plainText_version, h.networkState, h.brokerState, h.p2pRole, h.lastError, true_and,
    List.not_mem_nil, false_implies, implies_true, and_true]

/-- The states and errors of a slot are texts of the program. -/
theorem peerState_texts (p2p : P2p) (r : RuntimeState) (p : FieldBridgePeer) :
    (PrintableAscii (peerState p2p r p).1 ∧ (peerState p2p r p).1.length < fieldBridgeStateMax) ∧
      PrintableAscii (peerState p2p r p).2 ∧ (peerState p2p r p).2.length < fieldBridgeErrorMax := by
  unfold peerState
  split_ifs
  · decide
  · decide
  all_goals
    rcases snapshotContainsPeer p2p p with _ | _ | _
    · decide
    · decide
    · decide

theorem plain_peerReport_iff {p2p : P2p} {r : RuntimeState} {i : ℕ} {p : FieldBridgePeer} :
    (∀ m ∈ peerReport p2p r i p, PlainValue m.2) ↔ PlainPeer p := by
  obtain ⟨⟨hstate, -⟩, herror, -⟩ := peerState_texts p2p r p
  simp only [peerReport, List.forall_mem_cons, plainValue_string, plainValue_number, true_and,
    List.not_mem_nil, false_implies, implies_true, and_true, hstate.plain, herror.plain]
  exact ⟨fun h => ⟨h.1, h.2⟩, fun h => ⟨h.name, h.host⟩⟩

theorem copyStr_val {n : ℕ} {t : Text} (h0 : 0 ∉ t) (hlen : t.length < n + 1) :
    (copyStr t : CStr (n + 1)).val = t := by
  show (cstr t).take n = t
  rw [cstr_of_notMem h0, List.take_of_length_le (by omega)]

theorem zero_notMem_ascii {t : Text} (h : PrintableAscii t) : 0 ∉ t := fun h0 =>
  absurd (h 0 h0).1 (by decide)

/-- The copies in the status of a slot are whole. -/
theorem peerStatusMembers_peerStatus {p2p : P2p} {r : RuntimeState} {i : ℕ} {p : FieldBridgePeer}
    (hi : i < 256) (h : PeerTerminated p) :
    peerStatusMembers (peerStatus p2p r i p) = peerReport p2p r i p := by
  obtain ⟨⟨hstate, hstateLen⟩, herror, herrorLen⟩ := peerState_texts p2p r p
  have hname : (copyStr p.name.text : CStr fieldBridgeNameMax).val = p.name.text :=
    copyStr_val p.name.zero_notMem_text (CharArray.length_text_lt h.name)
  have hhost : (copyStr p.host.text : CStr fieldBridgeHostMax).val = p.host.text :=
    copyStr_val p.host.zero_notMem_text (CharArray.length_text_lt h.host)
  have hstate' : (copyStr (peerState p2p r p).1 : CStr fieldBridgeStateMax).val =
      (peerState p2p r p).1 := copyStr_val (zero_notMem_ascii hstate) hstateLen
  have herror' : (copyStr (peerState p2p r p).2 : CStr fieldBridgeErrorMax).val =
      (peerState p2p r p).2 := copyStr_val (zero_notMem_ascii herror) herrorLen
  have hindex : (UInt8.ofNat i).toNat = i := UInt8.toNat_ofNat_of_lt' hi
  simp only [peerStatusMembers, peerReport, peerStatus, hname, hhost, hstate', herror', hindex]

theorem mem_peerList {c : ConfigState} {p : FieldBridgePeer} :
    p ∈ peerList c ↔ ∃ i, c.peers i = p := by
  simp [peerList, List.mem_map]

theorem peerStatusObjects_eq {p2p : P2p} {a : App} (h : ∀ i, PeerTerminated (a.config.peers i)) :
    peerStatusObjects p2p a = (peerList a.config).mapIdx (peerReport p2p a.runtime) := by
  unfold peerStatusObjects
  refine List.ext_getElem (by simp) fun i h1 h2 => ?_
  have hi : i < (peerList a.config).length := by simpa using h1
  have hlen : (peerList a.config).length = fieldBridgePeerMax := by simp [peerList]
  have hmax : fieldBridgePeerMax = 2 := rfl
  obtain ⟨j, hj⟩ := mem_peerList.mp (List.getElem_mem hi)
  rw [List.getElem_map, List.getElem_mapIdx, List.getElem_mapIdx]
  exact peerStatusMembers_peerStatus (by omega) (hj ▸ h j)

/-! ### The documents -/

section Slots

variable {f : ℕ → FieldBridgePeer → List RawMember} {c : ConfigState}

/-- An array with an object for each slot is read back if and only if the slots are plain. -/
theorem slotsReadBack_iff (hkeyed : ∀ i p, Keyed (f i p))
    (hplain : ∀ i p, (∀ m ∈ f i p, PlainValue m.2) ↔ PlainPeer p) :
    ArrayReadsBack (rawArray ((peerList c).mapIdx f)) ((peerList c).mapIdx f) ↔
      ∀ i, PlainPeer (c.peers i) := by
  have hne : (peerList c).mapIdx f ≠ [] := by
    refine List.ne_nil_of_length_pos ?_
    simp [peerList, fieldBridgePeerMax]
  have hkeys : ∀ ms ∈ (peerList c).mapIdx f, Keyed ms := by
    intro ms hms
    obtain ⟨i, hi, rfl⟩ := List.mem_mapIdx.mp hms
    exact hkeyed i _
  rw [arrayReadsBack_iff hne hkeys]
  constructor
  · intro h i
    obtain ⟨k, hk, hget⟩ := List.getElem_of_mem (mem_peerList.mpr ⟨i, rfl⟩)
    refine (hplain k (c.peers i)).mp (h _ (List.mem_mapIdx.mpr ⟨k, hk, ?_⟩))
    rw [hget]
  · intro h ms hms
    obtain ⟨k, hk, rfl⟩ := List.mem_mapIdx.mp hms
    obtain ⟨i, hi⟩ := mem_peerList.mp (List.getElem_mem hk)
    exact (hplain k _).mpr (hi ▸ h i)

end Slots

theorem plainStatus_getStatus {p2p : P2p} {r : RuntimeState} (h : PlainStatus r.runtimeStatus) :
    PlainStatus (productRuntimeGetStatus p2p r).runtimeStatus := by
  unfold productRuntimeGetStatus
  dsimp only
  split_ifs
  · exact { h with }
  · exact { h with }

theorem ipAddr_getStatus {p2p : P2p} {r : RuntimeState} :
    (productRuntimeGetStatus p2p r).runtimeStatus.ipAddr = r.runtimeStatus.ipAddr := by
  unfold productRuntimeGetStatus
  dsimp only
  split_ifs
  · rfl
  · rfl

theorem plainText_testTopic {s : FieldBridgeSettings} (h : PlainSettings s) :
    PlainText (testTopic s) := by
  have hprefix : PlainText s.broker.topicPrefix.text := h _ (by simp [settingsTexts])
  have hrest : PlainText (slash :: str "test") := PrintableAscii.plain (by decide)
  exact hprefix.append hrest

/-- What the first text printed is, is all that matters. -/
theorem built_iff {b : Built} {t : Text} {P : Text → Prop} (h : b = ⟨true, some t⟩) :
    (∃ t', b = ⟨true, some t'⟩ ∧ P t') ↔ P t := by
  constructor
  · rintro ⟨t', ht', hP⟩
    rw [h, Built.mk.injEq, Option.some.injEq] at ht'
    exact ht'.2 ▸ hP
  · exact fun hP => ⟨t, h, hP⟩

variable {w : World} {cap : ℕ} {a : App}

/-- **When the answers are faithful.** -/
theorem faithful_iff (hcap : respBufSize ≤ cap) (hsettings : SettingsSound a.config.settings)
    (hpeers : ∀ i, PeerTerminated (a.config.peers i)) (hstatus : PlainStatus a.runtime.runtimeStatus) :
    Faithful w cap a ↔ PlainInputs a := by
  obtain ⟨hvalid, hterm⟩ := hsettings
  have htopic : productTopicBuild a.config.settings (str "test") fieldBridgeTopicFullMax =
      some (testTopic a.config.settings) :=
    topicBuild_of_terminated hvalid.v1.topicPrefix hterm.topicPrefix (by decide) (by decide)
      (by decide)
  have hanswer : (∃ t, (buildStatusJson w cap a).1 = ⟨true, some t⟩ ∧ ObjectReadsBack t
      (statusMembers (productRuntimeGetStatus w.p2p a.runtime).runtimeStatus
        (testTopic a.config.settings))) ↔
      PlainText a.runtime.runtimeStatus.ipAddr.val ∧ PlainText (testTopic a.config.settings) := by
    rw [built_iff (buildStatusJson_built hcap htopic), objectReadsBack_iff (keyed_statusMembers _ _),
      plain_statusMembers_iff (plainStatus_getStatus hstatus), ipAddr_getStatus]
  have hconfig : (∃ t, buildConfigJson cap a.config = ⟨true, some t⟩ ∧
      ObjectReadsBack t (configMembers a.config.settings)) ↔ PlainSettings a.config.settings := by
    rw [built_iff (buildConfigJson_built hcap hterm), objectReadsBack_iff (keyed_configMembers _),
      plain_configMembers_iff]
  have hslots : (∃ t, buildPeersJson cap a.config = ⟨true, some t⟩ ∧
      ArrayReadsBack t ((peerList a.config).mapIdx peerMembers)) ↔
        ∀ i, PlainPeer (a.config.peers i) := by
    rw [built_iff (buildPeersJson_built hcap hpeers)]
    exact slotsReadBack_iff keyed_peerMembers fun i p => plain_peerMembers_iff
  have hstates : (∃ t, buildPeerStatusJson w cap a = ⟨true, some t⟩ ∧
      ArrayReadsBack t ((peerList a.config).mapIdx (peerReport w.p2p a.runtime))) ↔
        ∀ i, PlainPeer (a.config.peers i) := by
    rw [built_iff (buildPeerStatusJson_built hcap), peerStatusObjects_eq hpeers]
    exact slotsReadBack_iff (keyed_peerReport w.p2p a.runtime) fun i p => plain_peerReport_iff
  constructor
  · exact fun h => ⟨hconfig.mp h.config, hslots.mp h.peers, (hanswer.mp h.status).1⟩
  · rintro ⟨hs, hp, hip⟩
    exact ⟨hanswer.mpr ⟨hip, plainText_testTopic hs⟩, hconfig.mpr hs, hslots.mpr hp, hstates.mpr hp⟩

end MqttFieldBridge.Http
