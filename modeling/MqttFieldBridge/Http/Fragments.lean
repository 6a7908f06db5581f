import MqttFieldBridge.Config.Atomic
import MqttFieldBridge.Http.Zephyr

/-! # Bodies that arrive in fragments

The handler of the firmware ignores every call but the last, so of a body in fragments only the last
fragment counts. What a POST does with a body is decided by what it decodes of it, `PostRequest`:
two bodies that decode alike are treated alike, and two that do not are not, unless the first is
refused (`fragmentsFaithful_iff`). -/

namespace MqttFieldBridge.Http

open MqttFieldBridge.CLib MqttFieldBridge.Config MqttFieldBridge.Runtime

/-! ### The calls of the server -/

/-- A call for each fragment before the last, and the final call. -/
def deliver (w : World) (client : HttpClient) : List (List Byte) → List Byte → ZephyrState →
    ZephyrResult
  | [], last, z => zephyrDynamicHandler w client .requestDataFinal last z
  | f :: fs, last, z =>
    deliver w client fs last (zephyrDynamicHandler w client .requestDataMore f z).state

theorem deliver_eq {w : World} {client : HttpClient} {last : List Byte} :
    ∀ (fs : List (List Byte)) (z : ZephyrState),
      deliver w client fs last z = zephyrDynamicHandler w client .requestDataFinal last z
  | [], _ => rfl
  | _ :: fs, z => deliver_eq fs z

/-- Settings, peers, broker state and last publish test are the same. -/
structure Kept (a a' : App) : Prop where
  settings : a'.config.settings = a.config.settings
  peers : a'.config.peers = a.config.peers
  brokerState : a'.runtime.runtimeStatus.brokerState = a.runtime.runtimeStatus.brokerState
  lastPublish : a'.runtime.lastPublish = a.runtime.lastPublish

theorem Kept.refl (a : App) : Kept a a := ⟨rfl, rfl, rfl, rfl⟩

/-- The fragments do what the whole body does, or are refused and change nothing. -/
def FragmentsFaithful (w : World) (client : HttpClient) (fs : List (List Byte)) (last : List Byte)
    (z : ZephyrState) : Prop :=
  let r := deliver w client fs last z
  let whole := deliver w client [] (fs.flatten ++ last) z
  (r.response = whole.response ∧ Kept whole.state.app r.state.app) ∨
    ((∃ body, r.response = some ⟨400, body⟩) ∧ Kept z.app r.state.app)

/-! ### What a POST decodes of a body -/

/-- All that a POST reads of a body. -/
inductive PostRequest where
  | tooLarge
  | config (candidate : Option FieldBridgeSettings)
  | peer (candidate : Option FieldBridgePeer)
  | control (enabled : Option UInt8)
  | publish (test : Option FieldBridgePublishTest)
  | plain

/-- The slot index in a path under `/peers/`. -/
def pathIndex (w : World) (path : Text) : ℤ := atoi w.longBits (path.drop 7)

def decodePost (w : World) (path : Text) (data : List Byte) (a : App) : PostRequest :=
  if data.length ≥ reqBufSize then .tooLarge
  else if path = str "/config" then
    .config (configCandidate w.longBits (cstr data) a.config.settings)
  else if peersPath <+: path then
    .peer ((productConfigGetPeer (pathIndex w path) a.config).map
      (peerCandidate w.longBits (cstr data)))
  else if path = str "/broker/control" then
    .control (jsonGetBoolish w.longBits (cstr data) (str "enabled"))
  else if path = str "/publish-test" then .publish (publishCandidate w.longBits (cstr data))
  else .plain

section Act

variable (w : World) (path : Text) (a : App)

def actConfig : Option FieldBridgeSettings → Answer
  | none => badRequest "invalid config JSON" a
  | some n =>
    if n = a.config.settings then ⟨⟨200, .json (rebootRequiredBody false)⟩, a, false⟩
    else
      let r := productConfigSetSettings w.store n a.config
      if r.1 ≠ .ok then badRequest "invalid config JSON" { a with config := r.2 }
      else ⟨⟨200, .json (rebootRequiredBody true)⟩, { a with config := r.2 }, false⟩

def actPeer : Option FieldBridgePeer → Answer
  | none => badRequest "invalid peer JSON" a
  | some p =>
    let r := productConfigSetPeer w.store (pathIndex w path) p a.config
    if r.1 ≠ .ok then badRequest "invalid peer JSON" { a with config := r.2 }
    else accepted "ok" (bridgeControlApplyPeers w { a with config := r.2 }).2

def actControl : Option UInt8 → Answer
  | none => badRequest "invalid broker control" a
  | some enabled =>
    let r := productRuntimeSetBrokerEnabled enabled a.runtime
    if r.1 ≠ .ok then badRequest "invalid broker control" { a with runtime := r.2 }
    else accepted "requested" { a with runtime := r.2 }

def actPublish : Option FieldBridgePublishTest → Answer
  | none => badRequest "invalid publish test" a
  | some test =>
    let r := productRuntimeRecordPublishTest test a.runtime
    if r.1 ≠ .ok then badRequest "invalid publish test" { a with runtime := r.2 }
    else accepted "recorded" { a with runtime := r.2 }

/-- The routes that read no body. -/
def actPlain : Answer :=
  if path = str "/config/reset" then postConfigReset w a
  else if path = str "/reboot" then { accepted "rebooting" a with reboot := true }
  else ⟨⟨404, .json notFoundBody⟩, a, false⟩

/-- What a POST does with what it decodes. -/
def actPost : PostRequest → Answer
  | .tooLarge => badRequest "request too large" a
  | .config candidate => actConfig w a candidate
  | .peer candidate => actPeer w path a candidate
  | .control enabled => actControl a enabled
  | .publish test => actPublish a test
  | .plain => actPlain w path a

end Act

variable {w : World} {path : Text} {a : App}

theorem postConfig_eq {body : Text} : postConfig w body a =
    actConfig w a (configCandidate w.longBits body a.config.settings) := by
  unfold postConfig
  rcases hc : configCandidate w.longBits body a.config.settings with _ | n
  · rw [applyConfigJson_of_none hc]
    rfl
  · by_cases hn : n = a.config.settings
    · rw [hn] at hc ⊢
      rw [applyConfigJson_of_same hc]
      exact (if_pos rfl).symm
    · rw [applyConfigJson_of_new hc hn]
      refine Eq.trans ?_ (if_neg hn).symm
      by_cases hr : (productConfigSetSettings w.store n a.config).1 = .ok
      · rw [if_neg (not_not.mpr hr), if_pos hr]
      · rw [if_pos hr, if_neg hr]

theorem postPeer_eq {body : Text} : postPeer w (pathIndex w path) body a =
    actPeer w path a ((productConfigGetPeer (pathIndex w path) a.config).map
      (peerCandidate w.longBits body)) := by
  unfold postPeer applyPeerJson actPeer
  rcases productConfigGetPeer (pathIndex w path) a.config with _ | p
  · rfl
  · simp only [Option.map_some]
    by_cases hr : (productConfigSetPeer w.store (pathIndex w path)
        (peerCandidate w.longBits body p) a.config).1 ≠ .ok
    · simp only [if_pos hr]
      rfl
    · simp only [if_neg hr]
      rfl

/-- The route of a body that fits the buffer. -/
theorem postRoute_eq {data : List Byte} (hlen : ¬ data.length ≥ reqBufSize) :
    postRoute w path (cstr data) a = actPost w path a (decodePost w path data a) := by
  rw [decodePost, if_neg hlen, postRoute]
  by_cases h1 : path = str "/config"
  · simp only [if_pos h1]
    exact postConfig_eq
  by_cases h2 : peersPath <+: path
  · simp only [if_neg h1, if_pos h2]
    exact postPeer_eq
  by_cases h3 : path = str "/broker/control"
  · simp only [if_neg h1, if_neg h2, if_pos h3]
    rfl
  by_cases h4 : path = str "/publish-test"
  · simp only [if_neg h1, if_neg h2, if_neg h3, if_pos h4]
    rfl
  simp only [if_neg h1, if_neg h2, if_neg h3, if_neg h4]
  rfl

/-- **A POST is what it does with what it decodes.** -/
theorem zephyrPost_eq {data : List Byte} {i : Fin zephyrHttpBufferSlots} {z : ZephyrState} :
    (zephyrPost w path data i z).response =
        some (actPost w path z.app (decodePost w path data z.app)).response ∧
      (zephyrPost w path data i z).state.app =
        (actPost w path z.app (decodePost w path data z.app)).app := by
  rw [zephyrPost_route]
  by_cases hlen : data.length ≥ reqBufSize
  · have hcopy : zephyrCopyRequestBody data (z.buffers i).request = none := if_pos hlen
    rw [hcopy, decodePost, if_pos hlen]
    exact ⟨rfl, rfl⟩
  · have hcopy : zephyrCopyRequestBody data (z.buffers i).request =
        some ((z.buffers i).request.write (data ++ [0])) := if_neg hlen
    have htext := zephyrCopyRequestBody_text hcopy
    rw [hcopy]
    dsimp only
    rw [htext, postRoute_eq hlen]
    exact ⟨rfl, rfl⟩

/-! ### When a POST is refused and changes nothing -/

/-- What is decoded is refused, and nothing is changed. A save that fails comes after the
assignment, which then must have assigned what was there. -/
def Refused (w : World) (path : Text) (a : App) : PostRequest → Prop
  | .tooLarge => True
  | .config candidate =>
    ∀ n, candidate = some n → n ≠ a.config.settings ∧ ¬ SettingsValid n
  | .peer candidate => ∀ p i, candidate = some p → peerIndex (pathIndex w path) = some i →
    PeerValid p → w.store.save (peerKey i) = .err ∧ a.config.peers i = p
  | .control enabled => ∀ v, enabled = some v → v > 1
  | .publish test => ∀ t, test = some t →
    t.topic.first = 0 ∨ t.payload.first = 0 ∨ t.qos > 2 ∨ t.retain > 1
  | .plain => path = str "/config/reset" ∧ ¬ SavesAll w.store ∧
    a.config.settings = defaultSettings w.deviceId ∧ ∀ i, a.config.peers i = .zero

/-- The answer is 400 and nothing is changed. -/
def Unharmed (a : App) (r : Answer) : Prop := r.response.status = 400 ∧ Kept a r.app

theorem not_unharmed {r : Answer} {code : ℕ} (h : r.response.status = code) (hc : code ≠ 400) :
    ¬ Unharmed a r := fun hu => hc (h.symm.trans hu.1)

theorem actConfig_of_same :
    actConfig w a (some a.config.settings) =
      ⟨⟨200, .json (rebootRequiredBody false)⟩, a, false⟩ := if_pos rfl

/-- Valid settings are live afterwards, and the answer says whether they were saved. -/
theorem actConfig_of_valid {n : FieldBridgeSettings} (hn : n ≠ a.config.settings)
    (hv : SettingsValid n) :
    (actConfig w a (some n)).app.config.settings = n ∧
      (actConfig w a (some n)).response =
        if w.store.save settingsKey = .ok then ⟨200, .json (rebootRequiredBody true)⟩
        else ⟨400, .json (errorBody (str "invalid config JSON"))⟩ := by
  unfold actConfig
  dsimp only
  rw [if_neg hn, productConfigSetSettings_of_valid hv]
  rcases hs : w.store.save settingsKey with _ | _
  · rw [if_neg (by simp), if_pos rfl]
    exact ⟨rfl, rfl⟩
  · rw [if_pos (by simp), if_neg (by simp)]
    exact ⟨rfl, rfl⟩

theorem actConfig_of_invalid {n : FieldBridgeSettings} (hn : n ≠ a.config.settings)
    (hv : ¬ SettingsValid n) : actConfig w a (some n) = badRequest "invalid config JSON" a := by
  unfold actConfig
  dsimp only
  rw [if_neg hn, productConfigSetSettings_of_invalid hv]
  exact if_pos (by simp)

theorem actConfig_unharmed_iff {candidate : Option FieldBridgeSettings} :
    Unharmed a (actConfig w a candidate) ↔ Refused w path a (.config candidate) := by
  rcases candidate with _ | n
  · exact ⟨fun _ _ h => (by cases h), fun _ => ⟨rfl, Kept.refl a⟩⟩
  · have href : Refused w path a (.config (some n)) ↔
        n ≠ a.config.settings ∧ ¬ SettingsValid n :=
      ⟨fun h => h n rfl, fun h m hm => Option.some.inj hm ▸ h⟩
    rw [href]
    by_cases hn : n = a.config.settings
    · rw [hn, actConfig_of_same]
      exact ⟨fun h => absurd h (not_unharmed rfl (show 200 ≠ 400 by decide)),
        fun h => absurd rfl h.1⟩
    · by_cases hv : SettingsValid n
      · obtain ⟨hset, -⟩ := @actConfig_of_valid w a n hn hv
        exact ⟨fun h => absurd (hset.symm.trans h.2.settings) hn, fun h => absurd hv h.2⟩
      · rw [actConfig_of_invalid hn hv]
        exact ⟨fun _ => ⟨hn, hv⟩, fun _ => ⟨rfl, Kept.refl a⟩⟩

/-- A valid peer is in its slot afterwards, and the answer says whether it was saved. -/
theorem actPeer_of_valid {p : FieldBridgePeer} {i : Fin fieldBridgePeerMax}
    (hi : peerIndex (pathIndex w path) = some i) (hv : PeerValid p) :
    (actPeer w path a (some p)).app.config.peers = Function.update a.config.peers i p ∧
      (actPeer w path a (some p)).app.config.settings = a.config.settings ∧
      (actPeer w path a (some p)).app.runtime = a.runtime ∧
      (actPeer w path a (some p)).response.status =
        if w.store.save (peerKey i) = .ok then 200 else 400 := by
  unfold actPeer
  dsimp only
  rw [productConfigSetPeer_of_valid hi hv]
  rcases hs : w.store.save (peerKey i) with _ | _
  · rw [if_neg (by simp), if_pos rfl]
    simp only [accepted, applyPeers_config]
    exact ⟨trivial, trivial, trivial, trivial⟩
  · rw [if_pos (by simp), if_neg (by simp)]
    exact ⟨rfl, rfl, rfl, rfl⟩

theorem actPeer_of_invalid {p : FieldBridgePeer}
    (hv : ∀ i, peerIndex (pathIndex w path) = some i → ¬ PeerValid p) :
    actPeer w path a (some p) = badRequest "invalid peer JSON" a := by
  unfold actPeer
  dsimp only
  rw [productConfigSetPeer_of_invalid hv]
  exact if_pos (by simp)

theorem actPeer_unharmed_iff {candidate : Option FieldBridgePeer} :
    Unharmed a (actPeer w path a candidate) ↔ Refused w path a (.peer candidate) := by
  rcases candidate with _ | p
  · exact ⟨fun _ _ _ h => (by cases h), fun _ => ⟨rfl, Kept.refl a⟩⟩
  · by_cases hv : ∃ i, peerIndex (pathIndex w path) = some i ∧ PeerValid p
    · obtain ⟨i, hi, hv⟩ := hv
      obtain ⟨hpeers, hset, hrun, hst⟩ := @actPeer_of_valid w path a p i hi hv
      have href : Refused w path a (.peer (some p)) ↔
          w.store.save (peerKey i) = .err ∧ a.config.peers i = p := by
        refine ⟨fun h => h p i rfl hi hv, fun h q j hq hj _ => ?_⟩
        obtain rfl := Option.some.inj hq
        rw [hi] at hj
        obtain rfl := Option.some.inj hj
        exact h
      rw [href, Unharmed, hst]
      rcases hs : w.store.save (peerKey i) with _ | _
      · rw [if_pos rfl]
        exact ⟨fun h => absurd h.1 (by decide), fun h => (by cases h.1)⟩
      · rw [if_neg (by simp)]
        constructor
        · rintro ⟨-, hk⟩
          refine ⟨rfl, ?_⟩
          have := congrFun (hpeers.symm.trans hk.peers) i
          rw [Function.update_self] at this
          exact this.symm
        · rintro ⟨-, rfl⟩
          refine ⟨rfl, hset, ?_, by rw [hrun], by rw [hrun]⟩
          rw [hpeers, Function.update_eq_self]
    · have hv' : ∀ i, peerIndex (pathIndex w path) = some i → ¬ PeerValid p :=
        fun i hi h => hv ⟨i, hi, h⟩
      rw [actPeer_of_invalid hv']
      refine ⟨fun _ q i hq hi h => ?_, fun _ => ⟨rfl, Kept.refl a⟩⟩
      obtain rfl := Option.some.inj hq
      exact absurd h (hv' i hi)

theorem actControl_of_valid {v : UInt8} (hv : v ≤ 1) :
    (actControl a (some v)).response.status = 200 ∧
      (actControl a (some v)).app.runtime.runtimeStatus.brokerState =
        copyStr (if v ≠ 0 then str "requested" else str "stopped") := by
  unfold actControl
  dsimp only
  rw [setBrokerEnabled_ok hv]
  exact ⟨rfl, rfl⟩

theorem actControl_unharmed_iff {enabled : Option UInt8} :
    Unharmed a (actControl a enabled) ↔ Refused w path a (.control enabled) := by
  rcases enabled with _ | v
  · exact ⟨fun _ _ h => (by cases h), fun _ => ⟨rfl, Kept.refl a⟩⟩
  · by_cases hv : v > 1
    · have hact : productRuntimeSetBrokerEnabled v a.runtime = (.err, a.runtime) := if_pos hv
      refine ⟨fun _ u hu => Option.some.inj hu ▸ hv, fun _ => ?_⟩
      unfold actControl
      dsimp only
      rw [hact]
      exact ⟨rfl, Kept.refl a⟩
    · obtain ⟨hst, -⟩ := @actControl_of_valid a v (UInt8.not_lt.mp hv)
      exact ⟨fun h => absurd h (not_unharmed hst (by decide)), fun h => absurd (h v rfl) hv⟩

theorem actPublish_of_valid {t : FieldBridgePublishTest}
    (ht : ¬ (t.topic.first = 0 ∨ t.payload.first = 0 ∨ t.qos > 2 ∨ t.retain > 1)) :
    (actPublish a (some t)).response.status = 200 ∧
      (actPublish a (some t)).app.runtime.lastPublish = t := by
  have hrec : productRuntimeRecordPublishTest t a.runtime =
      (.ok, { a.runtime with lastPublish := t }) := if_neg ht
  unfold actPublish
  dsimp only
  rw [hrec]
  exact ⟨rfl, rfl⟩

theorem actPublish_unharmed_iff {test : Option FieldBridgePublishTest} :
    Unharmed a (actPublish a test) ↔ Refused w path a (.publish test) := by
  rcases test with _ | t
  · exact ⟨fun _ _ h => (by cases h), fun _ => ⟨rfl, Kept.refl a⟩⟩
  · by_cases ht : t.topic.first = 0 ∨ t.payload.first = 0 ∨ t.qos > 2 ∨ t.retain > 1
    · have hact : productRuntimeRecordPublishTest t a.runtime = (.err, a.runtime) := if_pos ht
      refine ⟨fun _ u hu => Option.some.inj hu ▸ ht, fun _ => ?_⟩
      unfold actPublish
      dsimp only
      rw [hact]
      exact ⟨rfl, Kept.refl a⟩
    · obtain ⟨hst, -⟩ := @actPublish_of_valid a t ht
      exact ⟨fun h => absurd h (not_unharmed hst (by decide)), fun h => absurd (h t rfl) ht⟩

theorem actPlain_unharmed_iff :
    Unharmed a (actPlain w path a) ↔ Refused w path a .plain := by
  unfold actPlain
  by_cases h1 : path = str "/config/reset"
  · have href : Refused w path a .plain ↔ ¬ SavesAll w.store ∧
        a.config.settings = defaultSettings w.deviceId ∧ ∀ i, a.config.peers i = .zero :=
      ⟨fun h => h.2, fun h => ⟨h1, h⟩⟩
    rw [if_pos h1, href]
    unfold postConfigReset productConfigResetAll
    dsimp only
    by_cases hs : SavesAll w.store
    · rw [if_neg (by rw [persistSaveAll_ok hs]; simp)]
      exact ⟨fun h => absurd h (not_unharmed rfl (show 200 ≠ 400 by decide)),
        fun h => absurd hs h.1⟩
    · rw [persistSaveAll_err hs, if_pos (by simp)]
      constructor
      · rintro ⟨-, hk⟩
        exact ⟨hs, hk.settings.symm, fun i => (congrFun hk.peers i).symm⟩
      · rintro ⟨-, hset, hpeers⟩
        refine ⟨rfl, hset.symm, ?_, rfl, rfl⟩
        funext i
        exact (hpeers i).symm
  · have href : ¬ Refused w path a .plain := fun h => h1 h.1
    rw [if_neg h1]
    split_ifs
    · exact ⟨fun h => absurd h (not_unharmed rfl (show 200 ≠ 400 by decide)),
        fun h => absurd h href⟩
    · exact ⟨fun h => absurd h (not_unharmed rfl (show 404 ≠ 400 by decide)),
        fun h => absurd h href⟩

theorem actPost_unharmed_iff {r : PostRequest} :
    Unharmed a (actPost w path a r) ↔ Refused w path a r := by
  cases r with
  | tooLarge => exact ⟨fun _ => trivial, fun _ => ⟨rfl, Kept.refl a⟩⟩
  | config candidate => exact actConfig_unharmed_iff
  | peer candidate => exact actPeer_unharmed_iff
  | control enabled => exact actControl_unharmed_iff
  | publish test => exact actPublish_unharmed_iff
  | plain => exact actPlain_unharmed_iff

/-! ### What is not refused can be read back -/

/-- Two answers and the states with them are the same to the client and to the configuration. -/
def SameEffect (r r' : Answer) : Prop := r.response = r'.response ∧ Kept r'.app r.app

theorem SameEffect.unharmed {r r' : Answer} (h : SameEffect r r') (hu : Unharmed a r') :
    Unharmed a r :=
  ⟨by rw [h.1]; exact hu.1, h.2.settings.trans hu.2.settings, h.2.peers.trans hu.2.peers,
    h.2.brokerState.trans hu.2.brokerState, h.2.lastPublish.trans hu.2.lastPublish⟩

theorem actConfig_settings {n : FieldBridgeSettings}
    (h : ¬ Refused w path a (.config (some n))) :
    (actConfig w a (some n)).app.config.settings = n := by
  by_cases hn : n = a.config.settings
  · rw [hn, actConfig_of_same]
  · have hv : SettingsValid n := by
      by_contra hv
      exact h fun m hm => Option.some.inj hm ▸ ⟨hn, hv⟩
    exact (actConfig_of_valid hn hv).1

theorem actPeer_peers {p : FieldBridgePeer} (h : ¬ Refused w path a (.peer (some p))) :
    ∃ i, peerIndex (pathIndex w path) = some i ∧
      (actPeer w path a (some p)).app.config.peers i = p := by
  by_cases hv : ∃ i, peerIndex (pathIndex w path) = some i ∧ PeerValid p
  · obtain ⟨i, hi, hv⟩ := hv
    refine ⟨i, hi, ?_⟩
    rw [(actPeer_of_valid hi hv).1, Function.update_self]
  · refine absurd (fun q i hq hi hp => ?_) h
    obtain rfl := Option.some.inj hq
    exact absurd ⟨i, hi, hp⟩ hv

theorem actControl_brokerState {v : UInt8} (h : ¬ Refused w path a (.control (some v))) :
    v ≤ 1 ∧ (actControl a (some v)).app.runtime.runtimeStatus.brokerState =
      copyStr (if v ≠ 0 then str "requested" else str "stopped") := by
  have hv : v ≤ 1 := by
    by_contra hv
    exact h fun u hu => Option.some.inj hu ▸ UInt8.not_le.mp hv
  exact ⟨hv, (actControl_of_valid hv).2⟩

theorem actPublish_lastPublish {t : FieldBridgePublishTest}
    (h : ¬ Refused w path a (.publish (some t))) :
    (actPublish a (some t)).app.runtime.lastPublish = t := by
  refine (actPublish_of_valid ?_).2
  intro ht
  exact h fun u hu => Option.some.inj hu ▸ ht

/-- Two requests that have the same effect and are not refused are the same request. -/
def Distinguished (w : World) (path : Text) (a : App) (r r' : PostRequest) : Prop :=
  ¬ Refused w path a r → ¬ Refused w path a r' →
    SameEffect (actPost w path a r) (actPost w path a r') → r = r'

theorem config_distinguished (n n' : Option FieldBridgeSettings) :
    Distinguished w path a (.config n) (.config n') := by
  intro hr hr' h
  rcases n with _ | n
  · exact absurd (fun _ h => (by cases h)) hr
  rcases n' with _ | n'
  · exact absurd (fun _ h => (by cases h)) hr'
  have hn := h.2.settings
  simp only [actPost, actConfig_settings hr, actConfig_settings hr'] at hn
  rw [hn]

theorem peer_distinguished (p p' : Option FieldBridgePeer) :
    Distinguished w path a (.peer p) (.peer p') := by
  intro hr hr' h
  rcases p with _ | p
  · exact absurd (fun _ _ h => (by cases h)) hr
  rcases p' with _ | p'
  · exact absurd (fun _ _ h => (by cases h)) hr'
  obtain ⟨i, hi, hp⟩ := actPeer_peers hr
  obtain ⟨i', hi', hp'⟩ := actPeer_peers hr'
  rw [hi] at hi'
  obtain rfl := Option.some.inj hi'
  have hn := congrFun h.2.peers i
  simp only [actPost, hp, hp'] at hn
  rw [hn]

theorem control_distinguished (v v' : Option UInt8) :
    Distinguished w path a (.control v) (.control v') := by
  intro hr hr' h
  rcases v with _ | v
  · exact absurd (fun _ h => (by cases h)) hr
  rcases v' with _ | v'
  · exact absurd (fun _ h => (by cases h)) hr'
  obtain ⟨hv, hb⟩ := actControl_brokerState hr
  obtain ⟨hv', hb'⟩ := actControl_brokerState hr'
  have hn := h.2.brokerState
  simp only [actPost, hb, hb'] at hn
  rcases validBool_cases hv with rfl | rfl <;> rcases validBool_cases hv' with rfl | rfl
  · rfl
  · exact absurd hn (by decide)
  · exact absurd hn (by decide)
  · rfl

theorem publish_distinguished (t t' : Option FieldBridgePublishTest) :
    Distinguished w path a (.publish t) (.publish t') := by
  intro hr hr' h
  rcases t with _ | t
  · exact absurd (fun _ h => (by cases h)) hr
  rcases t' with _ | t'
  · exact absurd (fun _ h => (by cases h)) hr'
  have hn := h.2.lastPublish
  simp only [actPost, actPublish_lastPublish hr, actPublish_lastPublish hr'] at hn
  rw [hn]

/-- Two bodies that have the same effect and are not refused decode alike. -/
theorem decodePost_distinguished {data data' : List Byte} :
    Distinguished w path a (decodePost w path data a) (decodePost w path data' a) := by
  by_cases hlen : data.length ≥ reqBufSize
  · intro hr
    rw [decodePost, if_pos hlen] at hr
    exact absurd trivial hr
  by_cases hlen' : data'.length ≥ reqBufSize
  · intro _ hr'
    rw [decodePost, if_pos hlen'] at hr'
    exact absurd trivial hr'
  rw [decodePost, decodePost, if_neg hlen, if_neg hlen']
  by_cases h1 : path = str "/config"
  · simp only [if_pos h1]
    exact config_distinguished _ _
  by_cases h2 : peersPath <+: path
  · simp only [if_neg h1, if_pos h2]
    exact peer_distinguished _ _
  by_cases h3 : path = str "/broker/control"
  · simp only [if_neg h1, if_neg h2, if_pos h3]
    exact control_distinguished _ _
  by_cases h4 : path = str "/publish-test"
  · simp only [if_neg h1, if_neg h2, if_neg h3, if_pos h4]
    exact publish_distinguished _ _
  · simp only [if_neg h1, if_neg h2, if_neg h3, if_neg h4]
    exact fun _ _ _ => rfl

section Final

variable {id : ℕ} {url : Text} {data : List Byte} {z : ZephyrState}

/-- Without a buffer slot the final call answers 503. -/
theorem zephyrDynamicHandler_busy (h : zephyrAcquireBuffers id z.buffers = none) :
    zephyrDynamicHandler w ⟨id, url, .post⟩ .requestDataFinal data z =
      ⟨some ⟨503, .json (errorBody (str "low memory"))⟩, z, false⟩ := by
  simp only [zephyrDynamicHandler, h]
  rfl

/-- With one it answers and acts as its data decode. -/
theorem zephyrDynamicHandler_post {i : Fin zephyrHttpBufferSlots}
    {buffers : Fin zephyrHttpBufferSlots → ZephyrHttpBuffers}
    (h : zephyrAcquireBuffers id z.buffers = some (i, buffers)) :
    let path := stripQuery (url.take 127)
    let r := zephyrDynamicHandler w ⟨id, url, .post⟩ .requestDataFinal data z
    r.response = some (actPost w path z.app (decodePost w path data z.app)).response ∧
      r.state.app = (actPost w path z.app (decodePost w path data z.app)).app := by
  have hpost : zephyrDynamicHandler w ⟨id, url, .post⟩ .requestDataFinal data z =
      zephyrPost w (stripQuery (url.take 127)) data i ⟨z.app, buffers⟩ := by
    simp only [zephyrDynamicHandler, h]
    rfl
  dsimp only
  rw [hpost]
  exact zephyrPost_eq

end Final

/-- **What fragments of a body do**, compared with the whole: the same, or nothing, if and only if no
buffer slot is free, or the last fragment is refused, or it decodes to what the whole decodes to. -/
theorem fragmentsFaithful_iff {id : ℕ} {url : Text} {fs : List (List Byte)} {last : List Byte}
    {z : ZephyrState} :
    FragmentsFaithful w ⟨id, url, .post⟩ fs last z ↔
      zephyrAcquireBuffers id z.buffers = none ∨
      Refused w (stripQuery (url.take 127)) z.app
        (decodePost w (stripQuery (url.take 127)) last z.app) ∨
      decodePost w (stripQuery (url.take 127)) last z.app =
        decodePost w (stripQuery (url.take 127)) (fs.flatten ++ last) z.app := by
  set path := stripQuery (url.take 127)
  unfold FragmentsFaithful
  simp only [deliver_eq]
  rcases hacq : zephyrAcquireBuffers id z.buffers with _ | ⟨i, buffers⟩
  · rw [zephyrDynamicHandler_busy hacq, zephyrDynamicHandler_busy hacq]
    exact ⟨fun _ => Or.inl rfl, fun _ => Or.inl ⟨rfl, Kept.refl _⟩⟩
  · obtain ⟨hresp, happ⟩ := @zephyrDynamicHandler_post w id url last z i buffers hacq
    obtain ⟨hresp', happ'⟩ := @zephyrDynamicHandler_post w id url (fs.flatten ++ last) z i buffers hacq
    rw [hresp, happ, hresp', happ']
    set r := decodePost w path last z.app with hrdef
    set r' := decodePost w path (fs.flatten ++ last) z.app with hrdef'
    have hunharmed : ((∃ body, some (actPost w path z.app r).response = some ⟨400, body⟩) ∧
        Kept z.app (actPost w path z.app r).app) ↔ Refused w path z.app r := by
      rw [← actPost_unharmed_iff]
      refine and_congr_left' ⟨?_, fun h => ⟨(actPost w path z.app r).response.body, ?_⟩⟩
      · rintro ⟨body, h⟩
        rw [Option.some.inj h]
      · rw [← h]
    rw [hunharmed]
    simp only [Option.some.injEq, reduceCtorEq, false_or]
    constructor
    · rintro (h | h)
      · by_cases hr : Refused w path z.app r
        · exact Or.inl hr
        · refine Or.inr (decodePost_distinguished hr (fun hr' => hr ?_) h)
          exact actPost_unharmed_iff.mp (SameEffect.unharmed h (actPost_unharmed_iff.mpr hr'))
      · exact Or.inl h
    · rintro (h | h)
      · exact Or.inr h
      · rw [h]
        exact Or.inl ⟨rfl, Kept.refl _⟩

/-- A POST to `/config` that sets two ports, cut between them, sets one of them only. -/
theorem fragments_lose_port :
    ¬ FragmentsFaithful .good ⟨1, str "/config", .post⟩ [str "\x7b\"mqtt_port\":1885,"]
      (str "\"p2p_port\":4885\x7d") freshZephyr := by
  rintro (⟨-, h⟩ | ⟨⟨body, h⟩, -⟩)
  · have hport := congrArg (fun s => s.broker.mqttPort) h.settings
    exact absurd hport (by decide)
  · have hstatus : Option.map Response.status (some ⟨400, body⟩) = some 200 := by
      rw [← h]
      decide
    exact absurd (Option.some.inj hstatus) (show (400 : ℕ) ≠ 200 by decide)

end MqttFieldBridge.Http
