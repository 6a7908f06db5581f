import MqttFieldBridge.Config.Frame
import MqttFieldBridge.Http.Fragments
import MqttFieldBridge.Http.Host

/-! # A request changes only what its route is about

Of the state, a request may change the settings, the peer slots, the broker state and the last publish
test, `Kept` being that it changes none of these. A request that is refused changes none, and one that
is answered with 200 at most the one its route is about, `PostAllows`. -/

namespace MqttFieldBridge.Http

open MqttFieldBridge.CLib MqttFieldBridge.Config MqttFieldBridge.Runtime

/-- What a POST that is answered with 200 may have changed. -/
def PostAllows (deviceId : List Byte) (path : Text) (a a' : App) : Prop :=
  if path = str "/config" then ∃ s, Kept { a with config.settings := s } a'
  else if peersPath <+: path then
    ∃ i p, Kept { a with config.peers := Function.update a.config.peers i p } a'
  else if path = str "/broker/control" then
    ∃ state, Kept { a with runtime.runtimeStatus.brokerState := state } a'
  else if path = str "/publish-test" then ∃ test, Kept { a with runtime.lastPublish := test } a'
  else if path = str "/config/reset" then
    Kept { a with
      config.settings := defaultSettings deviceId
      config.peers := fun _ => .zero } a'
  else Kept a a'

/-- What a request that is answered with 200 may have changed. -/
def RequestAllows (deviceId : List Byte) (req : Text) (a a' : App) : Prop :=
  match scanRequestLine req with
  | none => False
  | some (method, rawPath) =>
    (method = str "GET" ∧ Kept a a') ∨
      (method = str "POST" ∧ PostAllows deviceId (requestPath rawPath) a a')

/-- A request in `a` that is refused has changed nothing, and one that is not leaves a `P`. -/
structure AnswerFrames (a : App) (r : Answer) (P : App → Prop) : Prop where
  refused : r.response.status ≠ 200 → Kept a r.app
  done : r.response.status = 200 → P r.app

variable {w : World} {path body : Text} {a : App} {P : App → Prop}

theorem Kept.trans {b c : App} (h : Kept a b) (h' : Kept b c) : Kept a c :=
  ⟨h'.settings.trans h.settings, h'.peers.trans h.peers, h'.brokerState.trans h.brokerState,
    h'.lastPublish.trans h.lastPublish⟩

theorem badRequest_frames {error : String} {a' : App} (h : Kept a a') :
    AnswerFrames a (badRequest error a') P :=
  ⟨fun _ => h, nofun⟩

theorem answered_frames {r : Answer} (hs : r.response.status = 200) (h : P r.app) :
    AnswerFrames a r P :=
  ⟨fun hne => absurd hs hne, fun _ => h⟩

/-- A route that refuses if its operation on the configuration fails. -/
theorem op_frames {r : Rc × ConfigState} {Q : ConfigState → Prop} {error : String} {done : Answer}
    (h : Frames a.config r Q) (hs : done.response.status = 200) (hP : Q r.2 → P done.app) :
    AnswerFrames a (if r.1 ≠ .ok then badRequest error { a with config := r.2 } else done) P := by
  split_ifs with hr
  · have hc : r.2 = a.config := h.refused (Rc.ne_ok_iff.mp hr)
    rw [hc]
    exact badRequest_frames (Kept.refl a)
  · exact answered_frames hs (hP (h.done (not_not.mp hr)))

theorem postConfig_frames (h : SavesSucceed w.store) :
    AnswerFrames a (postConfig w body a)
      fun a' => ∃ s, Kept { a with config.settings := s } a' := by
  rw [postConfig_eq]
  unfold actConfig
  split
  · exact badRequest_frames (Kept.refl a)
  · rename_i n _
    by_cases hn : n = a.config.settings
    · rw [if_pos hn]
      exact answered_frames rfl ⟨a.config.settings, Kept.refl a⟩
    · rw [if_neg hn]
      refine op_frames (setSettings_frames h n) rfl fun hc => ?_
      exact ⟨n, hc.1, hc.2, rfl, rfl⟩

theorem postPeer_frames (h : SavesSucceed w.store) :
    AnswerFrames a (postPeer w (pathIndex w path) body a)
      fun a' => ∃ i p, Kept { a with config.peers := Function.update a.config.peers i p } a' := by
  rw [postPeer_eq]
  unfold actPeer
  split
  · exact badRequest_frames (Kept.refl a)
  · rename_i p _
    refine op_frames (setPeer_frames h (pathIndex w path) p) rfl fun hc => ?_
    obtain ⟨hs, i, -, hp⟩ := hc
    set a' : App :=
      { a with config := (productConfigSetPeer w.store (pathIndex w path) p a.config).2 }
    obtain ⟨hconfig, hruntime⟩ := @applyPeers_config w a'
    have hkept : Kept a' (bridgeControlApplyPeers w a').2 :=
      ⟨by rw [hconfig], by rw [hconfig], by rw [hruntime], by rw [hruntime]⟩
    have hslot : Kept { a with config.peers := Function.update a.config.peers i p } a' :=
      ⟨hs, hp, rfl, rfl⟩
    exact ⟨i, p, hslot.trans hkept⟩

theorem postBrokerControl_frames : AnswerFrames a (postBrokerControl w body a)
    fun a' => ∃ state, Kept { a with runtime.runtimeStatus.brokerState := state } a' := by
  unfold postBrokerControl
  rcases jsonGetBoolish w.longBits body (str "enabled") with _ | enabled
  · exact badRequest_frames (Kept.refl a)
  · unfold productRuntimeSetBrokerEnabled
    dsimp only
    by_cases hv : enabled > 1
    · rw [if_pos hv]
      exact badRequest_frames (Kept.refl a)
    · rw [if_neg hv]
      exact answered_frames rfl ⟨_, Kept.refl _⟩

theorem postPublishTest_frames : AnswerFrames a (postPublishTest w body a)
    fun a' => ∃ test, Kept { a with runtime.lastPublish := test } a' := by
  unfold postPublishTest
  rcases publishCandidate w.longBits body with _ | test
  · exact badRequest_frames (Kept.refl a)
  · dsimp only
    rcases hr : (productRuntimeRecordPublishTest test a.runtime).1 with _ | _
    · rw [if_neg (by simp)]
      rw [recordPublishTest_ok hr]
      exact answered_frames rfl ⟨test, Kept.refl _⟩
    · rw [recordPublishTest_err hr, if_pos (by simp)]
      exact badRequest_frames (Kept.refl a)

theorem postConfigReset_frames (h : SavesSucceed w.store) :
    AnswerFrames a (postConfigReset w a) (Kept
      { a with
        config.settings := defaultSettings w.deviceId
        config.peers := fun _ => .zero }) :=
  op_frames (resetAll_frames h) rfl fun hw => ⟨hw.1, hw.2, rfl, rfl⟩

theorem postRoute_frames (h : SavesSucceed w.store) :
    AnswerFrames a (postRoute w path body a) (PostAllows w.deviceId path a) := by
  unfold postRoute PostAllows
  split_ifs
  · exact postConfig_frames h
  · exact postPeer_frames h
  · exact postBrokerControl_frames
  · exact postPublishTest_frames
  · exact postConfigReset_frames h
  · exact answered_frames rfl (Kept.refl a)
  · exact ⟨fun _ => Kept.refl a, nofun⟩

/-- A GET changes nothing, whatever it answers. -/
theorem hostGet_kept : Kept a (hostGet w path a).app := by
  rw [hostGet_route]
  split_ifs
  · exact Kept.refl a
  · rcases getSubject path with _ | subject
    · exact Kept.refl a
    · obtain ⟨hc, hp, hb⟩ := @getRoute_frame w hostRespBufSize a path
      dsimp only
      split_ifs
      · exact ⟨by rw [hc], by rw [hc], hb, hp⟩
      · exact ⟨by rw [hc], by rw [hc], hb, hp⟩

/-- **A request changes only what its route is about, and a refused one changes nothing.** -/
theorem handleRequest_frames (h : SavesSucceed w.store) (req : Text) (a : App) :
    AnswerFrames a (handleRequest w req a) (RequestAllows w.deviceId req a) := by
  rw [handleRequest_route]
  unfold RequestAllows
  rcases scanRequestLine req with _ | ⟨method, rawPath⟩
  · exact ⟨fun _ => Kept.refl a, nofun⟩
  · dsimp only
    by_cases hget : method = str "GET"
    · rw [if_pos hget]
      exact ⟨fun _ => hostGet_kept, fun _ => Or.inl ⟨hget, hostGet_kept⟩⟩
    rw [if_neg hget]
    by_cases hpost : method = str "POST"
    · rw [if_pos hpost]
      have hroute := @postRoute_frames w (requestPath rawPath) (requestBody req) a h
      exact ⟨hroute.refused, fun hs => Or.inr ⟨hpost, hroute.done hs⟩⟩
    · rw [if_neg hpost]
      exact ⟨fun _ => Kept.refl a, nofun⟩

theorem handleRequest_frames_reset :
    AnswerFrames freshApp (handleRequest .good (str "POST /config/reset HTTP/1.1\r\n\r\n") freshApp)
      (RequestAllows [] (str "POST /config/reset HTTP/1.1\r\n\r\n") freshApp) :=
  handleRequest_frames (fun _ => rfl) _ freshApp

end MqttFieldBridge.Http
