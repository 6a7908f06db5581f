import MqttFieldBridge.Config.Again
import MqttFieldBridge.Http.Frame
import MqttFieldBridge.Http.Repost
import MqttFieldBridge.Runtime.Seeds
import Mathlib.Logic.Relation

/-! # Requests that are sent again

A client that has read no answer does not know whether its request was carried out. It may send it
again as often as it likes: what the request has told the device the first time, `SameTold`, stays as
it is, whatever the saves of the later times do and whatever is asked in between. -/

namespace MqttFieldBridge.Http

open MqttFieldBridge.CLib MqttFieldBridge.Config MqttFieldBridge.Runtime

/-- What requests decide is the same. The rest of the runtime status is what the device reports. -/
structure SameTold (a a' : App) : Prop where
  config : a'.config = a.config
  seeds : a'.seeds = a.seeds
  brokerState : a'.runtime.runtimeStatus.brokerState = a.runtime.runtimeStatus.brokerState
  lastPublish : a'.runtime.lastPublish = a.runtime.lastPublish

/-- The same device: only the flash and the peers that are connected may answer differently. -/
structure SameDevice (w w' : World) : Prop where
  longBits : w'.longBits = w.longBits
  deviceId : w'.deviceId = w.deviceId
  inetPton : w'.p2p.inetPton = w.p2p.inetPton
  seedAdd : w'.seedAdd = w.seedAdd

variable {w w' : World} {path body : Text} {a b : App} {c : ConfigState} {longBits : ℕ}

theorem SameTold.refl (a : App) : SameTold a a := ⟨rfl, rfl, rfl, rfl⟩

theorem SameTold.trans {a' : App} (h : SameTold a b) (h' : SameTold b a') : SameTold a a' :=
  ⟨h'.config.trans h.config, h'.seeds.trans h.seeds, h'.brokerState.trans h.brokerState,
    h'.lastPublish.trans h.lastPublish⟩

/-! ### The operation of a request that is sent again -/

theorem peerCandidate_again (h0 : 0 ∉ body) (p : FieldBridgePeer) :
    peerCandidate longBits body (peerCandidate longBits body p) = peerCandidate longBits body p := by
  have hport : ∀ (o : Option UInt16) (q : UInt16),
      (if o.getD (if o.getD q = 0 then 4884 else o.getD q) = 0 then (4884 : UInt16)
        else o.getD (if o.getD q = 0 then 4884 else o.getD q)) =
        if o.getD q = 0 then 4884 else o.getD q := by
    rintro (_ | v) q
    · simp only [Option.getD_none]
      by_cases hq : q = 0
      · simp [hq]
      · simp [hq]
    · rfl
  unfold peerCandidate copyIfPresent
  dsimp only
  rw [jsonGetString_again h0, jsonGetString_again h0, getD_getD, getD_getD, hport]

/-- The settings there are after a body has asked for `new`, or it has been refused. -/
theorem configOp_again {env : StoreEnv} {deviceId : List Byte} (h0 : 0 ∉ body) :
    let c' := afterOp env deviceId (configOp longBits body c) c
    configOp longBits body c' = none ∨ configOp longBits body c' = configOp longBits body c := by
  intro c'
  rcases hop : configOp longBits body c with _ | op
  · have hc : c' = c := by simp only [c', hop, afterOp]
    rw [hc, hop]
    exact Or.inl rfl
  · have hc : c' = (op.run env deviceId c).2 := by simp only [c', hop, afterOp]
    unfold configOp at hop
    rcases hcand : configCandidate longBits body c.settings with _ | new
    · rw [hcand] at hop
      cases hop
    rw [hcand] at hop
    dsimp only at hop
    split_ifs at hop with hsame
    obtain rfl := Option.some.inj hop
    by_cases hv : SettingsValid new
    · left
      have hnew : c'.settings = new := by
        rw [hc]
        simp only [ConfigOp.run, productConfigSetSettings_of_valid hv]
      unfold configOp
      rw [hnew, configCandidate_again h0 hcand]
      exact if_pos rfl
    · right
      have hold : c' = c := by
        rw [hc]
        simp only [ConfigOp.run, productConfigSetSettings_of_invalid hv]
      rw [hold]
      unfold configOp
      rw [hcand]
      exact if_neg hsame

theorem peerOp_again {env : StoreEnv} {deviceId : List Byte} {index : ℤ} (h0 : 0 ∉ body) :
    peerOp longBits index body (afterOp env deviceId (peerOp longBits index body c) c) =
      peerOp longBits index body c := by
  unfold peerOp productConfigGetPeer
  rcases hi : peerIndex index with _ | i
  · rfl
  simp only [Option.map_some, afterOp, ConfigOp.run, Option.some.injEq]
  by_cases hv : PeerValid (peerCandidate longBits body (c.peers i))
  · rw [productConfigSetPeer_of_valid hi hv]
    simp only [Function.update_self, peerCandidate_again h0]
  · rw [productConfigSetPeer_of_invalid fun _ _ => hv]

/-- **The configuration that a request leaves stays when the request is sent again.** -/
theorem postOp_again {env : StoreEnv} (env' : StoreEnv) {deviceId : List Byte} (h0 : 0 ∉ body)
    (h : SavesSucceed env) :
    let c' := afterOp env deviceId (postOp longBits path body c) c
    afterOp env' deviceId (postOp longBits path body c') c' = c' := by
  have hagain : ∀ op : Option ConfigOp,
      afterOp env' deviceId op (afterOp env deviceId op c) = afterOp env deviceId op c := by
    rintro (_ | op)
    · rfl
    · exact run_again h env' op
  unfold postOp
  split_ifs
  · intro c'
    rcases @configOp_again body c longBits env deviceId h0 with hnone | hsame
    · rw [hnone]
      rfl
    · rw [hsame]
      exact hagain _
  · intro c'
    rw [peerOp_again h0]
    exact hagain _
  · rfl
  · rfl
  · exact hagain _
  · rfl

/-! ### What a route tells the device -/

/-- The broker state a body asks for. -/
def brokerStateAsked (longBits : ℕ) (body : Text) : Option (CStr fieldBridgeStateMax) :=
  (jsonGetBoolish longBits body (str "enabled")).bind fun enabled =>
    if enabled > 1 then none
    else some (copyStr (if enabled ≠ 0 then str "requested" else str "stopped"))

/-- The publish test a body asks for. -/
def publishAsked (longBits : ℕ) (body : Text) : Option FieldBridgePublishTest :=
  (publishCandidate longBits body).bind fun test =>
    if test.topic.first = 0 ∨ test.payload.first = 0 ∨ test.qos > 2 ∨ test.retain > 1 then none
    else some test

theorem postBrokerControl_eq : postBrokerControl w body a =
    match brokerStateAsked w.longBits body with
    | none => badRequest "invalid broker control" a
    | some state => accepted "requested" { a with runtime.runtimeStatus.brokerState := state } := by
  unfold postBrokerControl brokerStateAsked productRuntimeSetBrokerEnabled
  rcases jsonGetBoolish w.longBits body (str "enabled") with _ | enabled
  · rfl
  · dsimp only [Option.bind_some]
    by_cases hv : enabled > 1
    · rw [if_pos hv, if_pos hv]
      rfl
    · rw [if_neg hv, if_neg hv]
      rfl

theorem postPublishTest_eq : postPublishTest w body a =
    match publishAsked w.longBits body with
    | none => badRequest "invalid publish test" a
    | some test => accepted "recorded" { a with runtime.lastPublish := test } := by
  unfold postPublishTest publishAsked productRuntimeRecordPublishTest
  rcases publishCandidate w.longBits body with _ | test
  · rfl
  · dsimp only [Option.bind_some]
    by_cases hv : test.topic.first = 0 ∨ test.payload.first = 0 ∨ test.qos > 2 ∨ test.retain > 1
    · rw [if_pos hv, if_pos hv]
      rfl
    · rw [if_neg hv, if_neg hv]
      rfl

/-- The operation of a POST to a peer slot, and the seeds it leaves. -/
theorem applyPeerJson_eq {index : ℤ} : (applyPeerJson w index body a).1 =
      ((peerOp w.longBits index body a.config).map fun op =>
        (op.run w.store w.deviceId a.config).1).getD .err ∧
    (applyPeerJson w index body a).2.runtime = a.runtime ∧
    (applyPeerJson w index body a).2.seeds =
      if (applyPeerJson w index body a).1 = .ok then
        seedTable ⟨w.p2p.inetPton, w.seedAdd⟩
          (wantedSeeds ⟨w.p2p.inetPton, w.seedAdd⟩ (applyPeerJson w index body a).2.config)
      else a.seeds := by
  unfold applyPeerJson peerOp
  rcases productConfigGetPeer index a.config with _ | p
  · exact ⟨rfl, rfl, rfl⟩
  simp only [Option.map_some, Option.getD_some, ConfigOp.run]
  set r := productConfigSetPeer w.store index (peerCandidate w.longBits body p) a.config
  rcases hr : r.1 with _ | _
  · simp only [ne_eq, not_true, if_false, if_true]
    refine ⟨trivial, applyPeers_config.2, ?_⟩
    rw [applyPeers_config.1]
    exact applyPeers_seeds ⟨rfl, rfl⟩ _
  · simp

/-! ### A route that is taken again -/

/-- The answer `r'` to a request that has been answered with `r` and is sent again in `b`. -/
structure ToldAgain (w' : World) (r : Answer) (b : App) (r' : Answer) : Prop where
  seeds : r'.app.seeds = b.seeds
  brokerState : r'.app.runtime.runtimeStatus.brokerState = b.runtime.runtimeStatus.brokerState
  lastPublish : r'.app.runtime.lastPublish = b.runtime.lastPublish
  status : SavesSucceed w'.store → r'.response.status = r.response.status

theorem postConfig_again (h0 : 0 ∉ body) (h : SavesSucceed w.store) (hd : SameDevice w w')
    (hb : SameTold (postConfig w body a).app b) :
    ToldAgain w' (postConfig w body a) b (postConfig w' body b) := by
  have hstatus : ∀ (w : World) (a : App), (postConfig w body a).response.status =
      if (applyConfigJson w body a.config).1.isSome then 200 else 400 := by
    intro w a
    unfold postConfig
    rcases applyConfigJson w body a.config with ⟨_ | _, _⟩
    · rfl
    · rfl
  have hconfig := hb.config
  rw [postConfig_app] at hconfig
  refine ⟨by rw [postConfig_app], by rw [postConfig_app], by rw [postConfig_app], fun _ => ?_⟩
  rw [hstatus, hstatus, hconfig]
  rcases hcand : configCandidate w.longBits body a.config.settings with _ | new
  · rw [applyConfigJson_of_none hcand]
    rw [← hd.longBits] at hcand
    rw [applyConfigJson_of_none hcand]
  by_cases hsame : new = a.config.settings
  · rw [hsame] at hcand
    rw [applyConfigJson_of_same hcand]
    rw [← hd.longBits] at hcand
    rw [applyConfigJson_of_same hcand]
  rw [applyConfigJson_of_new hcand hsame]
  by_cases hv : SettingsValid new
  · -- what has been accepted is there
    have hagain := configCandidate_again h0 hcand
    rw [productConfigSetSettings_of_valid hv, h settingsKey]
    rw [← hd.longBits] at hagain
    rw [applyConfigJson_of_same hagain]
    rfl
  · rw [productConfigSetSettings_of_invalid hv]
    rw [← hd.longBits] at hcand
    rw [applyConfigJson_of_new hcand hsame, productConfigSetSettings_of_invalid hv]

theorem postPeer_again {index : ℤ} (h0 : 0 ∉ body) (h : SavesSucceed w.store)
    (hd : SameDevice w w') (hb : SameTold (postPeer w index body a).app b) :
    ToldAgain w' (postPeer w index body a) b (postPeer w' index body b) := by
  have hstatus : ∀ (w : World) (a : App), (postPeer w index body a).response.status =
      if (applyPeerJson w index body a).1 = .ok then 200 else 400 := by
    intro w a
    unfold postPeer
    dsimp only
    rcases (applyPeerJson w index body a).1 with _ | _
    · rfl
    · rfl
  obtain ⟨hrc, -, hseeds⟩ := @applyPeerJson_eq w body a index
  obtain ⟨hrc', hruntime', hseeds'⟩ := @applyPeerJson_eq w' body b index
  -- it is the same operation
  have hop : peerOp w'.longBits index body b.config = peerOp w.longBits index body a.config := by
    rw [hb.config, postPeer_config, hd.longBits]
    exact peerOp_again h0
  have hconfig : (applyPeerJson w' index body b).2.config = b.config := by
    have hagain := @postPeer_config w' body b index
    rw [postPeer_app, hop, hd.deviceId] at hagain
    rw [hagain, hb.config, postPeer_config]
    rcases peerOp w.longBits index body a.config with _ | op
    · rfl
    · exact run_again h w'.store op
  rw [hop, hd.deviceId] at hrc'
  have hok : (applyPeerJson w' index body b).1 = .ok → (applyPeerJson w index body a).1 = .ok := by
    rw [hrc, hrc']
    rcases peerOp w.longBits index body a.config with _ | op
    · exact id
    · exact fun hrun => (run_ok_iff h).mpr (accepts_of_run hrun)
  refine ⟨?_, by rw [postPeer_app, hruntime'], by rw [postPeer_app, hruntime'], fun h' => ?_⟩
  · rw [postPeer_app, hseeds']
    split_ifs with hrun
    · have hbefore := hb.seeds
      rw [postPeer_app, hseeds, if_pos (hok hrun)] at hbefore
      have hc := hb.config
      rw [postPeer_app] at hc
      rw [hbefore, hconfig, hc, hd.inetPton, hd.seedAdd]
    · rfl
  · rw [hstatus, hstatus]
    have hiff : (applyPeerJson w' index body b).1 = .ok ↔
        (applyPeerJson w index body a).1 = .ok := by
      refine ⟨hok, ?_⟩
      rw [hrc, hrc']
      rcases peerOp w.longBits index body a.config with _ | op
      · exact id
      · exact fun hrun => (run_ok_iff h').mpr (accepts_of_run hrun)
    simp only [hiff]

theorem postBrokerControl_again (hd : SameDevice w w')
    (hb : SameTold (postBrokerControl w body a).app b) :
    ToldAgain w' (postBrokerControl w body a) b (postBrokerControl w' body b) := by
  have hstate := hb.brokerState
  rw [postBrokerControl_eq] at hstate ⊢
  rw [postBrokerControl_eq, hd.longBits]
  rcases hasked : brokerStateAsked w.longBits body with _ | state
  · exact ⟨rfl, rfl, rfl, fun _ => rfl⟩
  · rw [hasked] at hstate
    exact ⟨rfl, hstate.symm, rfl, fun _ => rfl⟩

theorem postPublishTest_again (hd : SameDevice w w')
    (hb : SameTold (postPublishTest w body a).app b) :
    ToldAgain w' (postPublishTest w body a) b (postPublishTest w' body b) := by
  have htest := hb.lastPublish
  rw [postPublishTest_eq] at htest ⊢
  rw [postPublishTest_eq, hd.longBits]
  rcases hasked : publishAsked w.longBits body with _ | test
  · exact ⟨rfl, rfl, rfl, fun _ => rfl⟩
  · rw [hasked] at htest
    exact ⟨rfl, rfl, htest.symm, fun _ => rfl⟩

theorem postConfigReset_again (h : SavesSucceed w.store) :
    ToldAgain w' (postConfigReset w a) b (postConfigReset w' b) := by
  have hstatus : ∀ (w : World) (a : App), SavesSucceed w.store →
      (postConfigReset w a).response.status = 200 := by
    intro w a hsave
    have hrun : (productConfigResetAll w.store w.deviceId a.config).1 = .ok :=
      persistSaveAll_ok hsave.savesAll
    unfold postConfigReset
    dsimp only
    rw [hrun]
    rfl
  refine ⟨by rw [postConfigReset_app], by rw [postConfigReset_app], by rw [postConfigReset_app],
    fun h' => ?_⟩
  rw [hstatus w a h, hstatus w' b h']

theorem postRoute_again (h0 : 0 ∉ body) (h : SavesSucceed w.store) (hd : SameDevice w w')
    (hb : SameTold (postRoute w path body a).app b) :
    ToldAgain w' (postRoute w path body a) b (postRoute w' path body b) := by
  unfold postRoute at hb ⊢
  split_ifs at hb ⊢
  · exact postConfig_again h0 h hd hb
  · rw [hd.longBits]
    exact postPeer_again h0 h hd hb
  · exact postBrokerControl_again hd hb
  · exact postPublishTest_again hd hb
  · exact postConfigReset_again h
  · exact ⟨rfl, rfl, rfl, fun _ => rfl⟩
  · exact ⟨rfl, rfl, rfl, fun _ => rfl⟩

theorem postRoute_told_again (h0 : 0 ∉ body) (h : SavesSucceed w.store) (hd : SameDevice w w')
    (hb : SameTold (postRoute w path body a).app b) :
    SameTold b (postRoute w' path body b).app := by
  have hagain := postRoute_again h0 h hd hb
  refine ⟨?_, hagain.seeds, hagain.brokerState, hagain.lastPublish⟩
  rw [postRoute_config, hb.config, postRoute_config, hd.deviceId, hd.longBits]
  exact postOp_again w'.store h0 h

/-! ### Requests -/

theorem getRoute_told {cap : ℕ} : SameTold a (getRoute w cap path a).2 := by
  have hseeds : (getRoute w cap path a).2.seeds = a.seeds := by
    rw [getRoute_state]
    split_ifs
    · rfl
    · rfl
  obtain ⟨hconfig, hpublish, hstate⟩ := @getRoute_frame w cap a path
  exact ⟨hconfig, hseeds, hstate, hpublish⟩

/-- The request as the handler reads it: a C string has a C string as its body. -/
theorem zero_notMem_requestBody (bytes : List Byte) : 0 ∉ requestBody (cstr bytes) := by
  unfold requestBody
  rcases hend : strstr (cstr bytes) headerEnd with _ | p
  · exact List.not_mem_nil
  · intro hmem
    have hp : (0 : Byte) ∈ p := List.mem_of_mem_drop hmem
    exact zero_notMem_cstr bytes ((strstr_isSuffix hend).subset hp)

theorem handleRequest_of_post {req rawPath : Text}
    (hline : scanRequestLine req = some (str "POST", rawPath)) (w : World) (a : App) :
    handleRequest w req a =
      { postRoute w (requestPath rawPath) (requestBody req) a with reboot := false } := by
  rcases handleRequest_cases w req a with ⟨rawPath', hline', heq⟩ | ⟨hnot, -⟩
  · rw [hline] at hline'
    obtain rfl : rawPath = rawPath' := (Prod.mk.inj (Option.some.inj hline')).2
    exact heq
  · exact absurd hline (hnot rawPath)

/-- **A request that is sent again tells the device nothing new.** -/
theorem handleRequest_told_again {bytes : List Byte} (h : SavesSucceed w.store)
    (hd : SameDevice w w') (hb : SameTold (handleRequest w (cstr bytes) a).app b) :
    SameTold b (handleRequest w' (cstr bytes) b).app := by
  rcases handleRequest_cases w' (cstr bytes) b with ⟨rawPath, hline, heq⟩ | ⟨-, happ | ⟨path, happ⟩⟩
  · rw [handleRequest_of_post hline] at hb
    rw [heq]
    exact postRoute_told_again (zero_notMem_requestBody bytes) h hd hb
  · rw [happ]
    exact SameTold.refl b
  · rw [happ]
    exact getRoute_told

/-- A POST is answered as before, if it can be saved. -/
theorem handleRequest_status_again {bytes rawPath : List Byte} (h : SavesSucceed w.store)
    (hd : SameDevice w w') (hb : SameTold (handleRequest w (cstr bytes) a).app b)
    (hline : scanRequestLine (cstr bytes) = some (str "POST", rawPath)) (h' : SavesSucceed w'.store) :
    (handleRequest w' (cstr bytes) b).response.status =
      (handleRequest w (cstr bytes) a).response.status := by
  rw [handleRequest_of_post hline] at hb ⊢
  rw [handleRequest_of_post hline]
  exact (postRoute_again (zero_notMem_requestBody bytes) h hd hb).status h'

/-- What happens after a request: it is sent again, or something that tells the device nothing. -/
inductive Later (w : World) (req : Text) : App → App → Prop
  | retry {a : App} (w' : World) (h : SameDevice w w') : Later w req a (handleRequest w' req a).app
  | other {a a' : App} (h : SameTold a a') : Later w req a a'

/-- **A request that is sent again and again is carried out once.** If what it saves the first time
can be saved, then however often it is sent again, whatever the saves do then and whatever is asked or
reported in between, what the device has been told stays as the first time has left it; and as soon as
saves succeed, a POST is answered with the status of the first time. -/
theorem handleRequest_retried (w : World) (bytes : List Byte) (a b : App)
    (h : SavesSucceed w.store)
    (hb : Relation.ReflTransGen (Later w (cstr bytes)) (handleRequest w (cstr bytes) a).app b) :
    SameTold (handleRequest w (cstr bytes) a).app b ∧
      ∀ w' : World, SameDevice w w' → SavesSucceed w'.store →
        (∃ rawPath, scanRequestLine (cstr bytes) = some (str "POST", rawPath)) →
          (handleRequest w' (cstr bytes) b).response.status =
            (handleRequest w (cstr bytes) a).response.status := by
  have htold : SameTold (handleRequest w (cstr bytes) a).app b := by
    induction hb with
    | refl => exact SameTold.refl _
    | tail _ hstep ih =>
      cases hstep with
      | retry w' hd => exact ih.trans (handleRequest_told_again h hd ih)
      | other hother => exact ih.trans hother
  refine ⟨htold, fun w' hd h' hpost => ?_⟩
  obtain ⟨rawPath, hline⟩ := hpost
  exact handleRequest_status_again h hd htold hline h'

/-- A slot is set to a peer. -/
def peerRequest : Text :=
  str "POST /peers/1 HTTP/1.1\r\n\r\n\x7b\"host\":\"10.0.0.2\",\"mqtt_port\":1883,\"enabled\":1\x7d"

/-- The flash takes nothing any more. -/
def wornWorld : World := { World.good with store := { StoreEnv.good with save := fun _ => .err } }

/-- It is set once, although the flash fails while the request is sent again. -/
theorem handleRequest_retried_worn :
    let first := handleRequest .good (cstr peerRequest) freshApp
    let second := handleRequest wornWorld (cstr peerRequest) first.app
    first.response.status = 200 ∧ second.response.status = 400 ∧ SameTold first.app second.app ∧
      (handleRequest .good (cstr peerRequest) second.app).response.status = 200 := by
  intro first second
  have hfirst : first.response.status = 200 := by decide
  have hsecond : second.response.status = 400 := by decide
  have hline : scanRequestLine (cstr peerRequest) = some (str "POST", str "/peers/1") := by decide
  have hretried := handleRequest_retried .good peerRequest freshApp second.app (fun _ => rfl)
    (.single (.retry wornWorld ⟨rfl, rfl, rfl, rfl⟩))
  refine ⟨hfirst, hsecond, hretried.1, ?_⟩
  exact (hretried.2 .good ⟨rfl, rfl, rfl, rfl⟩ (fun _ => rfl) ⟨_, hline⟩).trans hfirst

end MqttFieldBridge.Http
