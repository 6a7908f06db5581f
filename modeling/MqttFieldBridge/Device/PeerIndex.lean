import MqttFieldBridge.Console.Frame
import MqttFieldBridge.Device.Run
import MqttFieldBridge.Http.Fragments

/-! # Which slot an index text names

A peer slot is written by a POST to a path under `/peers/`, to either handler, or by the console's
`peer`. All three read the slot with `atoi` from an index text, `IndexText`, that the bounds check
never sees. `NamedOnly` is that only the decimal spelling of a slot writes it, and `namedOnly_iff`
says when it holds. -/

namespace MqttFieldBridge.Device

open MqttFieldBridge.CLib MqttFieldBridge.Config MqttFieldBridge.Runtime MqttFieldBridge.Console
  MqttFieldBridge.Http

/-! ### Index texts -/

/-- What may write a peer slot: a request to the host, the final call of the firmware's handler, or a
line of the console. -/
inductive PeerAccess where
  | request (req : Text)
  | callback (client : HttpClient) (data : List Byte)
  | line (text : Text)

/-- The index text: all of the path after `/peers/` without its query, or the token after `peer`. -/
inductive IndexText : PeerAccess → Text → Prop
  | request {req t : Text} (h : givenPath req = peersPath ++ t) : IndexText (.request req) t
  | callback {client : HttpClient} {data : List Byte} {t : Text}
      (h : stripQuery client.urlBuffer = peersPath ++ t) : IndexText (.callback client data) t
  | line {text save r r' t name host : Text} (hword : nextToken (cstr text) = (some (str "peer"), save))
      (hindex : nextToken save = (some t, r)) (hname : nextToken r = (some name, r'))
      (hhost : (nextToken r').1 = some host) : IndexText (.line text) t

/-- A request is granted if it is a POST that is answered with 200. -/
def answerRc (post : Prop) [Decidable post] (status : ℕ) : Rc :=
  if post ∧ status = 200 then .ok else .err

theorem answerRc_of_post {post : Prop} [Decidable post] (h : post) {status : ℕ} :
    answerRc post status = answerRc True status := by
  simp only [answerRc, h]

theorem answerRc_err {post : Prop} [Decidable post] {status : ℕ} (h : post → status ≠ 200) :
    answerRc post status = .err := if_neg fun hok => h hok.1 hok.2

/-- What an access returns, and the configuration it leaves. -/
def PeerAccess.call (w : World) (d : DeviceState) : PeerAccess → Rc × ConfigState
  | .request req =>
    let r := handleRequest w req d.http.app
    (answerRc ((scanRequestLine req).map Prod.fst = some (str "POST")) r.response.status,
      r.app.config)
  | .callback client data =>
    let r := zephyrDynamicHandler w client .requestDataFinal data d.http
    (answerRc (client.method = .post) ((r.response.map Response.status).getD 0), r.state.app.config)
  | .line text => (productConsoleHandleLine w ⟨d.menu, d.http.app⟩ text).call

/-- A slot changes only if the index text is its decimal spelling, and a text that spells no slot is
refused and changes none. -/
structure NamedOnly (t : Text) (c : ConfigState) (r : Rc × ConfigState) : Prop where
  named : ∀ k, r.2.peers k ≠ c.peers k → t = decimal k
  refused : (∀ k : Fin fieldBridgePeerMax, t ≠ decimal k) → r.1 = .err ∧ r.2.peers = c.peers

/-- The slot and the record that an access asks for: `atoi` of the index text, which in a request is
that of the first 127 bytes of the path, and the record made of the slot and the body, or of the
line. -/
inductive Asks (w : World) (d : DeviceState) :
    PeerAccess → Fin fieldBridgePeerMax → FieldBridgePeer → Prop
  | request {req rawPath : Text} {i : Fin fieldBridgePeerMax}
      (hpost : scanRequestLine req = some (str "POST", rawPath))
      (hpath : peersPath <+: requestPath rawPath)
      (hi : peerIndex (atoi w.longBits ((requestPath rawPath).drop 7)) = some i) :
      Asks w d (.request req) i
        (peerCandidate w.longBits (requestBody req) (d.config.peers i))
  | callback {client : HttpClient} {data : List Byte} {i : Fin fieldBridgePeerMax}
      (hposts : CallbackPosts client .requestDataFinal data d.http)
      (hpath : peersPath <+: stripQuery (client.urlBuffer.take 127))
      (hi : peerIndex (atoi w.longBits ((stripQuery (client.urlBuffer.take 127)).drop 7)) = some i) :
      Asks w d (.callback client data) i
        (peerCandidate w.longBits (cstr data) (d.config.peers i))
  | line {text save : Text} {index : ℤ} {i : Fin fieldBridgePeerMax} {p : FieldBridgePeer}
      (hword : nextToken (cstr text) = (some (str "peer"), save))
      (hpeer : cmdPeer w.longBits save = .peer index p) (hi : peerIndex index = some i) :
      Asks w d (.line text) i p

variable {w : World} {d : DeviceState}

/-! ### The routes under `/peers/` -/

variable {path body : Text} {a : App}

theorem postRoute_peers (h : peersPath <+: path) :
    postRoute w path body a = postPeer w (atoi w.longBits (path.drop 7)) body a := by
  have hconfig : path ≠ str "/config" := by
    rintro rfl
    exact absurd h (by decide)
  unfold postRoute
  rw [if_neg hconfig, if_pos h]

/-- A path that is cut before its index is no route. -/
theorem postRoute_cut {t : Text} (h : path <+: peersPath ++ t) (hcut : ¬ peersPath <+: path) :
    (postRoute w path body a).response.status = 404 ∧ (postRoute w path body a).app = a := by
  have hshort : path <+: peersPath := by
    rcases le_total path.length peersPath.length with hlen | hlen
    · exact List.prefix_of_prefix_length_le h (List.prefix_append _ _) hlen
    · exact absurd (List.prefix_of_prefix_length_le (List.prefix_append _ _) h hlen) hcut
  have hroutes : ∀ n < 8, peersPath.take n ≠ str "/config" ∧
      peersPath.take n ≠ str "/broker/control" ∧ peersPath.take n ≠ str "/publish-test" ∧
      peersPath.take n ≠ str "/config/reset" ∧ peersPath.take n ≠ str "/reboot" := by decide
  have hseven : peersPath.length = 7 := by decide
  have hlen := hshort.length_le
  obtain ⟨h1, h2, h3, h4, h5⟩ := hroutes path.length (by omega)
  rw [← List.prefix_iff_eq_take.mp hshort] at h1 h2 h3 h4 h5
  unfold postRoute
  rw [if_neg h1, if_neg hcut, if_neg h2, if_neg h3, if_neg h4, if_neg h5]
  exact ⟨rfl, rfl⟩

/-- A POST to a slot sets it, and is answered with 200 if it is saved. -/
theorem postPeer_of_index {index : ℤ} {i : Fin fieldBridgePeerMax} (hi : peerIndex index = some i) :
    let r := productConfigSetPeer w.store index
      (peerCandidate w.longBits body (a.config.peers i)) a.config
    (postPeer w index body a).app.config = r.2 ∧
      ((postPeer w index body a).response.status = 200 ↔ r.1 = .ok) := by
  dsimp only
  have hget : productConfigGetPeer index a.config = some (a.config.peers i) := by
    unfold productConfigGetPeer
    rw [hi]
    rfl
  unfold postPeer applyPeerJson
  rw [hget]
  dsimp only
  rcases hr : (productConfigSetPeer w.store index
      (peerCandidate w.longBits body (a.config.peers i)) a.config).1 with _ | _
  · rw [if_neg (by simp)]
    exact ⟨applyPeers_config.1, iff_of_true rfl rfl⟩
  · rw [if_pos (by simp)]
    exact ⟨rfl, iff_of_false (show ¬ (400 : ℕ) = 200 by decide) (by simp)⟩

theorem postPeer_of_none {index : ℤ} (hi : peerIndex index = none) :
    postPeer w index body a = badRequest "invalid peer JSON" a := by
  have hget : productConfigGetPeer index a.config = none := by
    unfold productConfigGetPeer
    rw [hi]
    rfl
  unfold postPeer applyPeerJson
  rw [hget]
  exact if_pos (by simp)

/-- A POST under `/peers/`, as the path was cut: it sets a slot, or it is refused. -/
theorem postRoute_of_index {i : Fin fieldBridgePeerMax} (h : peersPath <+: path)
    (hi : peerIndex (atoi w.longBits (path.drop 7)) = some i) :
    let r := productConfigSetPeer w.store (atoi w.longBits (path.drop 7))
      (peerCandidate w.longBits body (a.config.peers i)) a.config
    (postRoute w path body a).app.config = r.2 ∧
      answerRc True (postRoute w path body a).response.status = r.1 := by
  dsimp only
  rw [postRoute_peers h]
  obtain ⟨hconfig, hstatus⟩ := @postPeer_of_index w body a _ i hi
  refine ⟨hconfig, ?_⟩
  unfold answerRc
  rcases hr : (productConfigSetPeer w.store (atoi w.longBits (path.drop 7))
      (peerCandidate w.longBits body (a.config.peers i)) a.config).1 with _ | _
  · exact if_pos ⟨trivial, hstatus.mpr hr⟩
  · refine if_neg fun hok => ?_
    have hrc := hstatus.mp hok.2
    rw [hr] at hrc
    cases hrc

theorem postRoute_of_none {t : Text} (h : path <+: peersPath ++ t)
    (hi : peersPath <+: path → peerIndex (atoi w.longBits (path.drop 7)) = none) :
    (postRoute w path body a).app = a ∧ (postRoute w path body a).response.status ≠ 200 := by
  by_cases hpeers : peersPath <+: path
  · rw [postRoute_peers hpeers, postPeer_of_none (hi hpeers)]
    exact ⟨rfl, show ¬ (400 : ℕ) = 200 by decide⟩
  · obtain ⟨hstatus, happ⟩ := @postRoute_cut w path body a t h hpeers
    refine ⟨happ, ?_⟩
    rw [hstatus]
    decide

/-- A POST to the firmware that no route answers is refused. -/
theorem zephyr_status_of_not {client : HttpClient} {data : List Byte} {z : ZephyrState}
    (hpost : client.method = .post) (h : ¬ CallbackPosts client .requestDataFinal data z) :
    ((zephyrDynamicHandler w client .requestDataFinal data z).response.map Response.status).getD 0 ≠
      200 := by
  obtain ⟨id, url, method⟩ := client
  obtain rfl : method = .post := hpost
  rcases hfree : zephyrAcquireBuffers id z.buffers with _ | ⟨i, buffers⟩
  · rw [zephyrDynamicHandler_busy hfree]
    exact show ¬ (503 : ℕ) = 200 by decide
  · have hlen : data.length ≥ reqBufSize := by
      by_contra hlen
      exact h ⟨rfl, rfl, by rw [hfree]; rfl, not_le.mp hlen⟩
    rw [(zephyrDynamicHandler_post hfree).1, decodePost, if_pos hlen]
    exact show ¬ (400 : ℕ) = 200 by decide

/-! ### The tokens of `peer` -/

theorem cmdPeer_of_tokens {longBits : ℕ} {save r r' t name host : Text}
    (hindex : nextToken save = (some t, r)) (hname : nextToken r = (some name, r'))
    (hhost : (nextToken r').1 = some host) :
    ∃ p, cmdPeer longBits save = .peer (atoi longBits t) p := by
  unfold cmdPeer
  simp only [hindex, hname, hhost]
  exact ⟨_, rfl⟩

theorem lineRequest_peer {longBits : ℕ} {m : Menu} {line save : Text}
    (hword : nextToken line = (some (str "peer"), save)) :
    lineRequest longBits m line = cmdPeer longBits save :=
  lineRequest_command hword (by decide) (by decide)

/-! ### What an access does -/

/-- **An access that asks for a slot** sets it. -/
theorem call_of_asks {x : PeerAccess} {i : Fin fieldBridgePeerMax} {p : FieldBridgePeer}
    (h : Asks w d x i p) : ∃ index, peerIndex index = some i ∧
      x.call w d = productConfigSetPeer w.store index p d.config := by
  cases h with
  | @request req rawPath i hpost hpath hi =>
    refine ⟨_, hi, ?_⟩
    obtain ⟨hconfig, hrc⟩ := @postRoute_of_index w _ (requestBody req) d.http.app i hpath hi
    have hanswer : handleRequest w req d.http.app =
        { postRoute w (requestPath rawPath) (requestBody req) d.http.app with reboot := false } := by
      rw [handleRequest_route]
      rw [hpost]
      rfl
    have hposted : (scanRequestLine req).map Prod.fst = some (str "POST") := by rw [hpost]; rfl
    unfold PeerAccess.call
    dsimp only
    rw [answerRc_of_post hposted, hanswer]
    exact Prod.ext hrc hconfig
  | @callback client data i hposts hpath hi =>
    refine ⟨_, hi, ?_⟩
    obtain ⟨hconfig, hrc⟩ := @postRoute_of_index w _ (cstr data) d.http.app i hpath hi
    rcases zephyrDynamicHandler_cases w client .requestDataFinal data d.http with
      ⟨-, happ, hresponse⟩ | ⟨hnot, -⟩
    · unfold PeerAccess.call
      dsimp only
      rw [answerRc_of_post hposts.2.1, happ, hresponse]
      exact Prod.ext hrc hconfig
    · exact absurd hposts hnot
  | @line text save index i p hword hpeer hi =>
    refine ⟨index, hi, ?_⟩
    unfold PeerAccess.call productConsoleHandleLine
    dsimp only
    rw [lineRequest_peer hword, hpeer]
    exact performPeer_call

theorem peerIndex_eq_none {index : ℤ} (h : ∀ i, peerIndex index ≠ some i) : peerIndex index = none :=
  Option.eq_none_iff_forall_ne_some.mpr h

/-- What is no POST is not granted, and leaves the configuration. -/
theorem call_request_of_not {req : Text}
    (hpost : ∀ rawPath, scanRequestLine req ≠ some (str "POST", rawPath)) :
    (PeerAccess.request req).call w d = (.err, d.config) := by
  refine Prod.ext (answerRc_err fun hposted => ?_) ?_
  · obtain ⟨⟨method, rawPath⟩, hline, hmethod⟩ := Option.map_eq_some_iff.mp hposted
    dsimp only at hmethod
    rw [hmethod] at hline
    exact absurd hline (hpost rawPath)
  · show (handleRequest w req d.http.app).app.config = d.config
    rw [handleRequest_config, requestOp_of_not hpost]
    rfl

/-- A call that does not reach the POST routes is not granted, and leaves the configuration. -/
theorem call_callback_of_not {client : HttpClient} {data : List Byte}
    (hposts : ¬ CallbackPosts client .requestDataFinal data d.http) :
    (PeerAccess.callback client data).call w d = (.err, d.config) := by
  refine Prod.ext (answerRc_err fun hpost => zephyr_status_of_not hpost hposts) ?_
  show (zephyrDynamicHandler w client .requestDataFinal data d.http).state.app.config = d.config
  have hop : callbackOp w.longBits client .requestDataFinal data d.http = none := if_neg hposts
  rw [zephyrDynamicHandler_config, hop]
  rfl

/-- **An access that asks for no slot** is refused and changes nothing. -/
theorem call_of_not_asks {x : PeerAccess} {t : Text} (hx : IndexText x t)
    (h : ∀ i p, ¬ Asks w d x i p) : x.call w d = (.err, d.config) := by
  cases hx with
  | @request req t hpath =>
    rcases handleRequest_cases w req d.http.app with ⟨rawPath, hpost, hanswer⟩ | ⟨hpost, -⟩
    · have hcut : requestPath rawPath <+: peersPath ++ t := by
        rw [rawPath_of_post hpost, ← hpath]
        exact prefix_requestPath _
      obtain ⟨happ, hstatus⟩ := @postRoute_of_none w _ (requestBody req) d.http.app t hcut
        fun hpeers => peerIndex_eq_none fun i hi => h i _ (.request hpost hpeers hi)
      unfold PeerAccess.call
      dsimp only
      rw [hanswer]
      exact Prod.ext (answerRc_err fun _ => hstatus) (congrArg App.config happ)
    · exact call_request_of_not hpost
  | @callback client data t hpath =>
    rcases zephyrDynamicHandler_cases w client .requestDataFinal data d.http with
      ⟨hposts, happ, hresponse⟩ | ⟨hposts, -⟩
    · have hcut : stripQuery (client.urlBuffer.take 127) <+: peersPath ++ t := by
        rw [← hpath]
        exact prefix_stripQuery ( List.take_prefix 127 _)
      obtain ⟨happ', hstatus⟩ := @postRoute_of_none w _ (cstr data) d.http.app t hcut
        fun hpeers => peerIndex_eq_none fun i hi => h i _ (.callback hposts hpeers hi)
      unfold PeerAccess.call
      dsimp only
      rw [happ, hresponse]
      exact Prod.ext (answerRc_err fun _ => hstatus) (congrArg App.config happ')
    · exact call_callback_of_not hposts
  | @line text save r r' t name host hword hindex hname hhost =>
    obtain ⟨p, hp⟩ := @cmdPeer_of_tokens w.longBits _ _ _ _ _ _ hindex hname hhost
    have hnone : peerIndex (atoi w.longBits t) = none :=
      peerIndex_eq_none fun i hi => h i p (.line hword hp hi)
    unfold PeerAccess.call productConsoleHandleLine
    dsimp only
    rw [lineRequest_peer hword, hp]
    refine performPeer_call.trans ?_
    unfold productConfigSetPeer
    rw [hnone]
    rfl

/-! ### When only a named slot is written -/

/-- A valid record for a slot is assigned, and the answer is that of the save. -/
theorem namedOnly_setPeer_iff {env : StoreEnv} {t : Text} {c : ConfigState} {index : ℤ}
    {i : Fin fieldBridgePeerMax} {p : FieldBridgePeer} (hi : peerIndex index = some i)
    (hv : PeerValid p) : NamedOnly t c (productConfigSetPeer env index p c) ↔
      (t = decimal i ∨ p = c.peers i) ∧
        (env.save (peerKey i) = .err ∨ ∃ k : Fin fieldBridgePeerMax, t = decimal k) := by
  rw [productConfigSetPeer_of_valid hi hv]
  constructor
  · intro h
    constructor
    · by_contra hnot
      rw [not_or] at hnot
      refine hnot.1 (h.named i ?_)
      dsimp only
      rw [Function.update_self]
      exact hnot.2
    · by_contra hnot
      rw [not_or, not_exists] at hnot
      exact hnot.1 (h.refused hnot.2).1
  · rintro ⟨hnamed, hrefused⟩
    have hother : ∀ k, Function.update c.peers i p k ≠ c.peers k → k = i ∧ p ≠ c.peers i := by
      intro k hk
      by_cases hki : k = i
      · rw [hki, Function.update_self] at hk
        exact ⟨hki, hk⟩
      · rw [Function.update_of_ne hki] at hk
        exact absurd rfl hk
    constructor
    · intro k hk
      obtain ⟨rfl, hp⟩ := hother k hk
      exact hnamed.resolve_right hp
    · intro hnone
      have hp : p = c.peers i := hnamed.resolve_left (hnone i)
      have hsave := hrefused.resolve_right fun ⟨k, hk⟩ => hnone k hk
      refine ⟨hsave, ?_⟩
      dsimp only
      rw [hp, Function.update_eq_self]

/-- **Only a named slot is written**, exactly if every valid record that is asked for a slot `i` has
an index text that spells `i`, or is in the slot already; and then the text spells some slot or the
save fails. -/
theorem namedOnly_iff (w : World) (d : DeviceState) (x : PeerAccess) (t : Text)
    (hx : IndexText x t) : NamedOnly t d.config (x.call w d) ↔
      ∀ i p, Asks w d x i p → PeerValid p → (t = decimal i ∨ p = d.config.peers i) ∧
        (w.store.save (peerKey i) = .err ∨ ∃ k : Fin fieldBridgePeerMax, t = decimal k) := by
  have hkept : NamedOnly t d.config (.err, d.config) :=
    ⟨fun k hk => absurd rfl hk, fun _ => ⟨rfl, rfl⟩⟩
  constructor
  · intro h i p hasks hv
    obtain ⟨index, hi, hcall⟩ := call_of_asks hasks
    rw [hcall] at h
    exact (namedOnly_setPeer_iff hi hv).mp h
  · intro h
    by_cases hasks : ∃ i p, Asks w d x i p
    · obtain ⟨i, p, hasks⟩ := hasks
      obtain ⟨index, hi, hcall⟩ := call_of_asks hasks
      rw [hcall]
      by_cases hv : PeerValid p
      · exact (namedOnly_setPeer_iff hi hv).mpr (h i p hasks hv)
      · rw [productConfigSetPeer_of_invalid fun _ _ => hv]
        exact hkept
    · have hnot : ∀ i p, ¬ Asks w d x i p := fun i p ha => hasks ⟨i, p, ha⟩
      rw [call_of_not_asks hx hnot]
      exact hkept

/-- The index `1` writes the slot 1. -/
theorem namedOnly_iff_one : NamedOnly (str "1") freshConfig
    ((PeerAccess.line (str "peer 1 north 10.0.0.2")).call .good ⟨.main, freshZephyr⟩) := by
  have hword : nextToken (cstr (str "peer 1 north 10.0.0.2")) =
      (some (str "peer"), str "1 north 10.0.0.2") := by decide
  have hindex : nextToken (str "1 north 10.0.0.2") = (some (str "1"), str "north 10.0.0.2") := by
    decide
  have hname : nextToken (str "north 10.0.0.2") = (some (str "north"), str "10.0.0.2") := by decide
  have hhost : (nextToken (str "10.0.0.2")).1 = some (str "10.0.0.2") := by decide
  refine (namedOnly_iff .good ⟨.main, freshZephyr⟩ _ _ (.line hword hindex hname hhost)).mpr ?_
  intro i p hasks hv
  obtain ⟨q, hq⟩ := @cmdPeer_of_tokens World.good.longBits _ _ _ _ _ _ hindex hname hhost
  cases hasks with
  | line hword' hpeer hi =>
    rw [hword, Prod.mk.injEq] at hword'
    rw [← hword'.2, hq] at hpeer
    obtain ⟨hread, -⟩ := Request.peer.inj hpeer
    have hone : peerIndex (atoi World.good.longBits (str "1")) = some 1 := by decide
    rw [← hread, hone, Option.some.injEq] at hi
    have hspelled : str "1" = decimal i := by
      rw [← hi]
      decide
    exact ⟨Or.inl hspelled, Or.inr ⟨i, hspelled⟩⟩

/-- A word that is no number writes the slot 0, on the line and in the path. -/
theorem namedOnly_word :
    IndexText (.line (str "peer abc north 10.0.0.2")) (str "abc") ∧
      ¬ NamedOnly (str "abc") freshConfig
        ((PeerAccess.line (str "peer abc north 10.0.0.2")).call .good ⟨.main, freshZephyr⟩) ∧
      IndexText (.request (str "POST /peers/abc HTTP/1.1\r\n\r\n\x7b\"name\":\"north\"\x7d"))
        (str "abc") ∧
      ¬ NamedOnly (str "abc") freshConfig ((PeerAccess.request
        (str "POST /peers/abc HTTP/1.1\r\n\r\n\x7b\"name\":\"north\"\x7d")).call .good
          ⟨.main, freshZephyr⟩) := by
  have hword : ∀ k : Fin fieldBridgePeerMax, str "abc" ≠ decimal k := by decide
  have hindex : nextToken (str "abc north 10.0.0.2") = (some (str "abc"), str "north 10.0.0.2") := by
    decide
  have hname : nextToken (str "north 10.0.0.2") = (some (str "north"), str "10.0.0.2") := by decide
  have hhost : (nextToken (str "10.0.0.2")).1 = some (str "10.0.0.2") := by decide
  refine ⟨.line (by decide) hindex hname hhost, fun h => ?_, .request (by decide), fun h => ?_⟩
  · exact absurd (h.refused hword).1 (by decide)
  · exact absurd (h.refused hword).1 (by decide)

end MqttFieldBridge.Device
