import MqttFieldBridge.Http.Documents
import MqttFieldBridge.Http.Effects
import MqttFieldBridge.Http.Slots

/-! # The firmware answers as the host does

The handler of the firmware is called with the path and the body that the host finds in the text of a
complete request (`handleRequest_complete`). Both then do the same: the POST routes of either are those
of one table, and the text of a GET route is built in either buffer (`getRoute_built`). What else
could tell them apart, the answer to a text that cannot be built, never happens to settings and peers
that are sound (`zephyrDynamicHandler_refines`). -/

namespace MqttFieldBridge.Http

open MqttFieldBridge.CLib MqttFieldBridge.Config MqttFieldBridge.Runtime MqttFieldBridge.Json

variable {w : World} {method path body req rest : Text} {a : App}

/-! ### The text of a request -/

/-- A method of the server and its word in a request line. -/
inductive Spelled : HttpMethod → Text → Prop where
  | get : Spelled .get (str "GET")
  | post : Spelled .post (str "POST")

/-- A path that both handlers read whole. -/
structure PathText (path : Text) : Prop where
  slash : path.head? = some slash
  noSpace : ∀ c ∈ path, isspace c = false
  length : path.length ≤ 127

/-- The request begins with its line, and its first empty line stands before the body. -/
structure Complete (method path body req : Text) : Prop where
  line : ∃ rest, req = method ++ 32 :: (path ++ 32 :: rest)
  body : strstr req headerEnd = some (headerEnd ++ body)

theorem scanWord_space (width : ℕ) (p : Text) : scanWord width (32 :: p) = scanWord width p := rfl

/-- A word before a space is read whole if it is not too long. -/
theorem scanWord_word {width : ℕ} {word : Text} (hne : word ≠ [])
    (hword : ∀ c ∈ word, isspace c = false) (hlen : word.length ≤ width) :
    scanWord width (word ++ 32 :: rest) = some (word, 32 :: rest) := by
  have hskip : skipSpace (word ++ 32 :: rest) = word ++ 32 :: rest := by
    cases word with
    | nil => exact absurd rfl hne
    | cons c cs => exact List.dropWhile_cons_of_neg (by simp [hword c List.mem_cons_self])
  have htake : (word ++ 32 :: rest).takeWhile (fun c => !isspace c) = word := by
    rw [List.takeWhile_append_of_pos fun c hc => by simp [hword c hc]]
    exact (congrArg (word ++ ·) rfl).trans (List.append_nil word)
  unfold scanWord
  simp only [hskip, htake, List.take_of_length_le hlen, if_neg hne, List.drop_left]

theorem scanRequestLine_complete {m : HttpMethod} (hm : Spelled m method) (hpath : PathText path)
    (h : Complete method path body req) : scanRequestLine req = some (method, path) := by
  obtain ⟨rest, rfl⟩ := h.line
  have hmethod : method ≠ [] ∧ (∀ c ∈ method, isspace c = false) ∧ method.length ≤ 7 := by
    cases hm with
    | get => decide +kernel
    | post => decide +kernel
  obtain ⟨hne, hword, hlen⟩ := hmethod
  have hpathne : path ≠ [] := fun h0 => by
    have hslash := hpath.slash
    rw [h0] at hslash
    cases hslash
  unfold scanRequestLine
  simp only [scanWord_word hne hword hlen, scanWord_space,
    scanWord_word hpathne hpath.noSpace hpath.length]

theorem requestPath_complete (hpath : PathText path) : requestPath path = stripQuery path := by
  refine if_neg fun hp => ?_
  obtain ⟨r, hr⟩ := hp
  have hslash := hpath.slash
  rw [← hr] at hslash
  exact absurd (Option.some.inj hslash) (by decide)

theorem requestBody_complete (h : Complete method path body req) : requestBody req = body := by
  unfold requestBody
  rw [h.body]
  rfl

/-- **What the host does with a complete request.** -/
theorem handleRequest_complete {m : HttpMethod} (hm : Spelled m method) (hpath : PathText path)
    (h : Complete method path body req) : handleRequest w req a =
      if m = .get then hostGet w (stripQuery path) a
      else { postRoute w (stripQuery path) body a with reboot := false } := by
  rw [handleRequest_route]
  simp only [scanRequestLine_complete hm hpath h, requestPath_complete hpath, requestBody_complete h]
  cases hm with
  | get => rfl
  | post =>
    have hget : str "POST" ≠ str "GET" := by decide
    rw [if_neg hget, if_pos rfl, if_neg nofun]

/-! ### The GET routes -/

/-- The text of a GET route is built, the same in every buffer that is large enough. -/
theorem getRoute_built (hsettings : SettingsSound a.config.settings)
    (hpeers : ∀ i, PeerTerminated (a.config.peers i)) {subject : Text}
    (hpath : getSubject path = some subject) : ∃ t, 0 ∉ t ∧ t.length < respBufSize ∧
      ∀ cap, respBufSize ≤ cap → (getRoute w cap path a).1 = ⟨true, some t⟩ := by
  obtain ⟨hvalid, hterm⟩ := hsettings
  unfold getSubject at hpath
  unfold getRoute
  split_ifs at hpath with h1 h2 h3 h4
  · have hstream : str "test" ≠ [] ∧ slash ∉ str "test" ∧ 0 ∉ str "test" := by decide
    obtain ⟨topic, htopic⟩ : ∃ topic,
        productTopicBuild a.config.settings (str "test") fieldBridgeTopicFullMax = some topic :=
      ⟨_, topicBuild_of_terminated hvalid.v1.topicPrefix hterm.topicPrefix hstream.1 hstream.2.1
        (by decide)⟩
    have h0 := zero_notMem_topicBuild htopic hstream.2.2
    let status := (productRuntimeGetStatus w.p2p a.runtime).runtimeStatus
    refine ⟨rawObject (statusMembers status topic), zero_notMem_rawObject (statusMembers_nulFree h0),
      statusMembers_fits htopic status, ?_⟩
    intro cap hcap
    rw [if_pos h1]
    exact buildStatusJson_built hcap htopic
  · refine ⟨_, zero_notMem_rawObject configMembers_nulFree, configMembers_fits hterm, ?_⟩
    intro cap hcap
    rw [if_neg h1, if_pos h2]
    exact buildConfigJson_built hcap hterm
  · have h0 : ∀ ms ∈ peerObjects a.config, ∀ m ∈ ms, NulFree m := by
      intro ms hms
      obtain ⟨i, hi, rfl⟩ := List.mem_mapIdx.mp hms
      exact peerMembers_nulFree
    refine ⟨_, zero_notMem_rawArray h0, peerObjects_fits hpeers, ?_⟩
    intro cap hcap
    rw [if_neg h1, if_neg h2, if_pos h3]
    exact buildPeersJson_built hcap hpeers
  · have h0 : ∀ ms ∈ peerStatusObjects w.p2p a, ∀ m ∈ ms, NulFree m := by
      intro ms hms
      obtain ⟨p, -, rfl⟩ := List.mem_map.mp hms
      exact peerStatusMembers_nulFree
    refine ⟨_, zero_notMem_rawArray h0, peerStatusObjects_fits w.p2p a, ?_⟩
    intro cap hcap
    rw [if_neg h1, if_neg h2, if_neg h3, if_pos h4]
    exact buildPeerStatusJson_built hcap

theorem getRoute_notBuilt {cap : ℕ} (hpath : getSubject path = none) :
    getRoute w cap path a = (notBuilt, a) := by
  unfold getSubject at hpath
  unfold getRoute
  split_ifs at hpath with h1 h2 h3 h4
  rw [if_neg h1, if_neg h2, if_neg h3, if_neg h4]

/-- What the firmware answers to a GET when a buffer slot is free. -/
theorem zephyrDynamicHandler_get {id : ℕ} {url : Text} {data : List Byte} {z : ZephyrState}
    {i : Fin zephyrHttpBufferSlots} {buffers : BufferSlots}
    (hacq : zephyrAcquireBuffers id z.buffers = some (i, buffers))
    (hsettings : SettingsSound z.app.config.settings)
    (hpeers : ∀ i, PeerTerminated (z.app.config.peers i)) :
    let r := zephyrDynamicHandler w ⟨id, url, .get⟩ .requestDataFinal data z
    let r' := hostGet w (stripQuery (url.take 127)) z.app
    r.response = some r'.response ∧ r.state.app = r'.app := by
  rw [hostGet_route]
  unfold zephyrDynamicHandler
  dsimp only
  by_cases hindex : stripQuery (url.take 127) = str "/" ∨ stripQuery (url.take 127) = str "/index.html"
  · rw [if_pos ⟨rfl, hindex⟩, if_pos hindex]
    exact ⟨rfl, rfl⟩
  rw [if_neg (fun h => hindex h.2), if_neg hindex, hacq]
  dsimp only
  rw [zephyrGet_route]
  rcases hsubject : getSubject (stripQuery (url.take 127)) with _ | subject
  · rw [getRoute_notBuilt hsubject]
    exact ⟨rfl, rfl⟩
  · obtain ⟨t, h0, hlen, hbuilt⟩ := @getRoute_built w _ z.app hsettings hpeers subject hsubject
    have hfirmware := hbuilt respBufSize le_rfl
    have hhost := hbuilt hostRespBufSize (by decide)
    have htext : (printResponse (buffers i).response (some t)).text = t := CharArray.text_write h0 hlen
    dsimp only
    rw [hfirmware, hhost, htext, if_pos rfl, if_pos rfl, getRoute_state, getRoute_state]
    exact ⟨rfl, rfl⟩

/-! ### Both handlers -/

/-- **The firmware's handler refines the host's.** On the same path and body, with a buffer slot free,
it gives the same answer and leaves the same state. -/
theorem zephyrDynamicHandler_refines {m : HttpMethod} {id : ℕ} {z : ZephyrState}
    (hm : Spelled m method) (hpath : PathText path) (hbody : 0 ∉ body ∧ body.length < reqBufSize)
    (hreq : Complete method path body req) (hfree : ∃ i, (z.buffers i).client = none)
    (hsettings : SettingsSound z.app.config.settings) (hpeers : ∀ i, PeerSound (z.app.config.peers i)) :
    let r := zephyrDynamicHandler w ⟨id, path, m⟩ .requestDataFinal body z
    let r' := handleRequest w req z.app
    r.response = some r'.response ∧ r.state.app = r'.app := by
  have hurl : path.take 127 = path := List.take_of_length_le hpath.length
  obtain ⟨⟨i, buffers⟩, hacq⟩ : ∃ p, zephyrAcquireBuffers id z.buffers = some p := by
    rw [← Option.ne_none_iff_exists']
    intro hnone
    obtain ⟨j, hj⟩ := hfree
    obtain ⟨k, -, hk⟩ := zephyrAcquireBuffers_none hnone j
    rw [hj] at hk
    cases hk
  dsimp only
  rw [handleRequest_complete hm hpath hreq]
  cases hm with
  | get =>
    have hget := @zephyrDynamicHandler_get w id path body z i buffers hacq hsettings fun i =>
      (hpeers i).terminated
    rw [hurl] at hget
    exact hget
  | post =>
    rcases zephyrDynamicHandler_cases w ⟨id, path, .post⟩ .requestDataFinal body z with
      ⟨-, happ, hresp⟩ | ⟨hnot, -⟩
    · rw [hurl, cstr_of_notMem hbody.1] at happ hresp
      exact ⟨hresp, happ⟩
    · exact absurd ⟨rfl, rfl, by rw [hacq]; rfl, hbody.2⟩ hnot

/-- A GET with a query after start-up, and a POST that moves the broker's port. -/
theorem zephyrDynamicHandler_refines_getAndPost :
    (let r := zephyrDynamicHandler .good ⟨0, str "/peers?all", .get⟩ .requestDataFinal [] freshZephyr
     let r' := handleRequest .good (str "GET /peers?all HTTP/1.1\r\nHost: bridge\r\n\r\n") freshApp
     r.response = some r'.response ∧ r.state.app = r'.app) ∧
    (let body := str "\x7b\"mqtt_port\":1885\x7d"
     let r := zephyrDynamicHandler .good ⟨0, str "/config", .post⟩ .requestDataFinal body freshZephyr
     let r' := handleRequest .good
       (str "POST /config HTTP/1.1\r\nContent-Length: 18\r\n\r\n\x7b\"mqtt_port\":1885\x7d") freshApp
     (r.response = some r'.response ∧ r.state.app = r'.app) ∧
       r'.app.config.settings.broker.mqttPort = 1885) := by
  have hsettings : SettingsSound freshZephyr.app.config.settings := settingsSound_default []
  constructor
  · exact zephyrDynamicHandler_refines .get
      ⟨by decide +kernel, by decide +kernel, by decide +kernel⟩
      ⟨by decide, by decide⟩ ⟨⟨str "HTTP/1.1\r\nHost: bridge\r\n\r\n", by decide⟩,
        by decide⟩ ⟨0, rfl⟩ hsettings fun _ => peerSound_zero
  · refine ⟨zephyrDynamicHandler_refines .post
      ⟨by decide +kernel, by decide +kernel, by decide +kernel⟩
      ⟨by decide, by decide⟩
      ⟨⟨str "HTTP/1.1\r\nContent-Length: 18\r\n\r\n\x7b\"mqtt_port\":1885\x7d", by decide⟩,
        by decide⟩ ⟨0, rfl⟩ hsettings fun _ => peerSound_zero, ?_⟩
    decide +kernel

end MqttFieldBridge.Http
