import MqttFieldBridge.Http.Send

/-! # Connections

`http_thread` accepts one connection after another and closes each when it is served. Both the request
and the JSON answer stand in static arrays, which nothing clears between two connections, and
`http_send` prints its header into an array on the stack. Whatever these hold, a client reads what
`serveOnce` answers in the state that the connections before it have left, and it does so exactly if
none of the `send` calls for it failed. -/

namespace MqttFieldBridge.Http

open MqttFieldBridge.CLib MqttFieldBridge.Config MqttFieldBridge.Runtime MqttFieldBridge.Lts

/-! ### The answers of the handler -/

/-- The page of the source, and that `%u` prints its length. -/
structure Page where
  text : Text
  length_lt : text.length < 2 ^ 32

/-- What `http_send` is called with for a body. -/
def contentType : Body → Text
  | .indexHtml => str "text/html; charset=utf-8"
  | .json _ => str "application/json"

def bodyText (page : Page) : Body → Text
  | .indexHtml => page.text
  | .json t => cstr t

def sendResponse (page : Page) (f : SendFrame) (results : List ℤ) (r : Response) : Written Byte :=
  httpSend f results r.status (contentType r.body) (bodyText page r.body)

/-- The reply that a response stands for. -/
def replyOf (page : Page) (r : Response) : Reply :=
  ⟨r.status, contentType r.body, bodyText page r.body⟩

/-- What every response of the handler keeps to. -/
structure Sendable (r : Response) : Prop where
  status : r.status < 1000
  length : ∀ t, r.body = .json t → t.length < hostRespBufSize

theorem sendable_json {status : ℕ} {t : Text} (hs : status < 1000) (ht : t.length < hostRespBufSize) :
    Sendable ⟨status, .json t⟩ :=
  ⟨hs, fun u hu => by
    rw [← Body.json.inj hu]
    exact ht⟩

theorem headerFits_contentType {r : Response} (h : Sendable r) :
    HeaderFits r.status (contentType r.body) := by
  have htypes : (str "text/html; charset=utf-8").length ≤ 64 ∧ 13 ∉ str "text/html; charset=utf-8" ∧
      (str "application/json").length ≤ 64 ∧ 13 ∉ str "application/json" := by decide
  obtain ⟨hpage, hpage', hjson, hjson'⟩ := htypes
  rcases hr : r.body with _ | t
  · exact ⟨h.status, hpage, hpage'⟩
  · exact ⟨h.status, hjson, hjson'⟩

theorem length_bodyText_lt {page : Page} {r : Response} (h : Sendable r) :
    (bodyText page r.body).length < 2 ^ 32 := by
  rcases hr : r.body with _ | t
  · exact page.length_lt
  · have ht := h.length t hr
    have hcut : (cstr t).length ≤ t.length := ( List.takeWhile_prefix _).length_le
    exact (hcut.trans_lt ht).trans (by decide)

/-- What a builder prints fits its buffer. -/
theorem length_appendPieces {cap : ℕ} : ∀ (ts : List Text) (out t : Text), out.length < cap →
    (appendPieces cap ts out).buffer = some t → t.length < cap
  | [], out, t, hout, h => by
    rw [← Option.some.inj h]
    exact hout
  | p :: ts, out, t, hout, h => by
    unfold appendPieces at h
    split_ifs at h with hfull
    · rw [← Option.some.inj h, List.length_take]
      omega
    · refine length_appendPieces ts (out ++ p) t ?_ h
      rw [List.length_append]
      omega

theorem length_printed {cap : ℕ} {t u : Text} (hcap : 0 < cap) (h : (printed cap t).buffer = some u) :
    u.length < cap := by
  rw [← Option.some.inj h, List.length_take]
  omega

/-- Some piece is always printed. -/
theorem buffer_appendPieces {cap : ℕ} : ∀ (ts : List Text) (out : Text),
    (appendPieces cap ts out).buffer ≠ none
  | [], out => Option.some_ne_none out
  | t :: ts, out => by
    unfold appendPieces
    split_ifs
    · exact Option.some_ne_none _
    · exact buffer_appendPieces ts (out ++ t)

/-- A builder that returns a positive length has printed its text, which fits. -/
structure Prints (r : Built) : Prop where
  buffer : r.ok = true → ∃ t, r.buffer = some t
  length : ∀ t, r.buffer = some t → t.length < hostRespBufSize

theorem prints_notBuilt : Prints notBuilt := ⟨fun h => (by cases h), fun t h => (by cases h)⟩

theorem prints_printed (t : Text) : Prints (printed hostRespBufSize t) :=
  ⟨fun _ => ⟨_, rfl⟩, fun _ h => length_printed (by decide) h⟩

theorem prints_appendPieces (ts : List Text) : Prints (appendPieces hostRespBufSize ts []) :=
  ⟨fun _ => Option.ne_none_iff_exists'.mp (buffer_appendPieces ts []),
    fun t h => length_appendPieces ts [] t (by decide) h⟩

variable {w : World} {path : Text} {a : App}

theorem prints_buildStatusJson : Prints (buildStatusJson w hostRespBufSize a).1 := by
  unfold buildStatusJson
  dsimp only
  split
  · exact prints_notBuilt
  · exact prints_printed _

theorem prints_buildPeerStatusJson : Prints (buildPeerStatusJson w hostRespBufSize a) := by
  unfold buildPeerStatusJson
  split
  · exact prints_notBuilt
  · exact prints_appendPieces _

theorem sendable_hostBuilt {r : Built × App} {error : String} (h : Prints r.1)
    (herror : (plainErrorBody (str error)).length < hostRespBufSize) :
    Sendable (hostBuilt r error).response := by
  unfold hostBuilt
  split_ifs with hok
  · obtain ⟨t, ht⟩ := h.buffer hok
    rw [ht]
    exact sendable_json (by decide) (h.length t ht)
  · exact sendable_json (by decide) herror

theorem sendable_hostGet : Sendable (hostGet w path a).response := by
  unfold hostGet
  split_ifs
  · exact ⟨show 200 < 1000 by decide, fun t ht => (by cases ht)⟩
  · exact sendable_hostBuilt prints_buildStatusJson (by decide)
  · exact sendable_hostBuilt (prints_printed _) (by decide)
  · exact sendable_hostBuilt (prints_appendPieces _) (by decide)
  · exact sendable_hostBuilt prints_buildPeerStatusJson (by decide)
  · exact sendable_json (by decide) (by decide)

theorem sendable_badRequest {error : String} (h : (errorBody (str error)).length < hostRespBufSize) :
    Sendable (badRequest error a).response := sendable_json (by decide) h

theorem sendable_accepted {status : String}
    (h : (statusBody (str status)).length < hostRespBufSize) :
    Sendable (accepted status a).response := sendable_json (by decide) h

theorem sendable_postRoute (w : World) (path body : Text) (a : App) :
    Sendable (postRoute w path body a).response := by
  unfold postRoute
  split_ifs
  · unfold postConfig
    dsimp only
    split
    · exact sendable_badRequest (by decide)
    · next required _ =>
      refine sendable_json (by decide) ?_
      cases required
      · decide
      · decide
  · unfold postPeer
    dsimp only
    split_ifs
    · exact sendable_badRequest (by decide)
    · exact sendable_accepted (by decide)
  · unfold postBrokerControl
    split
    · exact sendable_badRequest (by decide)
    · dsimp only
      split_ifs
      · exact sendable_badRequest (by decide)
      · exact sendable_accepted (by decide)
  · unfold postPublishTest
    split
    · exact sendable_badRequest (by decide)
    · dsimp only
      split_ifs
      · exact sendable_badRequest (by decide)
      · exact sendable_accepted (by decide)
  · unfold postConfigReset
    dsimp only
    split_ifs
    · exact sendable_badRequest (by decide)
    · exact sendable_accepted (by decide)
  · exact sendable_json (by decide) (show (statusBody (str "rebooting")).length < _ by decide)
  · exact sendable_json (by decide) (by decide)

theorem sendable_hostPost (w : World) (path body : Text) (a : App) :
    Sendable (hostPost w path body a).response := by
  rw [hostPost_route]
  exact sendable_postRoute w path body a

theorem sendable_handleRequest {req : Text} : Sendable (handleRequest w req a).response := by
  unfold handleRequest
  split
  · exact sendable_json (by decide) (by decide)
  · dsimp only
    split_ifs
    · exact sendable_hostGet
    · exact sendable_hostPost w _ _ a
    · exact sendable_json (by decide) (by decide)

/-! ### The static arrays -/

/-- `request_buf` and `response_buf`. -/
structure HttpBuffers where
  request : CharArray hostReqBufSize
  response : CharArray hostRespBufSize

/-- What `recv` and the assignment of the NUL behind it store into the request array. -/
def receive (req : CharArray hostReqBufSize) (total : ℕ) (received : List Byte) :
    CharArray hostReqBufSize := req.write (req.bytes.take total ++ (received ++ [0]))

/-- Whether `serve_once` stops: it searches the array up to its first NUL. -/
def bufferComplete (longBits : ℕ) (req : CharArray hostReqBufSize) (total : ℕ) : Bool :=
  match strstr req.text headerEnd with
  | none => false
  | some p =>
    let contentLength := strstr req.text (str "Content-Length:")
    let need := (contentLength.map fun cl => atoi longBits (cl.drop 15)).getD 0
    let header : ℤ := req.text.length - p.length + 4
    (total : ℤ) ≥ (header + need).bmod (2 ^ 32)

/-- The loop of `serve_once`, over the array and the variable `total`. -/
def recvInto (longBits : ℕ) : List (List Byte) → CharArray hostReqBufSize → ℕ →
    CharArray hostReqBufSize × ℕ
  | [], req, total => (req, total)
  | c :: cs, req, total =>
    if total ≥ hostReqBufSize - 1 then (req, total)
    else
      let received := c.take (hostReqBufSize - 1 - total)
      if received = [] then (req, total)
      else
        let req := receive req total received
        let total := total + received.length
        if bufferComplete longBits req total then (req, total) else recvInto longBits cs req total

/-- `hostBuilt` with the array that the builder has printed into. -/
def hostBuiltInto (response : CharArray hostRespBufSize) (r : Built × App) (error : String) :
    Answer × CharArray hostRespBufSize :=
  let response :=
    match r.1.buffer with
    | none => response
    | some t => response.write (t ++ [0])
  if r.1.ok then (⟨⟨200, .json response.text⟩, r.2, false⟩, response)
  else (⟨⟨400, .json (plainErrorBody (str error))⟩, r.2, false⟩, response)

/-- `hostGet` with the array that the builders print into. -/
def hostGetInto (w : World) (path : Text) (response : CharArray hostRespBufSize) (a : App) :
    Answer × CharArray hostRespBufSize :=
  if path = str "/" ∨ path = str "/index.html" then (⟨⟨200, .indexHtml⟩, a, false⟩, response)
  else if path = str "/status" then
    hostBuiltInto response (buildStatusJson w hostRespBufSize a) "status unavailable"
  else if path = str "/config" then
    hostBuiltInto response (buildConfigJson hostRespBufSize a.config, a) "config unavailable"
  else if path = str "/peers" then
    hostBuiltInto response (buildPeersJson hostRespBufSize a.config, a) "peers unavailable"
  else if path = str "/peer-status" then
    hostBuiltInto response (buildPeerStatusJson w hostRespBufSize a, a) "peer status unavailable"
  else (⟨⟨404, .json notFoundBody⟩, a, false⟩, response)

/-- `hostPost`; the answer of a stored configuration is printed into the array. -/
def hostPostInto (w : World) (path body : Text) (response : CharArray hostRespBufSize) (a : App) :
    Answer × CharArray hostRespBufSize :=
  let r := hostPost w path body a
  match r.response.body with
  | .indexHtml => (r, response)
  | .json t =>
    if path = str "/config" ∧ r.response.status = 200 then
      let response := response.write (t.take (hostRespBufSize - 1) ++ [0])
      ({ r with response := ⟨200, .json response.text⟩ }, response)
    else (r, response)

/-- `handle_request` with the static arrays. -/
def handleRequestInto (w : World) (b : HttpBuffers) (a : App) : Answer × HttpBuffers :=
  match scanRequestLine b.request.text with
  | none => (⟨⟨400, .json (plainErrorBody (str "bad request"))⟩, a, false⟩, b)
  | some (method, rawPath) =>
    let path := requestPath rawPath
    if method = str "GET" then
      let r := hostGetInto w path b.response a
      (r.1, { b with response := r.2 })
    else if method = str "POST" then
      let r := hostPostInto w path (requestBody b.request.text) b.response a
      (r.1, { b with response := r.2 })
    else (⟨⟨404, .json notFoundBody⟩, a, false⟩, b)

/-- `serve_once` with the static arrays. -/
def serveOnceInto (w : World) (chunks : List (List Byte)) (b : HttpBuffers) (a : App) :
    Answer × HttpBuffers :=
  let r := recvInto w.longBits chunks b.request 0
  handleRequestInto w { b with request := r.1.write (r.1.bytes.take r.2 ++ [0]) } a

/-! ### What the arrays held before does not matter -/

/-- The array holds what has been received, and a NUL behind it if that is not nothing. -/
structure HoldsRequest (req : CharArray hostReqBufSize) (total : ℕ) (l : List Byte) : Prop where
  length : total = l.length
  le : l.length ≤ hostReqBufSize - 1
  bytes : req.bytes.take total = l

theorem holdsRequest_zero (req : CharArray hostReqBufSize) : HoldsRequest req 0 [] :=
  ⟨rfl, Nat.zero_le _, List.take_zero⟩

theorem bytes_receive {req : CharArray hostReqBufSize} {total : ℕ} {l received : List Byte}
    (h : HoldsRequest req total l) (hle : (l ++ received).length ≤ hostReqBufSize - 1) :
    (receive req total received).bytes =
      l ++ received ++ 0 :: req.bytes.drop ((l ++ received).length + 1) := by
  have hlen : (l ++ (received ++ [0])).length = (l ++ received).length + 1 := by
    simp only [List.length_append, List.length_singleton]
    omega
  have hfits : (l ++ (received ++ [0])).length ≤ hostReqBufSize := by
    rw [hlen]
    exact Nat.succ_le_succ hle
  unfold receive
  rw [h.bytes, CharArray.bytes_write hfits, hlen]
  simp only [List.append_assoc, List.cons_append, List.nil_append]

theorem holdsRequest_receive {req : CharArray hostReqBufSize} {total : ℕ} {l received : List Byte}
    (h : HoldsRequest req total l) (hle : (l ++ received).length ≤ hostReqBufSize - 1) :
    HoldsRequest (receive req total received) (total + received.length) (l ++ received) := by
  have hlen : total + received.length = (l ++ received).length := by
    rw [h.length, List.length_append]
  refine ⟨hlen, hle, ?_⟩
  rw [bytes_receive h hle, hlen, List.take_left]

theorem text_receive {req : CharArray hostReqBufSize} {total : ℕ} {l received : List Byte}
    (h : HoldsRequest req total l) (hle : (l ++ received).length ≤ hostReqBufSize - 1) :
    (receive req total received).text = cstr (l ++ received) := by
  unfold CharArray.text
  rw [bytes_receive h hle, cstr_append_nul]

theorem bufferComplete_eq (longBits : ℕ) {req : CharArray hostReqBufSize} {l : List Byte}
    (h : req.text = cstr l) : bufferComplete longBits req l.length = requestComplete longBits l := by
  unfold bufferComplete
  rw [h]
  rfl

/-- The array holds what `recvLoop` returns. -/
theorem holdsRequest_recvInto (longBits : ℕ) : ∀ (chunks : List (List Byte))
    (req : CharArray hostReqBufSize) (total : ℕ) (l : List Byte), HoldsRequest req total l →
      HoldsRequest (recvInto longBits chunks req total).1 (recvInto longBits chunks req total).2
        (recvLoop longBits chunks l)
  | [], req, total, l, h => h
  | c :: cs, req, total, l, h => by
    have hle : (l ++ c.take (hostReqBufSize - 1 - total)).length ≤ hostReqBufSize - 1 := by
      have hl := h.le
      rw [List.length_append, List.length_take, h.length]
      omega
    have hnext := holdsRequest_receive h hle
    have hcomplete := bufferComplete_eq longBits (text_receive h hle)
    have htotal := hnext.length
    have hsame := h.length
    unfold recvInto recvLoop
    rw [← hsame]
    by_cases hfull : total ≥ hostReqBufSize - 1
    · rw [if_pos hfull, if_pos hfull]
      exact h
    · rw [if_neg hfull, if_neg hfull]
      dsimp only
      by_cases hnil : c.take (hostReqBufSize - 1 - total) = []
      · rw [if_pos hnil, if_pos hnil]
        exact h
      · rw [if_neg hnil, if_neg hnil, htotal, hcomplete]
        split_ifs
        · rw [← htotal]
          exact hnext
        · rw [← htotal]
          exact holdsRequest_recvInto longBits cs _ _ _ hnext

/-- The handler is given the request that `serveOnce` reads. -/
theorem text_request (longBits : ℕ) (chunks : List (List Byte)) (req : CharArray hostReqBufSize) :
    ((recvInto longBits chunks req 0).1.write
      ((recvInto longBits chunks req 0).1.bytes.take (recvInto longBits chunks req 0).2 ++ [0])).text =
        cstr (recvLoop longBits chunks []) := by
  have h := holdsRequest_recvInto longBits chunks req 0 [] (holdsRequest_zero req)
  rw [h.bytes, CharArray.text_write_cstr]
  exact Nat.lt_succ_of_le h.le

/-- Two responses with which `http_send` is called alike. -/
structure SameReply (r r' : Response) : Prop where
  status : r.status = r'.status
  ctype : contentType r.body = contentType r'.body
  body : ∀ page, bodyText page r.body = bodyText page r'.body

theorem SameReply.refl (r : Response) : SameReply r r := ⟨rfl, rfl, fun _ => rfl⟩

theorem sameReply_cstr {status : ℕ} {t u : Text} (h : t = cstr u) :
    SameReply ⟨status, .json t⟩ ⟨status, .json u⟩ :=
  ⟨rfl, rfl, fun _ => by
    rw [h]
    exact cstr_of_notMem (zero_notMem_cstr u)⟩

theorem hostBuiltInto_refines {r : Built × App} {error : String} (h : Prints r.1)
    (response : CharArray hostRespBufSize) :
    SameReply (hostBuiltInto response r error).1.response (hostBuilt r error).response ∧
      (hostBuiltInto response r error).1.app = (hostBuilt r error).app := by
  unfold hostBuiltInto hostBuilt
  dsimp only
  by_cases hok : r.1.ok = true
  · obtain ⟨t, ht⟩ := h.buffer hok
    rw [if_pos hok, if_pos hok, ht]
    exact ⟨sameReply_cstr (CharArray.text_write_cstr (h.length t ht)), rfl⟩
  · rw [if_neg hok, if_neg hok]
    exact ⟨SameReply.refl _, rfl⟩

theorem hostGetInto_refines (response : CharArray hostRespBufSize) :
    SameReply (hostGetInto w path response a).1.response (hostGet w path a).response ∧
      (hostGetInto w path response a).1.app = (hostGet w path a).app := by
  unfold hostGetInto hostGet
  split_ifs
  · exact ⟨SameReply.refl _, rfl⟩
  · exact hostBuiltInto_refines prints_buildStatusJson response
  · exact hostBuiltInto_refines (prints_printed _) response
  · exact hostBuiltInto_refines (prints_appendPieces _) response
  · exact hostBuiltInto_refines prints_buildPeerStatusJson response
  · exact ⟨SameReply.refl _, rfl⟩

theorem hostPostInto_refines {body : Text} (response : CharArray hostRespBufSize) :
    SameReply (hostPostInto w path body response a).1.response (hostPost w path body a).response ∧
      (hostPostInto w path body response a).1.app = (hostPost w path body a).app := by
  have hsend := sendable_hostPost w path body a
  unfold hostPostInto
  dsimp only
  rcases hb : (hostPost w path body a).response.body with _ | t
  · exact ⟨SameReply.refl _, rfl⟩
  · have ht := hsend.length t hb
    dsimp only
    split_ifs with hstored
    · refine ⟨?_, rfl⟩
      have hresponse : (hostPost w path body a).response = ⟨200, .json t⟩ := by
        rw [← hstored.2, ← hb]
      rw [hresponse]
      refine sameReply_cstr ?_
      rw [List.take_of_length_le (Nat.le_sub_one_of_lt ht)]
      exact CharArray.text_write_cstr ht
    · exact ⟨SameReply.refl _, rfl⟩

/-- **The arrays decide nothing.** -/
theorem serveOnceInto_refines (chunks : List (List Byte)) (b : HttpBuffers) :
    SameReply (serveOnceInto w chunks b a).1.response (serveOnce w chunks a).response ∧
      (serveOnceInto w chunks b a).1.app = (serveOnce w chunks a).app := by
  have htext := text_request w.longBits chunks b.request
  unfold serveOnceInto serveOnce handleRequestInto handleRequest
  dsimp only
  rw [htext]
  rcases scanRequestLine (cstr (recvLoop w.longBits chunks [])) with _ | ⟨method, rawPath⟩
  · exact ⟨SameReply.refl _, rfl⟩
  · dsimp only
    split_ifs
    · exact hostGetInto_refines b.response
    · exact hostPostInto_refines b.response
    · exact ⟨SameReply.refl _, rfl⟩

/-! ### The thread -/

/-- A connection: what its `recv` calls bring, what the outside answers while it is served, what its
`send` calls return, and the stack that `http_send` finds. -/
structure Connection where
  world : World
  chunks : List (List Byte)
  results : List ℤ
  frame : SendFrame

/-- What happens in the loop of `http_thread`: `accept` fails, or brings a connection. In between,
another thread may have left another state. -/
inductive ThreadEvent where
  | acceptFailed
  | accepted (k : Connection)
  | other (a : App)

/-- The state the thread works on. -/
structure ThreadState where
  buffers : HttpBuffers
  app : App

/-- `http_thread`: what each connection is sent, and the state that is left. -/
def httpThread (page : Page) : List ThreadEvent → ThreadState →
    List (Written Byte) × ThreadState
  | [], s => ([], s)
  | .acceptFailed :: es, s => httpThread page es s
  | .other a :: es, s => httpThread page es { s with app := a }
  | .accepted k :: es, s =>
    let r := serveOnceInto k.world k.chunks s.buffers s.app
    let later := httpThread page es ⟨r.2, r.1.app⟩
    (sendResponse page k.frame k.results r.1.response :: later.1, later.2)

/-- What the connections are answered, one after another. -/
def answers : List ThreadEvent → App → List Response × App
  | [], a => ([], a)
  | .acceptFailed :: es, a => answers es a
  | .other a :: es, _ => answers es a
  | .accepted k :: es, a =>
    let r := serveOnce k.world k.chunks a
    let later := answers es r.app
    (r.response :: later.1, later.2)

/-- How what was sent stands to an answer. -/
structure Delivers (page : Page) (sent : Written Byte) (r : Response) : Prop where
  /-- A client reads the answer exactly if no `send` failed. -/
  reads_iff : readReply sent.taken = some (replyOf page r) ↔ sent.ok = true
  /-- With the whole header and a `send` that failed, it reads nothing. -/
  cut : headerText r.status (contentType r.body) (bodyText page r.body) <+: sent.taken →
    sent.ok = false → readReply sent.taken = none

theorem sendResponse_congr {page : Page} {f : SendFrame} {results : List ℤ} {r r' : Response}
    (h : SameReply r r') : sendResponse page f results r = sendResponse page f results r' := by
  unfold sendResponse
  rw [h.status, h.ctype, h.body page]

theorem delivers_sendResponse {page : Page} {f : SendFrame} {results : List ℤ} {r : Response}
    (h : Sendable r) : Delivers page (sendResponse page f results r) r where
  reads_iff := readReply_httpSend_iff (headerFits_contentType h) (length_bodyText_lt h)
  cut := readReply_of_cut_body (headerFits_contentType h) (length_bodyText_lt h)

/-- **Each client reads what it is answered.** -/
theorem httpThread_delivers (page : Page) : ∀ (es : List ThreadEvent) (s : ThreadState),
    List.Forall₂ (Delivers page) (httpThread page es s).1 (answers es s.app).1 ∧
      (httpThread page es s).2.app = (answers es s.app).2
  | [], s => ⟨.nil, rfl⟩
  | .acceptFailed :: es, s => httpThread_delivers page es s
  | .other a :: es, s => httpThread_delivers page es { s with app := a }
  | .accepted k :: es, s => by
    obtain ⟨hreply, happ⟩ := @serveOnceInto_refines k.world s.app k.chunks s.buffers
    have hlater := httpThread_delivers page es
      ⟨(serveOnceInto k.world k.chunks s.buffers s.app).2,
        (serveOnceInto k.world k.chunks s.buffers s.app).1.app⟩
    simp only [happ] at hlater
    unfold httpThread answers
    dsimp only
    rw [sendResponse_congr hreply, happ]
    exact ⟨.cons (delivers_sendResponse sendable_handleRequest) hlater.1, hlater.2⟩

end MqttFieldBridge.Http
