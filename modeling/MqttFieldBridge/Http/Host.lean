import MqttFieldBridge.Http.Zephyr

/-! # The handler of the host build

`serve_once` collects a request from what `recv` returns, and `handle_request` answers it. It has a
chain of routes of its own, which are those of the table as well (`hostGet_route`, `hostPost_route`).
What differs from the firmware is how the request line is read, the sizes of the buffers, what a GET
answers when its text cannot be built, and that `/reboot` only answers. -/

namespace MqttFieldBridge.Http

open MqttFieldBridge.CLib MqttFieldBridge.Config MqttFieldBridge.Runtime

/-- `REQ_BUF_SIZE` and `RESP_BUF_SIZE` of the host build. -/
abbrev hostReqBufSize : ℕ := 4096
abbrev hostRespBufSize : ℕ := 8192

/-- The bytes `/`, and CR LF CR LF. -/
abbrev slash : Byte := 47
def headerEnd : Text := str "\r\n\r\n"

/-! ### The request line -/

/-- `%s` of `sscanf` with a width: the next word, cut to it, and the text that follows. -/
def scanWord (width : ℕ) (p : Text) : Option (Text × Text) :=
  let word := ((skipSpace p).takeWhile fun c => !isspace c).take width
  if word = [] then none else some (word, (skipSpace p).drop word.length)

/-- The method and the path as the request line gives it. -/
def scanRequestLine (req : Text) : Option (Text × Text) :=
  match scanWord 7 req with
  | none => none
  | some (method, rest) =>
    match scanWord 127 rest with
    | none => none
    | some (rawPath, _) => some (method, rawPath)

/-- The path without the authority of an absolute URL, and without its query. -/
def requestPath (rawPath : Text) : Text :=
  if str "http://" <+: rawPath then stripQuery ((strchr (rawPath.drop 7) slash).getD (str "/"))
  else stripQuery rawPath

/-- The text after the first empty line, if there is one. -/
def requestBody (req : Text) : Text := ((strstr req headerEnd).map fun p => p.drop 4).getD []

/-! ### The answer -/

/-- `{"error":…}` -/
def plainErrorBody (error : Text) : Text := object [stringMember (str "error") error]

/-- What a GET route sends: what its builder has printed, or its own error. -/
def hostBuilt (r : Built × App) (error : String) : Answer :=
  if r.1.ok then ⟨⟨200, .json (r.1.buffer.getD [])⟩, r.2, false⟩
  else ⟨⟨400, .json (plainErrorBody (str error))⟩, r.2, false⟩

/-- The GET routes of `handle_request`. -/
def hostGet (w : World) (path : Text) (a : App) : Answer :=
  if path = str "/" ∨ path = str "/index.html" then ⟨⟨200, .indexHtml⟩, a, false⟩
  else if path = str "/status" then
    hostBuilt (buildStatusJson w hostRespBufSize a) "status unavailable"
  else if path = str "/config" then
    hostBuilt (buildConfigJson hostRespBufSize a.config, a) "config unavailable"
  else if path = str "/peers" then
    hostBuilt (buildPeersJson hostRespBufSize a.config, a) "peers unavailable"
  else if path = str "/peer-status" then
    hostBuilt (buildPeerStatusJson w hostRespBufSize a, a) "peer status unavailable"
  else ⟨⟨404, .json notFoundBody⟩, a, false⟩

/-- The publish route of `handle_request`. -/
def hostPublish (w : World) (body : Text) (a : App) : Answer :=
  let test := FieldBridgePublishTest.zero
  let topic := jsonGetString body (str "topic") test.topic
  let payload := jsonGetString body (str "payload") test.payload
  if topic.1 ≠ .ok ∨ payload.1 ≠ .ok then badRequest "invalid publish test" a
  else
    let retain := (jsonGetBoolish w.longBits body (str "retain")).getD test.retain
    let qos : UInt8 :=
      match (jsonFindKey body (str "qos")).bind fun p => afterChr p colon with
      | none => test.qos
      | some p =>
        let qos := strtol w.longBits p
        if qos ≥ 0 ∧ qos ≤ 2 then UInt8.ofNat qos.toNat else 3
    let r := productRuntimeRecordPublishTest ⟨topic.2, payload.2, qos, retain⟩ a.runtime
    if r.1 ≠ .ok then badRequest "invalid publish test" { a with runtime := r.2 }
    else accepted "recorded" { a with runtime := r.2 }

/-- The POST routes of `handle_request`. `/reboot` only answers. -/
def hostPost (w : World) (path body : Text) (a : App) : Answer :=
  if path = str "/config" then
    let r := applyConfigJson w body a.config
    match r.1 with
    | none => badRequest "invalid config JSON" { a with config := r.2 }
    | some rebootRequired =>
      ⟨⟨200, .json (rebootRequiredBody rebootRequired)⟩, { a with config := r.2 }, false⟩
  else if peersPath <+: path then
    let r := applyPeerJson w (atoi w.longBits (path.drop 7)) body a
    if r.1 ≠ .ok then badRequest "invalid peer JSON" r.2 else accepted "ok" r.2
  else if path = str "/broker/control" then
    match jsonGetBoolish w.longBits body (str "enabled") with
    | none => badRequest "invalid broker control" a
    | some enabled =>
      let r := productRuntimeSetBrokerEnabled enabled a.runtime
      if r.1 ≠ .ok then badRequest "invalid broker control" { a with runtime := r.2 }
      else accepted "requested" { a with runtime := r.2 }
  else if path = str "/publish-test" then hostPublish w body a
  else if path = str "/config/reset" then
    let r := productConfigResetAll w.store w.deviceId a.config
    if r.1 ≠ .ok then badRequest "reset failed" { a with config := r.2 }
    else accepted "reset" { a with config := r.2 }
  else if path = str "/reboot" then accepted "rebooting" a
  else ⟨⟨404, .json notFoundBody⟩, a, false⟩

/-- `handle_request`. -/
def handleRequest (w : World) (req : Text) (a : App) : Answer :=
  match scanRequestLine req with
  | none => ⟨⟨400, .json (plainErrorBody (str "bad request"))⟩, a, false⟩
  | some (method, rawPath) =>
    let path := requestPath rawPath
    if method = str "GET" then hostGet w path a
    else if method = str "POST" then hostPost w path (requestBody req) a
    else ⟨⟨404, .json notFoundBody⟩, a, false⟩

/-! ### Its routes -/

variable {w : World} {path body : Text} {a : App}

/-- What the error of a GET route says is unavailable. -/
def getSubject (path : Text) : Option Text :=
  if path = str "/status" then some (str "status")
  else if path = str "/config" then some (str "config")
  else if path = str "/peers" then some (str "peers")
  else if path = str "/peer-status" then some (str "peer status")
  else none

/-- **Each of its GET routes** is that of the table. -/
theorem hostGet_route : hostGet w path a =
    if path = str "/" ∨ path = str "/index.html" then ⟨⟨200, .indexHtml⟩, a, false⟩
    else
      match getSubject path with
      | none => ⟨⟨404, .json notFoundBody⟩, a, false⟩
      | some subject =>
        let r := getRoute w hostRespBufSize path a
        if r.1.ok then ⟨⟨200, .json (r.1.buffer.getD [])⟩, r.2, false⟩
        else ⟨⟨400, .json (plainErrorBody (subject ++ str " unavailable"))⟩, r.2, false⟩ := by
  unfold hostGet getSubject getRoute
  by_cases hindex : path = str "/" ∨ path = str "/index.html"
  · simp only [if_pos hindex]
  by_cases hstatus : path = str "/status"
  · simp only [if_neg hindex, if_pos hstatus]
    rfl
  by_cases hconfig : path = str "/config"
  · simp only [if_neg hindex, if_neg hstatus, if_pos hconfig]
    rfl
  by_cases hpeers : path = str "/peers"
  · simp only [if_neg hindex, if_neg hstatus, if_neg hconfig, if_pos hpeers]
    rfl
  by_cases hpeerStatus : path = str "/peer-status"
  · simp only [if_neg hindex, if_neg hstatus, if_neg hconfig, if_neg hpeers, if_pos hpeerStatus]
    rfl
  · simp only [if_neg hindex, if_neg hstatus, if_neg hconfig, if_neg hpeers, if_neg hpeerStatus]

/-- The publish route is that of the firmware, word for word. -/
theorem hostPublish_route : hostPublish w body a = postPublishTest w body a := zephyrPublish_route

/-- **Each of its POST routes** is that of the table, but that it never asks for a reboot. -/
theorem hostPost_route :
    hostPost w path body a = { postRoute w path body a with reboot := false } := by
  unfold hostPost postRoute
  split_ifs
  · unfold postConfig
    dsimp only
    rcases (applyConfigJson w body a.config).1 with _ | rebootRequired
    · rfl
    · rfl
  · unfold postPeer
    dsimp only
    split_ifs
    · rfl
    · rfl
  · unfold postBrokerControl
    rcases jsonGetBoolish w.longBits body (str "enabled") with _ | enabled
    · rfl
    · dsimp only
      split_ifs
      · rfl
      · rfl
  · rw [hostPublish_route]
    unfold postPublishTest
    rcases publishCandidate w.longBits body with _ | test
    · rfl
    · dsimp only
      split_ifs
      · rfl
      · rfl
  · unfold postConfigReset
    dsimp only
    split_ifs
    · rfl
    · rfl
  · rfl
  · rfl

theorem handleRequest_route {req : Text} : handleRequest w req a =
    match scanRequestLine req with
    | none => ⟨⟨400, .json (plainErrorBody (str "bad request"))⟩, a, false⟩
    | some (method, rawPath) =>
      let path := requestPath rawPath
      if method = str "GET" then hostGet w path a
      else if method = str "POST" then
        { postRoute w path (requestBody req) a with reboot := false }
      else ⟨⟨404, .json notFoundBody⟩, a, false⟩ := by
  simp only [← hostPost_route]
  rfl

/-! ### Collecting the request -/

/-- The header is complete, and as much of the body as the first `Content-Length:` announces. The sum
is converted to an `int`. -/
def requestComplete (longBits : ℕ) (req : List Byte) : Bool :=
  match strstr (cstr req) headerEnd with
  | none => false
  | some p =>
    let contentLength := strstr (cstr req) (str "Content-Length:")
    let need := (contentLength.map fun cl => atoi longBits (cl.drop 15)).getD 0
    let header : ℤ := (cstr req).length - p.length + 4
    (req.length : ℤ) ≥ (header + need).bmod (2 ^ 32)

/-- The loop of `serve_once`: the request so far and what `recv` will return, an empty list for
nothing. -/
def recvLoop (longBits : ℕ) : List (List Byte) → List Byte → List Byte
  | [], req => req
  | c :: cs, req =>
    if req.length ≥ hostReqBufSize - 1 then req
    else
      let received := c.take (hostReqBufSize - 1 - req.length)
      if received = [] then req
      else if requestComplete longBits (req ++ received) then req ++ received
      else recvLoop longBits cs (req ++ received)

def serveOnce (w : World) (chunks : List (List Byte)) (a : App) : Answer :=
  handleRequest w (cstr (recvLoop w.longBits chunks [])) a

/-! ### A path that is cut -/

/-- The first word of a text, and what follows it. -/
def firstWord (p : Text) : Text := (skipSpace p).takeWhile fun c => !isspace c
def afterWord (p : Text) : Text := (skipSpace p).drop (firstWord p).length

/-- The path of a request, of any length. -/
def givenPath (req : Text) : Text := requestPath (firstWord (afterWord req))

theorem prefix_stripQuery {p q : Text} (h : p <+: q) : stripQuery p <+: stripQuery q := by
  obtain ⟨r, rfl⟩ := h
  unfold stripQuery
  rw [List.takeWhile_append]
  split_ifs with hall
  · have hp := ( List.takeWhile_prefix fun c : Byte => decide (c ≠ 63)).eq_of_length hall
    rw [hp]
    exact List.prefix_append p _
  · exact List.prefix_rfl

/-- The path of a cut request line is the beginning of the whole one. -/
theorem prefix_requestPath (u : Text) : requestPath (u.take 127) <+: requestPath u := by
  have hhttp : str "http://" <+: u.take 127 ↔ str "http://" <+: u := by
    constructor
    · intro h
      exact h.trans ( List.take_prefix 127 u)
    · intro h
      have hlen := h.length_le
      have hseven : (str "http://").length = 7 := by decide
      refine List.prefix_of_prefix_length_le h ( List.take_prefix 127 u) ?_
      rw [List.length_take]
      omega
  unfold requestPath
  by_cases habs : str "http://" <+: u
  · rw [if_pos habs, if_pos (hhttp.mpr habs)]
    apply prefix_stripQuery
    have hdrop : u.drop 7 = (u.take 127).drop 7 ++ u.drop 127 := by
      have hlen := (hhttp.mpr habs).length_le
      have hseven : (str "http://").length = 7 := by decide
      rw [← List.drop_append_of_le_length (by omega), List.take_append_drop]
    rw [hdrop]
    rcases hs : strchr ((u.take 127).drop 7) slash with _ | s
    · -- the cut path is `/`, with which the whole one starts
      have hslash : str "/" = [slash] := by decide
      rw [Option.getD_none, hslash]
      rcases hs' : strchr ((u.take 127).drop 7 ++ u.drop 127) slash with _ | s'
      · exact List.prefix_rfl
      · exact head_of_strchr hs'
    · rw [strchr_append_of_some hs]
      exact List.prefix_append s _
  · rw [if_neg habs, if_neg fun h => habs (hhttp.mp h)]
    exact prefix_stripQuery ( List.take_prefix 127 u)

theorem scanWord_eq_some {width : ℕ} {p word rest : Text} (h : scanWord width p = some (word, rest)) :
    word = (firstWord p).take width ∧ rest = (skipSpace p).drop word.length := by
  unfold scanWord at h
  dsimp only at h
  split_ifs at h with hempty
  rw [Option.some.injEq, Prod.mk.injEq] at h
  obtain ⟨rfl, rfl⟩ := h
  exact ⟨rfl, rfl⟩

/-- What the host reads of the request line of a POST. -/
theorem rawPath_of_post {req rawPath : Text} (h : scanRequestLine req = some (str "POST", rawPath)) :
    rawPath = (firstWord (afterWord req)).take 127 := by
  unfold scanRequestLine at h
  rcases hm : scanWord 7 req with _ | ⟨method, rest⟩
  · rw [hm] at h
    cases h
  rw [hm] at h
  dsimp only at h
  rcases hp : scanWord 127 rest with _ | ⟨path, rest'⟩
  · rw [hp] at h
    cases h
  rw [hp, Option.some.injEq, Prod.mk.injEq] at h
  obtain ⟨rfl, rfl⟩ := h
  obtain ⟨hmethod, hrest⟩ := scanWord_eq_some hm
  have hfirst : str "POST" = firstWord req := by
    -- the method is not cut, since it is shorter than the field
    have hlen := congrArg List.length hmethod
    have hfour : (str "POST").length = 4 := by decide
    rw [List.length_take, hfour] at hlen
    rw [hmethod, List.take_of_length_le (by omega)]
  rw [hfirst] at hrest
  rw [(scanWord_eq_some hp).1, hrest]
  rfl

/-! ### What the host reads fits its buffer -/

theorem length_recvLoop {longBits : ℕ} : ∀ (chunks : List (List Byte)) (req : List Byte),
    req.length ≤ hostReqBufSize - 1 →
      (recvLoop longBits chunks req).length ≤ hostReqBufSize - 1
  | [], req, h => h
  | c :: cs, req, h => by
    have hnext : (req ++ c.take (hostReqBufSize - 1 - req.length)).length ≤ hostReqBufSize - 1 := by
      rw [List.length_append, List.length_take]
      omega
    unfold recvLoop
    by_cases hfull : req.length ≥ hostReqBufSize - 1
    · rw [if_pos hfull]
      exact h
    · rw [if_neg hfull]
      dsimp only
      split_ifs
      · exact h
      · exact hnext
      · exact length_recvLoop cs _ hnext

end MqttFieldBridge.Http
