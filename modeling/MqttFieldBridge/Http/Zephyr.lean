import MqttFieldBridge.Http.Apply

/-! # The handler of the firmware

`zephyr_dynamic_handler` and its buffer slots. Zephyr's HTTP server calls the handler once for every
fragment of a request body it has read, and once more when the transaction ends. Its routes are those
of the table (`zephyrGet_route`, `zephyrPost_route`). -/

namespace MqttFieldBridge.Http

open MqttFieldBridge.CLib MqttFieldBridge.Config MqttFieldBridge.Runtime

abbrev reqBufSize : ℕ := 768
abbrev respBufSize : ℕ := 2304
abbrev zephyrHttpBufferSlots : ℕ := 2

inductive HttpMethod where
  | get
  | post
  | other
deriving DecidableEq

inductive HttpTransactionStatus where
  | transactionAborted
  | transactionComplete
  | requestDataMore
  | requestDataFinal
deriving DecidableEq

/-- What the handler reads of a `struct http_client_ctx`; `id` stands for its address. -/
structure HttpClient where
  id : ℕ
  urlBuffer : Text
  method : HttpMethod

/-- A buffer slot: its owner, the request and the response. -/
structure ZephyrHttpBuffers where
  client : Option ℕ
  request : CharArray reqBufSize
  response : CharArray respBufSize

/-- A slot after `memset`. -/
def ZephyrHttpBuffers.zero : ZephyrHttpBuffers := ⟨none, .zero _, .zero _⟩

/-- The state of the device and the buffer slots. -/
structure ZephyrState where
  app : App
  buffers : Fin zephyrHttpBufferSlots → ZephyrHttpBuffers

/-- The path without its query. -/
def stripQuery (path : Text) : Text := path.takeWhile (· ≠ 63)

/-- The slot that `client` owns. -/
def ownedSlot (client : Option ℕ) (buffers : Fin zephyrHttpBufferSlots → ZephyrHttpBuffers) :
    Option (Fin zephyrHttpBufferSlots) :=
  (List.finRange zephyrHttpBufferSlots).find? fun i => (buffers i).client = client

/-- The slot of `client`, which may be a free one, and the slots after it has been taken. -/
def zephyrAcquireBuffers (client : ℕ) (buffers : Fin zephyrHttpBufferSlots → ZephyrHttpBuffers) :
    Option (Fin zephyrHttpBufferSlots × (Fin zephyrHttpBufferSlots → ZephyrHttpBuffers)) :=
  match ownedSlot (some client) buffers with
  | some i => some (i, buffers)
  | none =>
    (ownedSlot none buffers).map fun i =>
      (i, Function.update buffers i
        ⟨some client, (buffers i).request.write [0], (buffers i).response.write [0]⟩)

def zephyrReleaseBuffers (client : ℕ) (buffers : Fin zephyrHttpBufferSlots → ZephyrHttpBuffers) :
    Fin zephyrHttpBufferSlots → ZephyrHttpBuffers :=
  match ownedSlot (some client) buffers with
  | some i => Function.update buffers i .zero
  | none => buffers

/-- The request buffer with a fragment copied into it, unless it is too large. -/
def zephyrCopyRequestBody (data : List Byte) (request : CharArray reqBufSize) :
    Option (CharArray reqBufSize) :=
  if data.length ≥ reqBufSize then none else some (request.write (data ++ [0]))

/-- The response buffer after a text has been printed into it, if one has. -/
def printResponse (response : CharArray respBufSize) : Option Text → CharArray respBufSize
  | none => response
  | some t => response.write (t ++ [0])

/-- What a call of the handler does: the response it sets, if any, the state it leaves, and whether
it schedules a reboot. -/
structure ZephyrResult where
  response : Option Response
  state : ZephyrState
  reboot : Bool

/-- The handler sets this response, with its slot `i` left like this. -/
def ZephyrState.respond (z : ZephyrState) (i : Fin zephyrHttpBufferSlots) (slot : ZephyrHttpBuffers)
    (r : Answer) : ZephyrResult :=
  ⟨some r.response, ⟨r.app, Function.update z.buffers i slot⟩, r.reboot⟩

/-- The GET routes of the handler; on any other path `n` stays 0. -/
def zephyrGet (w : World) (path : Text) (a : App) : Built × App :=
  if path = str "/status" then buildStatusJson w respBufSize a
  else if path = str "/config" then (buildConfigJson respBufSize a.config, a)
  else if path = str "/peers" then (buildPeersJson respBufSize a.config, a)
  else if path = str "/peer-status" then (buildPeerStatusJson w respBufSize a, a)
  else (notBuilt, a)

/-- The publish route of the handler. -/
def zephyrPublish (w : World) (body : Text) (a : App) : Answer :=
  let test := FieldBridgePublishTest.zero
  let topic := jsonGetString body (str "topic") test.topic
  let payload := jsonGetString body (str "payload") test.payload
  if topic.1 ≠ .ok ∨ payload.1 ≠ .ok then badRequest "invalid publish test" a
  else
    let retain := (jsonGetBoolish w.longBits body (str "retain")).getD test.retain
    let qos : UInt8 :=
      match (jsonFindKey body (str "qos")).bind fun p => afterChr p colon with
      | none => test.qos
      | some p =>
        let qos := strtol w.longBits p
        if qos ≥ 0 ∧ qos ≤ 2 then UInt8.ofNat qos.toNat else 3
    let r := productRuntimeRecordPublishTest ⟨topic.2, payload.2, qos, retain⟩ a.runtime
    if r.1 ≠ .ok then badRequest "invalid publish test" { a with runtime := r.2 }
    else accepted "recorded" { a with runtime := r.2 }

/-- The POST routes of the handler, which has the slot `i` and is called with a fragment. -/
def zephyrPost (w : World) (path : Text) (data : List Byte) (i : Fin zephyrHttpBufferSlots)
    (z : ZephyrState) : ZephyrResult :=
  match zephyrCopyRequestBody data (z.buffers i).request with
  | none => ⟨some ⟨400, .json (errorBody (str "request too large"))⟩, z, false⟩
  | some request =>
    let a := z.app
    let slot := { z.buffers i with request := request }
    let body := request.text
    if path = str "/config" then
      let r := applyConfigJson w body a.config
      match r.1 with
      | none => z.respond i slot (badRequest "invalid config JSON" { a with config := r.2 })
      | some rebootRequired =>
        -- the one answer that is printed into the response buffer
        let response := printResponse slot.response (some (rebootRequiredBody rebootRequired))
        z.respond i { slot with response := response }
          ⟨⟨200, .json response.text⟩, { a with config := r.2 }, false⟩
    else if peersPath <+: path then
      let r := applyPeerJson w (atoi w.longBits (path.drop 7)) body a
      if r.1 ≠ .ok then z.respond i slot (badRequest "invalid peer JSON" r.2)
      else z.respond i slot (accepted "ok" r.2)
    else if path = str "/broker/control" then
      match jsonGetBoolish w.longBits body (str "enabled") with
      | none => z.respond i slot (badRequest "invalid broker control" a)
      | some enabled =>
        let r := productRuntimeSetBrokerEnabled enabled a.runtime
        if r.1 ≠ .ok then
          z.respond i slot (badRequest "invalid broker control" { a with runtime := r.2 })
        else z.respond i slot (accepted "requested" { a with runtime := r.2 })
    else if path = str "/publish-test" then z.respond i slot (zephyrPublish w body a)
    else if path = str "/config/reset" then
      let r := productConfigResetAll w.store w.deviceId a.config
      if r.1 ≠ .ok then z.respond i slot (badRequest "reset failed" { a with config := r.2 })
      else z.respond i slot (accepted "reset" { a with config := r.2 })
    else if path = str "/reboot" then
      z.respond i slot { accepted "rebooting" a with reboot := true }
    else z.respond i slot ⟨⟨404, .json notFoundBody⟩, a, false⟩

def zephyrDynamicHandler (w : World) (client : HttpClient) (status : HttpTransactionStatus)
    (data : List Byte) (z : ZephyrState) : ZephyrResult :=
  match status with
  | .transactionAborted | .transactionComplete =>
    ⟨none, { z with buffers := zephyrReleaseBuffers client.id z.buffers }, false⟩
  | .requestDataMore => ⟨none, z, false⟩
  | .requestDataFinal =>
    let path := stripQuery (client.urlBuffer.take 127)
    if client.method = .get ∧ (path = str "/" ∨ path = str "/index.html") then
      ⟨some ⟨200, .indexHtml⟩, z, false⟩
    else
      match zephyrAcquireBuffers client.id z.buffers with
      | none => ⟨some ⟨503, .json (errorBody (str "low memory"))⟩, z, false⟩
      | some (i, buffers) =>
        let z := { z with buffers := buffers }
        match client.method with
        | .get =>
          let r := zephyrGet w path z.app
          let response := printResponse (z.buffers i).response r.1.buffer
          let z := ⟨r.2, Function.update z.buffers i { z.buffers i with response := response }⟩
          if r.1.ok then ⟨some ⟨200, .json response.text⟩, z, false⟩
          else ⟨some ⟨404, .json notFoundBody⟩, z, false⟩
        | .post => zephyrPost w path data i z
        | .other => ⟨some ⟨404, .json notFoundBody⟩, z, false⟩

/-- The device after start-up, with free buffer slots. -/
def freshZephyr : ZephyrState := ⟨freshApp, fun _ => .zero⟩

/-- A fragment that fits is read up to its first NUL. -/
theorem zephyrCopyRequestBody_text {data : List Byte} {request r : CharArray reqBufSize}
    (h : zephyrCopyRequestBody data request = some r) : r.text = cstr data := by
  unfold zephyrCopyRequestBody at h
  split_ifs at h with hlen
  obtain rfl := Option.some.inj h
  exact CharArray.text_write_cstr (not_le.mp hlen)

/-! ### Its routes -/

variable {w : World} {path body : Text} {a : App}

theorem zephyrGet_route : zephyrGet w path a = getRoute w respBufSize path a := rfl

theorem postPublishTest_of_some {test : FieldBridgePublishTest}
    (h : publishCandidate w.longBits body = some test) : postPublishTest w body a =
      if (productRuntimeRecordPublishTest test a.runtime).1 ≠ .ok then
        badRequest "invalid publish test"
          { a with runtime := (productRuntimeRecordPublishTest test a.runtime).2 }
      else accepted "recorded"
        { a with runtime := (productRuntimeRecordPublishTest test a.runtime).2 } := by
  unfold postPublishTest
  simp only [h]

theorem postPublishTest_of_none (h : publishCandidate w.longBits body = none) :
    postPublishTest w body a = badRequest "invalid publish test" a := by
  unfold postPublishTest
  simp only [h]

theorem zephyrPublish_route : zephyrPublish w body a = postPublishTest w body a := by
  by_cases hmissing : (jsonGetString body (str "topic") FieldBridgePublishTest.zero.topic).1 ≠ .ok ∨
      (jsonGetString body (str "payload") FieldBridgePublishTest.zero.payload).1 ≠ .ok
  · exact (if_pos hmissing).trans (postPublishTest_of_none (if_pos hmissing)).symm
  · exact (if_neg hmissing).trans (postPublishTest_of_some (if_neg hmissing)).symm

/-- What is printed of the one answer that is printed. -/
theorem printResponse_rebootRequired {response : CharArray respBufSize} (rebootRequired : Bool) :
    (printResponse response (some (rebootRequiredBody rebootRequired))).text =
      rebootRequiredBody rebootRequired := by
  cases rebootRequired
  · exact CharArray.text_write (by decide) (by decide)
  · exact CharArray.text_write (by decide) (by decide)

/-- The slot after a POST has been answered. -/
def slotAfterPost (path : Text) (r : Response) (slot : ZephyrHttpBuffers) : ZephyrHttpBuffers :=
  match r.body with
  | .json t =>
    if path = str "/config" ∧ r.status = 200 then
      { slot with response := printResponse slot.response (some t) }
    else slot
  | .indexHtml => slot

/-- The slot keeps its owner and its request. -/
theorem slotAfterPost_kept (path : Text) (r : Response) (slot : ZephyrHttpBuffers) : ∃ response,
    slotAfterPost path r slot = { slot with response := response } := by
  unfold slotAfterPost
  split
  · split_ifs
    · exact ⟨_, rfl⟩
    · exact ⟨_, rfl⟩
  · exact ⟨_, rfl⟩

theorem slotAfterPost_of_ne {r : Response} {slot : ZephyrHttpBuffers} (h : path ≠ str "/config") :
    slotAfterPost path r slot = slot := by
  unfold slotAfterPost
  split
  · exact if_neg fun hc => h hc.1
  · rfl

theorem slotAfterPost_badRequest {error : String} {slot : ZephyrHttpBuffers} :
    slotAfterPost path (badRequest error a).response slot = slot :=
  if_neg fun h => absurd h.2 (show (400 : ℕ) ≠ 200 by decide)

/-- **Each of its POST routes** is that of the table. -/
theorem zephyrPost_route {data : List Byte} {i : Fin zephyrHttpBufferSlots} {z : ZephyrState} :
    zephyrPost w path data i z =
      match zephyrCopyRequestBody data (z.buffers i).request with
      | none => ⟨some ⟨400, .json (errorBody (str "request too large"))⟩, z, false⟩
      | some request =>
        let r := postRoute w path request.text z.app
        z.respond i (slotAfterPost path r.response { z.buffers i with request := request }) r := by
  unfold zephyrPost
  rcases zephyrCopyRequestBody data (z.buffers i).request with _ | request
  · rfl
  dsimp only
  unfold postRoute
  by_cases hconfig : path = str "/config"
  · simp only [if_pos hconfig]
    unfold postConfig
    dsimp only
    rcases (applyConfigJson w request.text z.app.config).1 with _ | rebootRequired
    · dsimp only
      rw [slotAfterPost_badRequest]
    · dsimp only
      rw [printResponse_rebootRequired, slotAfterPost]
      dsimp only
      rw [if_pos ⟨hconfig, rfl⟩]
  simp only [if_neg hconfig, slotAfterPost_of_ne hconfig]
  by_cases hpeers : peersPath <+: path
  · simp only [if_pos hpeers]
    unfold postPeer
    dsimp only
    split_ifs
    · rfl
    · rfl
  by_cases hbroker : path = str "/broker/control"
  · simp only [if_neg hpeers, if_pos hbroker]
    unfold postBrokerControl
    rcases jsonGetBoolish w.longBits request.text (str "enabled") with _ | enabled
    · rfl
    · dsimp only
      split_ifs
      · rfl
      · rfl
  by_cases hpublish : path = str "/publish-test"
  · simp only [if_neg hpeers, if_neg hbroker, if_pos hpublish, zephyrPublish_route]
  by_cases hreset : path = str "/config/reset"
  · simp only [if_neg hpeers, if_neg hbroker, if_neg hpublish, if_pos hreset]
    unfold postConfigReset
    dsimp only
    split_ifs
    · rfl
    · rfl
  by_cases hreboot : path = str "/reboot"
  · simp only [if_neg hpeers, if_neg hbroker, if_neg hpublish, if_neg hreset, if_pos hreboot]
  · simp only [if_neg hpeers, if_neg hbroker, if_neg hpublish, if_neg hreset, if_neg hreboot]

end MqttFieldBridge.Http
