import MqttFieldBridge.Http.Refines
import MqttFieldBridge.Http.Send

/-! # Requests that a client writes

The text of a GET and of a POST with its `Content-Length:`. Both handlers answer them by the route of
their path: the host however the text is cut on its way (`serveOnce_getText`, `serveOnce_postText`), the
firmware if the body fits its buffer (`callback_post`). -/

namespace MqttFieldBridge.Http

open MqttFieldBridge.CLib MqttFieldBridge.Config MqttFieldBridge.Runtime MqttFieldBridge.Json

/-- ` HTTP/1.1` -/
def version : Text := str " HTTP/1.1"

def requestLine (method path : Text) : Text := method ++ 32 :: (path ++ version)

def getText (path : Text) : Text := requestLine (str "GET") path ++ (headerEnd ++ [])

def postText (path body : Text) : Text :=
  requestLine (str "POST") path ++
    (crlf ++ (lengthField ++ decimal body.length ++ (headerEnd ++ body)))

/-- A path that both handlers read whole, and that is no part of `Content-Length:`. -/
structure PlainPath (path : Text) : Prop where
  text : PathText path
  letter : 67 ∉ path
  nul : 0 ∉ path

variable {path body method : Text} {w : World} {a : App}

theorem noSpace_of_any {t : Text} (h : t.any isspace = false) : ∀ c ∈ t, isspace c = false :=
  fun c hc => eq_false_of_ne_true (List.any_eq_false.mp h c hc)

theorem plainPath_config : PlainPath (str "/config") :=
  ⟨⟨by decide, noSpace_of_any (by decide), by decide⟩, by decide, by decide⟩

theorem plainPath_peers : PlainPath (str "/peers") :=
  ⟨⟨by decide, noSpace_of_any (by decide), by decide⟩, by decide, by decide⟩

/-! ### The texts as the handlers see them -/

theorem cr_notMem_requestLine (hmethod : 13 ∉ method) (hpath : PathText path) :
    13 ∉ requestLine method path := by
  have hcr : (13 : Byte) ∉ path := fun h =>
    absurd (hpath.noSpace 13 h) (show ¬ isspace 13 = false by decide)
  have hversion : (13 : Byte) ∉ version := by decide
  unfold requestLine
  simp [hmethod, hcr, hversion]

/-- Where the first letter is missing there is no needle. -/
theorem passes_of_letter {c : Byte} {t l b : Text} (h : c ∉ l) : Passes (c :: t) l b := by
  rintro p q rfl hq hp
  obtain ⟨d, q, rfl⟩ := List.exists_cons_of_ne_nil hq
  have hd : c = d := (List.cons_prefix_cons.mp hp).1
  exact h (hd ▸ List.mem_append_right p List.mem_cons_self)

theorem letter_notMem_requestLine (hmethod : 67 ∉ method) (hpath : PlainPath path) :
    67 ∉ requestLine method path := by
  have hversion : (67 : Byte) ∉ version := by decide
  unfold requestLine
  simp [hmethod, hpath.letter, hversion]

theorem line_requestLine (method path r : Text) :
    ∃ rest, requestLine method path ++ r = method ++ 32 :: (path ++ 32 :: rest) := by
  refine ⟨str "HTTP/1.1" ++ r, ?_⟩
  have hversion : version = 32 :: str "HTTP/1.1" := by decide
  unfold requestLine
  rw [hversion]
  simp

theorem framed_getText (hpath : PlainPath path) :
    Framed (getText path) (requestLine (str "GET") path) [] where
  text := rfl
  first := strstr_lastLine (cr_notMem_requestLine (by decide) hpath.text)
  length := by
    refine Or.inl ⟨rfl, ?_⟩
    have hletter : 67 ∉ requestLine (str "GET") path := letter_notMem_requestLine (by decide) hpath
    have hall : 67 ∉ getText path := by
      have hend : (67 : Byte) ∉ headerEnd := by decide
      unfold getText
      simp [hletter, hend]
    have hcut : contentLength = 67 :: contentLength.tail := by decide
    have hnone := strstr_of_passes (passes_of_letter (t := contentLength.tail) (b := []) hall)
    rw [List.append_nil, ← hcut] at hnone
    exact hnone

theorem complete_getText (hpath : PlainPath path) :
    Complete (str "GET") path [] (getText path) where
  line := line_requestLine _ _ _
  body := (framed_getText hpath).first

/-- The header of a POST. -/
def postHead (path body : Text) : Text :=
  requestLine (str "POST") path ++ (crlf ++ (lengthField ++ decimal body.length))

theorem postText_eq (path body : Text) :
    postText path body = postHead path body ++ (headerEnd ++ body) := by
  unfold postText postHead
  simp

theorem first_postText (hpath : PathText path) :
    strstr (postText path body) headerEnd = some (headerEnd ++ body) := by
  have hhead : (lengthField ++ decimal body.length ++ (headerEnd ++ body)).head? ≠ some 13 := by
    have hfield : lengthField = 67 :: lengthField.tail := by decide
    rw [hfield]
    simp
  unfold postText
  rw [strstr_line (cr_notMem_requestLine (by decide) hpath) hhead]
  exact strstr_lastLine cr_notMem_lengthLine

theorem framed_postText (hpath : PlainPath path) :
    Framed (postText path body) (postHead path body) body where
  text := postText_eq path body
  first := first_postText hpath.text
  length := by
    have hfield : lengthField = contentLength ++ [32] := by decide
    refine Or.inr ⟨requestLine (str "POST") path, 32 :: decimal body.length, [], ?_,
      spellsLength_decimal body.length, ?_⟩
    · unfold postHead
      rw [hfield]
      simp
    · have hline : 67 ∉ requestLine (str "POST") path := letter_notMem_requestLine (by decide) hpath
      have hletter : 67 ∉ requestLine (str "POST") path ++ crlf := by
        have hcrlf : (67 : Byte) ∉ crlf := by decide
        simp [hline, hcrlf]
      have hcut : contentLength = 67 :: contentLength.tail := by decide
      have htext : postText path body = requestLine (str "POST") path ++ crlf ++
          (contentLength ++ (32 :: decimal body.length ++ (crlf ++ ([] ++ (crlf ++ body))))) := by
        have hend : headerEnd = crlf ++ crlf := by decide
        unfold postText
        rw [hfield, hend]
        simp
      rw [htext, hcut, strstr_of_passes (passes_of_letter hletter), ← hcut]
      exact strstr_of_prefix (List.prefix_append _ _)

theorem complete_postText (hpath : PathText path) :
    Complete (str "POST") path body (postText path body) where
  line := line_requestLine _ _ _
  body := first_postText hpath

theorem nul_notMem_postText (hpath : PlainPath path) (hbody : 0 ∉ body) : 0 ∉ postText path body := by
  have hline : (0 : Byte) ∉ requestLine (str "POST") path := by
    have hmethod : (0 : Byte) ∉ str "POST" := by decide
    have hversion : (0 : Byte) ∉ version := by decide
    unfold requestLine
    simp [hmethod, hpath.nul, hversion]
  have hparts : (0 : Byte) ∉ crlf ∧ (0 : Byte) ∉ lengthField ∧ (0 : Byte) ∉ headerEnd := by decide
  have hdigits : (0 : Byte) ∉ decimal body.length := fun h =>
    absurd (isdigit_decimal 0 h) (by decide)
  unfold postText
  simp [hline, hparts, hdigits, hbody]

theorem nul_notMem_getText (hpath : PlainPath path) : 0 ∉ getText path := by
  have hmethod : (0 : Byte) ∉ str "GET" := by decide
  have hversion : (0 : Byte) ∉ version := by decide
  have hend : (0 : Byte) ∉ headerEnd := by decide
  unfold getText requestLine
  simp [hmethod, hpath.nul, hversion, hend]

/-- A request that fits the buffer of the host. -/
theorem length_postText (path body : Text) : (postText path body).length =
    path.length + (decimal body.length).length + body.length + 36 := by
  have hparts : (str "POST").length = 4 ∧ version.length = 9 ∧ crlf.length = 2 ∧
      lengthField.length = 16 ∧ headerEnd.length = 4 := by decide
  unfold postText requestLine
  simp only [List.length_append, List.length_cons, hparts]
  omega

/-! ### The answers -/

/-- The text arrives in these pieces; whatever `recv` would return after them. -/
def ArrivesAs (req : Text) (chunks : List (List Byte)) : Prop :=
  ∃ pieces more, chunks = pieces ++ more ∧ pieces.flatten = req ∧ ∀ c ∈ pieces, c ≠ []

/-- All of a request is read. -/
theorem recvLoop_arrives {req head : Text} {chunks : List (List Byte)} (h : Framed req head body)
    (h0 : 0 ∉ req) (hlen : req.length ≤ hostReqBufSize - 1) (hchunks : ArrivesAs req chunks) :
    recvLoop w.longBits chunks [] = req := by
  obtain ⟨pieces, more, rfl, hflat, hne⟩ := hchunks
  have hreq : req ≠ [] := by
    rintro rfl
    have hsize := congrArg List.length h.text
    have hfour : headerEnd.length = 4 := rfl
    simp only [List.length_append, List.length_nil] at hsize
    omega
  exact recvLoop_chunks (fun p q => h.complete_iff h0 w.longBits_ge hlen) hlen more pieces [] hflat
    (by rw [hflat]; exact hreq) hne

theorem serveOnce_getText {chunks : List (List Byte)} (hpath : PlainPath path)
    (hchunks : ArrivesAs (getText path) chunks) :
    serveOnce w chunks a = hostGet w (stripQuery path) a := by
  have h0 := nul_notMem_getText hpath
  have hlen : (getText path).length ≤ hostReqBufSize - 1 := by
    have hpathlen := hpath.text.length
    have hparts : (str "GET").length = 3 ∧ version.length = 9 ∧ headerEnd.length = 4 := by decide
    unfold getText requestLine
    simp only [List.length_append, List.length_cons, List.length_nil, hparts, hostReqBufSize]
    omega
  unfold serveOnce
  rw [recvLoop_arrives (framed_getText hpath) h0 hlen hchunks, cstr_of_notMem h0,
    handleRequest_complete .get hpath.text (complete_getText hpath)]
  rfl

theorem serveOnce_postText {chunks : List (List Byte)} (hpath : PlainPath path) (hbody : 0 ∉ body)
    (hlen : body.length < 3900) (hchunks : ArrivesAs (postText path body) chunks) :
    serveOnce w chunks a = { postRoute w (stripQuery path) body a with reboot := false } := by
  have h0 := nul_notMem_postText hpath hbody
  have hsize : (postText path body).length ≤ hostReqBufSize - 1 := by
    have hpathlen := hpath.text.length
    have hdigits : (decimal body.length).length ≤ 4 := length_decimal_le (by decide) (by omega)
    rw [length_postText]
    simp only [hostReqBufSize]
    omega
  unfold serveOnce
  rw [recvLoop_arrives (framed_postText hpath) h0 hsize hchunks, cstr_of_notMem h0,
    handleRequest_complete .post hpath.text (complete_postText hpath.text)]
  exact if_neg nofun

/-- The firmware's handler, called with the path and the body, while the client has a buffer slot. -/
theorem callback_post {id : ℕ} {z : ZephyrState} (hpath : path.length ≤ 127) (hbody : 0 ∉ body)
    (hlen : body.length < reqBufSize) (hslot : (zephyrAcquireBuffers id z.buffers).isSome) :
    let r := zephyrDynamicHandler w ⟨id, path, .post⟩ .requestDataFinal body z
    r.response = some (postRoute w (stripQuery path) body z.app).response ∧
      r.state.app = (postRoute w (stripQuery path) body z.app).app := by
  have hurl : path.take 127 = path := List.take_of_length_le hpath
  have hcases := zephyrDynamicHandler_cases w ⟨id, path, .post⟩ .requestDataFinal body z
  rcases hcases with ⟨-, happ, hresponse⟩ | ⟨hnot, -⟩
  · rw [hurl, cstr_of_notMem hbody] at happ hresponse
    exact ⟨hresponse, happ⟩
  · exact absurd ⟨rfl, rfl, hslot, hlen⟩ hnot

end MqttFieldBridge.Http
