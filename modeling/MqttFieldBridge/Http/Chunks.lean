import MqttFieldBridge.CLib.Decimal
import MqttFieldBridge.Http.Host

/-! # A request that arrives in pieces

`serve_once` looks at what it has received after every `recv`, and stops when the header is complete
and the announced number of body bytes is there. A request that announces its length is complete as
a whole and at no earlier point (`requestComplete_framed`), so however the stream is cut, all of it is
read and nothing behind it is waited for: `serveOnce_chunks`. -/

namespace MqttFieldBridge.Http

open MqttFieldBridge.CLib MqttFieldBridge.Config MqttFieldBridge.Runtime

/-- The header that `serve_once` looks for, and the end of a line. -/
def contentLength : Text := str "Content-Length:"
def crlf : Text := str "\r\n"

/-- A header value that spells `n`: a numeral, with spaces and tabs around it. -/
def SpellsLength (n : ℕ) (value : Text) : Prop :=
  ∃ before digits after, value = before ++ (digits ++ after) ∧ (∀ b ∈ before, b = 32 ∨ b = 9) ∧
    Numeral digits ∧ numeralValue digits = n ∧ ∀ b ∈ after, b = 32 ∨ b = 9

/-- The first `Content-Length:` of the request is a header, and announces the body. -/
def AnnouncesBody (req head body : Text) : Prop :=
  ∃ lines value later,
    head ++ crlf = lines ++ (crlf ++ (contentLength ++ (value ++ (crlf ++ later)))) ∧
    SpellsLength body.length value ∧
    strstr req contentLength = some (contentLength ++ (value ++ (crlf ++ (later ++ (crlf ++ body)))))

/-- A request with these header lines and this body, which says how long it is. -/
structure Framed (req head body : Text) : Prop where
  text : req = head ++ (headerEnd ++ body)
  first : strstr req headerEnd = some (headerEnd ++ body)
  length : (body = [] ∧ strstr req contentLength = none) ∨ AnnouncesBody req head body

/-! ### The number in the header -/

theorem isspace_blank {b : Byte} (h : b = 32 ∨ b = 9) : isspace b = true := by
  rcases h with rfl | rfl
  · decide
  · decide

/-- `atoi` reads the number that the header spells. -/
theorem atoi_value {bits n : ℕ} {value : Text} (h : SpellsLength n value) (hbits : 32 ≤ bits)
    (hn : n < 2 ^ 31) (r : Text) : atoi bits (value ++ (crlf ++ r)) = n := by
  obtain ⟨before, digits, after, rfl, hbefore, hdigits, rfl, hafter⟩ := h
  have hend : NoDigit (after ++ (crlf ++ r)) := by
    intro c hc
    rcases after with _ | ⟨b, after⟩
    · have hcr : c = 13 := (Option.some.inj hc).symm
      rw [hcr]
      decide
    · have hb : c = b := (Option.some.inj hc).symm
      rcases hafter b List.mem_cons_self with h | h
      · rw [hb, h]
        decide
      · rw [hb, h]
        decide
  rw [List.append_assoc, List.append_assoc, atoi_blanks fun b hb => isspace_blank (hbefore b hb)]
  exact atoi_numeral hdigits hend hbits hn

/-- A blank and the digits that `printf` writes. -/
theorem spellsLength_decimal (n : ℕ) : SpellsLength n (32 :: decimal n) := by
  refine ⟨[32], decimal n, [], ?_, ?_, numeral_decimal, numeralValue_decimal, ?_⟩
  · rw [List.append_nil, List.singleton_append]
  · intro b hb
    exact Or.inl (List.mem_singleton.mp hb)
  · intro b hb
    exact absurd hb List.not_mem_nil

/-! ### When a part of the request is complete -/

variable {req head body : Text} {longBits : ℕ}

/-- A part that has the end of the header has the whole header, and a part of the body. -/
theorem part_of_headerEnd (htext : req = head ++ (headerEnd ++ body))
    (hfirst : strstr req headerEnd = some (headerEnd ++ body)) {p q r : Text} (hreq : req = p ++ q)
    (hr : strstr p headerEnd = some r) :
    ∃ part, p = head ++ (headerEnd ++ part) ∧ body = part ++ q := by
  have hfound : strstr req headerEnd = some (r ++ q) := hreq ▸ strstr_append_of_some hr
  rw [hfirst, Option.some.injEq] at hfound
  obtain ⟨part, rfl⟩ := prefix_of_strstr hr
  rw [List.append_assoc, List.append_cancel_left_eq] at hfound
  refine ⟨part, ?_, hfound⟩
  rw [hreq, hfound, ← List.append_assoc, ← List.append_assoc, List.append_cancel_right_eq] at htext
  rw [htext, List.append_assoc]

/-- A request whose body is cut. -/
theorem cut_body (htext : req = head ++ (headerEnd ++ body)) {part q : Text}
    (hbody : body = part ++ q) : req = (head ++ (headerEnd ++ part)) ++ q := by
  rw [htext, hbody]
  simp only [List.append_assoc]

/-- The end of the header is found in every part of the request that has it. -/
theorem strstr_headerEnd (htext : req = head ++ (headerEnd ++ body))
    (hfirst : strstr req headerEnd = some (headerEnd ++ body)) {part q : Text}
    (hbody : body = part ++ q) :
    strstr (head ++ (headerEnd ++ part)) headerEnd = some (headerEnd ++ part) := by
  rw [cut_body htext hbody] at hfirst
  obtain ⟨r, hr, hp⟩ := strstr_of_append (by decide) hfirst (by
    rw [hbody]
    simp only [List.length_append]
    omega)
  rw [hbody, ← List.append_assoc] at hr
  rw [hp, ← List.append_cancel_right hr]

/-- The number that is read in a part with the whole header. -/
theorem Framed.need (h : Framed req head body) (hbits : 32 ≤ longBits) (hsmall : body.length < 2 ^ 31)
    {part q : Text} (hbody : body = part ++ q) :
    ((strstr (head ++ (headerEnd ++ part)) contentLength).map
      fun cl => atoi longBits (cl.drop 15)).getD 0 = body.length := by
  have hreq := cut_body h.text hbody
  have hne : contentLength ≠ [] := by decide
  rcases h.length with ⟨hnil, hnone⟩ | ⟨lines, value, later, -, hvalue, hsome⟩
  · have hpart : strstr (head ++ (headerEnd ++ part)) contentLength = none := by
      rcases hp : strstr (head ++ (headerEnd ++ part)) contentLength with _ | r
      · rfl
      · have hfound : strstr req contentLength = some (r ++ q) := hreq ▸ strstr_append_of_some hp
        rw [hnone] at hfound
        cases hfound
    rw [hpart, hnil]
    rfl
  · have hcut := hsome
    rw [hreq] at hcut
    obtain ⟨r, hr, hp⟩ := strstr_of_append hne hcut (by
      rw [hbody]
      simp only [List.length_append]
      omega)
    have hr' : r = contentLength ++ (value ++ (crlf ++ (later ++ (crlf ++ part)))) := by
      rw [hbody] at hr
      simp only [← List.append_assoc] at hr ⊢
      exact (List.append_cancel_right hr).symm
    rw [hp, hr']
    exact atoi_value hvalue hbits hsmall _

/-- A part with the whole header is complete if it has the whole body. -/
theorem requestComplete_framed (h : Framed req head body) (h0 : 0 ∉ req) (hbits : 32 ≤ longBits)
    (hlen : req.length ≤ hostReqBufSize - 1) {part q : Text} (hbody : body = part ++ q) :
    requestComplete longBits (head ++ (headerEnd ++ part)) = decide (q = []) := by
  have hsize : req.length = head.length + 4 + body.length := by
    rw [h.text, List.length_append, List.length_append]
    have hfour : headerEnd.length = 4 := rfl
    omega
  have hzero : (0 : Byte) ∉ head ++ (headerEnd ++ part) := fun hmem =>
    h0 (cut_body h.text hbody ▸ List.mem_append_left q hmem)
  have hcap : hostReqBufSize - 1 = 4095 := rfl
  have hend := strstr_headerEnd h.text h.first hbody
  have hneed := h.need hbits (by omega) hbody
  unfold requestComplete
  rw [cstr_of_notMem hzero, hend, show str "Content-Length:" = contentLength from rfl]
  dsimp only
  rw [hneed]
  have hpart : body.length = part.length + q.length := by
    rw [hbody, List.length_append]
  have hhead : ((head ++ (headerEnd ++ part)).length : ℤ) - ((headerEnd ++ part).length : ℤ) + 4 +
      body.length = head.length + 4 + body.length := by
    rw [List.length_append]
    push_cast
    omega
  have hmod : ((head.length : ℤ) + 4 + body.length).bmod (2 ^ 32) =
      head.length + 4 + body.length := by
    refine Int.bmod_eq_of_le ?_ ?_
    · omega
    · omega
  rw [hhead, hmod, decide_eq_decide, List.length_append, List.length_append]
  have hfour : headerEnd.length = 4 := rfl
  rw [← List.length_eq_zero_iff]
  push_cast
  omega

/-- The request is complete, and no part of it is. -/
theorem Framed.complete_iff (h : Framed req head body) (h0 : 0 ∉ req) (hbits : 32 ≤ longBits)
    (hlen : req.length ≤ hostReqBufSize - 1) {p q : Text} (hreq : req = p ++ q) :
    requestComplete longBits p = true ↔ q = [] := by
  have hzero : (0 : Byte) ∉ p := fun hmem => h0 (hreq ▸ List.mem_append_left q hmem)
  rcases hp : strstr p headerEnd with _ | r
  · have hnot : requestComplete longBits p = false := by
      unfold requestComplete
      rw [cstr_of_notMem hzero, hp]
    rw [hnot]
    refine iff_of_false Bool.false_ne_true ?_
    rintro rfl
    rw [List.append_nil] at hreq
    rw [← hreq, h.first] at hp
    cases hp
  · obtain ⟨part, rfl, hbody⟩ := part_of_headerEnd h.text h.first hreq hp
    rw [requestComplete_framed h h0 hbits hlen hbody, decide_eq_true_eq]

/-! ### The loop -/

/-- A loop that is handed the request in pieces reads all of it, and no more. -/
theorem recvLoop_chunks (hcomplete : ∀ p q : Text, req = p ++ q →
      (requestComplete longBits p = true ↔ q = []))
    (hlen : req.length ≤ hostReqBufSize - 1) (more : List (List Byte)) :
    ∀ (chunks : List (List Byte)) (p : Text), p ++ chunks.flatten = req → chunks.flatten ≠ [] →
      (∀ c ∈ chunks, c ≠ []) → recvLoop longBits (chunks ++ more) p = req
  | [], p, hreq, hrest, hne => absurd rfl hrest
  | c :: cs, p, hreq, hrest, hne => by
    have hc : c ≠ [] := hne c List.mem_cons_self
    have hpos := List.length_pos_iff.mpr hc
    rw [List.flatten_cons] at hreq
    have hsize : p.length + (c.length + cs.flatten.length) = req.length := by
      rw [← hreq, List.length_append, List.length_append]
    have hroom : ¬ p.length ≥ hostReqBufSize - 1 := by omega
    have htake : c.take (hostReqBufSize - 1 - p.length) = c := List.take_of_length_le (by omega)
    have hiff := hcomplete (p ++ c) cs.flatten (by rw [List.append_assoc]; exact hreq.symm)
    rw [List.cons_append, recvLoop, if_neg hroom]
    dsimp only
    rw [htake, if_neg hc]
    by_cases hdone : cs.flatten = []
    · rw [if_pos (hiff.mpr hdone), ← hreq, hdone, List.append_nil]
    · rw [if_neg (mt hiff.mp hdone)]
      exact recvLoop_chunks hcomplete hlen more cs (p ++ c) (by rw [List.append_assoc]; exact hreq)
        hdone fun d hd => hne d (List.mem_cons_of_mem c hd)

/-- **The way a stream is cut is not seen.** A request that says how long it is, in any pieces and
whatever `recv` would return after them, is handled once, as a whole. -/
theorem serveOnce_chunks (w : World) (a : App) (req head body : Text) (h : Framed req head body)
    (h0 : 0 ∉ req) (hlen : req.length ≤ hostReqBufSize - 1) (chunks : List (List Byte))
    (hchunks : chunks.flatten = req) (hne : ∀ c ∈ chunks, c ≠ []) (more : List (List Byte)) :
    recvLoop w.longBits (chunks ++ more) [] = req ∧
      serveOnce w (chunks ++ more) a = handleRequest w req a := by
  have hreq : req ≠ [] := by
    rintro rfl
    have htext := congrArg List.length h.text
    have hfour : headerEnd.length = 4 := rfl
    rw [List.length_append, List.length_append, List.length_nil] at htext
    omega
  have hread : recvLoop w.longBits (chunks ++ more) [] = req :=
    recvLoop_chunks (fun p q => h.complete_iff h0 w.longBits_ge hlen) hlen more chunks [] hchunks
      (by rw [hchunks]; exact hreq) hne
  refine ⟨hread, ?_⟩
  unfold serveOnce
  rw [hread, cstr_of_notMem h0]

/-- A POST with two bytes of body, in pieces that cut the end of the header. -/
def smallPost : Text := str "POST /config HTTP/1.1\r\nContent-Length: 2\r\n\r\n\x7b\x7d"

theorem framed_smallPost :
    Framed smallPost (str "POST /config HTTP/1.1\r\nContent-Length: 2") (str "\x7b\x7d") where
  text := by decide
  first := by decide
  length := by
    refine Or.inr ⟨str "POST /config HTTP/1.1", str " 2", [], by decide, ?_, by decide⟩
    have hprinted : str " 2" = 32 :: decimal 2 := by decide
    rw [hprinted]
    exact spellsLength_decimal 2

theorem serveOnce_chunks_smallPost :
    [smallPost.take 42, smallPost.drop 42].flatten = smallPost ∧
      recvLoop 32 ([smallPost.take 42, smallPost.drop 42] ++ [str "GET"]) [] = smallPost :=
  have hcut : [smallPost.take 42, smallPost.drop 42].flatten = smallPost := by decide
  ⟨hcut, (serveOnce_chunks .good freshApp smallPost _ _ framed_smallPost (by decide) (by decide) _ hcut
    (by decide) [str "GET"]).1⟩

end MqttFieldBridge.Http
