import MqttFieldBridge.Http.Chunks
import MqttFieldBridge.Json.Raw
import MqttFieldBridge.Lts.Writes

/-! # The answer on the wire

`http_send` prints a header into an array on its stack and sends the header and then the body, each
with `send_all`. It counts on the header to fit the array, which it does for every answer of this
program (`headerBytes_eq`). It sends the body also when the header could not be sent.

`readReply` is a client that reads what a closed connection has brought. It reads the answer exactly
if no `send` failed (`readReply_httpSend_iff`), and nothing at all of an answer whose body was cut
(`readReply_of_cut_body`). -/

namespace MqttFieldBridge.Http

open MqttFieldBridge.CLib MqttFieldBridge.Json MqttFieldBridge.Lts

/-- `reason` of `http_send`. -/
def reason (code : ℕ) : Text :=
  if code = 200 then str "OK"
  else if code = 400 then str "Bad Request"
  else if code = 405 then str "Method Not Allowed"
  else str "Not Found"

/-- The lines of the header. The length is converted to an `unsigned int`. -/
def statusLine (code : ℕ) : Text := str "HTTP/1.1 " ++ decimal code ++ str " " ++ reason code
def connectionLine : Text := str "Connection: close"
def typeField : Text := str "Content-Type: "
def lengthField : Text := str "Content-Length: "

/-- The header without its empty line. -/
def headerLines (code : ℕ) (ctype body : Text) : Text :=
  statusLine code ++ (crlf ++ (connectionLine ++ (crlf ++ (typeField ++ ctype ++
    (crlf ++ (lengthField ++ decimal (body.length % 2 ^ 32)))))))

/-- What `snprintf` prints if it has the room. -/
def headerText (code : ℕ) (ctype body : Text) : Text := headerLines code ctype body ++ headerEnd

/-- The stack that a call finds: its array for the header, and the bytes behind the array. -/
structure SendFrame where
  header : CharArray 192
  behind : List Byte

/-- The bytes sent as the header: as many as `snprintf` says, from the array on. -/
def headerBytes (f : SendFrame) (t : Text) : List Byte :=
  ((f.header.snprintf t).bytes ++ f.behind).take t.length

/-- `http_send`; `results` is what `send` returns, call after call. -/
def httpSend (f : SendFrame) (results : List ℤ) (code : ℕ) (ctype body : Text) : Written Byte :=
  let t := headerText code ctype body
  let header :=
    if 0 < t.length then writeAll results (headerBytes f t) else ⟨true, [], results⟩
  let sent :=
    if body.length ≠ 0 then writeAll header.results body else ⟨true, [], header.results⟩
  ⟨header.ok && sent.ok, header.taken ++ sent.taken, sent.results⟩

/-! ### A client -/

/-- The lines of a text: what stands between CR LF and CR LF. -/
def splitLines : Text → List Text
  | [] => [[]]
  | [c] => [[c]]
  | c :: d :: cs =>
    if c = 13 ∧ d = 10 then [] :: splitLines cs
    else
      match splitLines (d :: cs) with
      | [] => [[c]]
      | l :: ls => (c :: l) :: ls

/-- The value of the first line that starts with `name`. -/
def fieldValue (name : Text) (lines : List Text) : Option Text :=
  (lines.find? fun l => decide (name <+: l)).map fun l => l.drop name.length

/-- What a client makes of a reply. -/
structure Reply where
  status : ℕ
  ctype : Text
  body : Text
deriving DecidableEq

/-- A reply is read if it has a header that says its type and its length, and as much of a body. -/
def readReply (t : Text) : Option Reply :=
  match strstr t headerEnd with
  | none => none
  | some p =>
    let lines := splitLines (t.take (t.length - p.length))
    let body := p.drop 4
    match fieldValue (str "HTTP/1.1 ") lines, fieldValue typeField lines,
      fieldValue lengthField lines with
    | some status, some ctype, some length =>
      if numeralValue length = body.length then some ⟨numeralValue status, ctype, body⟩ else none
    | _, _, _ => none

/-! ### Lines -/

theorem splitLines_of_notMem : ∀ {l : Text}, (13 : Byte) ∉ l → splitLines l = [l]
  | [], _ => rfl
  | [c], _ => rfl
  | c :: d :: cs, h => by
    have hc : c ≠ 13 := fun e => h (e ▸ List.mem_cons_self)
    have hrest := splitLines_of_notMem fun hmem => h (List.mem_cons_of_mem c hmem)
    rw [splitLines, if_neg fun hcr => hc hcr.1, hrest]

theorem splitLines_crlf (r : Text) : splitLines (crlf ++ r) = [] :: splitLines r := by
  have hcrlf : crlf = [13, 10] := by decide
  rw [hcrlf]
  exact if_pos ⟨rfl, rfl⟩

theorem splitLines_append {r : Text} : ∀ {l : Text}, (13 : Byte) ∉ l →
    splitLines (l ++ (crlf ++ r)) = l :: splitLines r
  | [], _ => splitLines_crlf r
  | c :: l, h => by
    have hc : c ≠ 13 := fun e => h (e ▸ List.mem_cons_self)
    have hrest := @splitLines_append r l fun hmem => h (List.mem_cons_of_mem c hmem)
    obtain ⟨d, ds, hd⟩ : ∃ d ds, l ++ (crlf ++ r) = d :: ds := by
      refine List.exists_cons_of_ne_nil fun he => ?_
      have hlen := congrArg List.length he
      have htwo : crlf.length = 2 := by decide
      simp only [List.length_append, List.length_nil] at hlen
      omega
    rw [hd] at hrest
    rw [List.cons_append, hd, splitLines, if_neg fun hcr => hc hcr.1, hrest]

/-- The end of the header does not start in a line. -/
theorem passes_line {l b : Text} (h : (13 : Byte) ∉ l) : Passes headerEnd l b := by
  have hend : headerEnd = [13, 10, 13, 10] := by decide
  rintro p q rfl hq ⟨s, hs⟩
  obtain ⟨c, q, rfl⟩ := List.exists_cons_of_ne_nil hq
  rw [hend] at hs
  have hc : (13 : Byte) = c := (List.cons.inj hs).1
  exact h (hc ▸ List.mem_append_right p List.mem_cons_self)

/-- Nor does it start between two lines that are not empty. -/
theorem strstr_line {l r : Text} (h : (13 : Byte) ∉ l) (hr : r.head? ≠ some 13) :
    strstr (l ++ (crlf ++ r)) headerEnd = strstr r headerEnd := by
  have hend : headerEnd = [13, 10, 13, 10] := by decide
  have hcrlf : crlf = [13, 10] := by decide
  have hsecond : ¬ headerEnd <+: 10 :: r := by
    rintro ⟨s, hs⟩
    rw [hend] at hs
    exact absurd (List.cons.inj hs).1 (by decide)
  have hfirst : ¬ headerEnd <+: 13 :: 10 :: r := by
    rintro ⟨s, hs⟩
    rw [hend] at hs
    have htail := (List.cons.inj (List.cons.inj hs).2).2
    rw [← htail] at hr
    exact hr rfl
  rw [strstr_of_passes (passes_line h), hcrlf, List.cons_append, List.cons_append, List.nil_append,
    strstr, if_neg hfirst, strstr, if_neg hsecond]

theorem strstr_lastLine {l b : Text} (h : (13 : Byte) ∉ l) :
    strstr (l ++ (headerEnd ++ b)) headerEnd = some (headerEnd ++ b) := by
  rw [strstr_of_passes (passes_line h)]
  exact strstr_of_prefix (List.prefix_append headerEnd b)

/-! ### The header -/

variable {code n : ℕ} {ctype body t : Text}

theorem cr_notMem_decimal : (13 : Byte) ∉ decimal n := fun h =>
  absurd (isdigit_decimal 13 h) (by decide)

theorem cr_notMem_statusLine : (13 : Byte) ∉ statusLine code := by
  have hreason : (13 : Byte) ∉ reason code := by
    unfold reason
    split_ifs
    · decide
    · decide
    · decide
    · decide
  have hhttp : (13 : Byte) ∉ str "HTTP/1.1 " := by decide
  have hblank : (13 : Byte) ∉ str " " := by decide
  unfold statusLine
  simp only [List.mem_append, not_or]
  exact ⟨⟨⟨hhttp, cr_notMem_decimal⟩, hblank⟩, hreason⟩

theorem cr_notMem_typeLine (h : (13 : Byte) ∉ ctype) : (13 : Byte) ∉ typeField ++ ctype := by
  have hfield : (13 : Byte) ∉ typeField := by decide
  simp only [List.mem_append, not_or]
  exact ⟨hfield, h⟩

theorem cr_notMem_lengthLine : (13 : Byte) ∉ lengthField ++ decimal n := by
  have hfield : (13 : Byte) ∉ lengthField := by decide
  simp only [List.mem_append, not_or]
  exact ⟨hfield, cr_notMem_decimal⟩

/-- A text that starts with another byte has another beginning. -/
theorem not_prefix_of_head {a b : Text} (ha : a ≠ []) (h : a.head? ≠ b.head?) : ¬ a <+: b := by
  rintro ⟨r, rfl⟩
  rw [List.head?_append_of_ne_nil a ha] at h
  exact h rfl

theorem splitLines_headerLines (h : (13 : Byte) ∉ ctype) :
    splitLines (headerLines code ctype body) = [statusLine code, connectionLine, typeField ++ ctype,
      lengthField ++ decimal (body.length % 2 ^ 32)] := by
  have hconnection : (13 : Byte) ∉ connectionLine := by decide
  unfold headerLines
  rw [splitLines_append cr_notMem_statusLine, splitLines_append hconnection,
    splitLines_append (cr_notMem_typeLine h), splitLines_of_notMem cr_notMem_lengthLine]

/-- The empty line behind the header is the first one. -/
theorem strstr_headerLines (h : (13 : Byte) ∉ ctype) :
    strstr (headerLines code ctype body ++ (headerEnd ++ t)) headerEnd = some (headerEnd ++ t) := by
  have hconnection : (13 : Byte) ∉ connectionLine := by decide
  have hhead : ∀ r : Text, (connectionLine ++ r).head? ≠ some 13 ∧
      (typeField ++ ctype ++ r).head? ≠ some 13 ∧
      (lengthField ++ decimal (body.length % 2 ^ 32) ++ r).head? ≠ some 13 := by
    intro r
    have hc : connectionLine.head? = some 67 ∧ connectionLine ≠ [] := by decide
    have ht : typeField.head? = some 67 ∧ typeField ≠ [] := by decide
    have hl : lengthField.head? = some 67 ∧ lengthField ≠ [] := by decide
    rw [List.append_assoc, List.append_assoc, List.head?_append_of_ne_nil _ hc.2, hc.1,
      List.head?_append_of_ne_nil _ ht.2, ht.1, List.head?_append_of_ne_nil _ hl.2, hl.1]
    decide
  unfold headerLines
  simp only [List.append_assoc]
  rw [strstr_line cr_notMem_statusLine (hhead _).1, strstr_line hconnection]
  · rw [← List.append_assoc typeField, strstr_line (cr_notMem_typeLine h)]
    · rw [← List.append_assoc lengthField]
      exact strstr_lastLine cr_notMem_lengthLine
    · rw [← List.append_assoc lengthField]
      exact (hhead _).2.2
  · rw [← List.append_assoc typeField]
    exact (hhead _).2.1

/-! ### Reading it -/

theorem fieldValue_of_pos {name l : Text} {ls : List Text} (h : name <+: l) :
    fieldValue name (l :: ls) = some (l.drop name.length) := by
  unfold fieldValue
  rw [List.find?_cons_of_pos (by simpa using h), Option.map_some]

theorem fieldValue_of_neg {name l : Text} {ls : List Text} (h : ¬ name <+: l) :
    fieldValue name (l :: ls) = fieldValue name ls := by
  unfold fieldValue
  rw [List.find?_cons_of_neg (by simpa using h)]

theorem fields_headerLines (code : ℕ) (body : Text) (h : (13 : Byte) ∉ ctype) :
    fieldValue (str "HTTP/1.1 ") (splitLines (headerLines code ctype body)) =
        some (decimal code ++ (str " " ++ reason code)) ∧
      fieldValue typeField (splitLines (headerLines code ctype body)) = some ctype ∧
      fieldValue lengthField (splitLines (headerLines code ctype body)) =
        some (decimal (body.length % 2 ^ 32)) := by
  have hstatus : statusLine code = str "HTTP/1.1 " ++ (decimal code ++ (str " " ++ reason code)) := by
    unfold statusLine
    simp only [List.append_assoc]
  have hhead : (statusLine code).head? = some 72 := by
    rw [hstatus, List.head?_append_of_ne_nil _ (by decide)]
    decide
  have htype : ¬ typeField <+: statusLine code :=
    not_prefix_of_head (by decide) (by rw [hhead]; decide)
  have hlength : ¬ lengthField <+: statusLine code :=
    not_prefix_of_head (by decide) (by rw [hhead]; decide)
  have hconnection : ¬ typeField <+: connectionLine ∧ ¬ lengthField <+: connectionLine := by decide
  have hother : ¬ lengthField <+: typeField ++ ctype := by
    rintro ⟨r, hr⟩
    have htake := congrArg (List.take 14) hr
    have hfour : typeField.length = 14 ∧ lengthField.length = 16 := by decide
    rw [List.take_append_of_le_length (by omega), List.take_append_of_le_length (by omega)] at htake
    exact absurd htake (by decide)
  rw [splitLines_headerLines h]
  refine ⟨?_, ?_, ?_⟩
  · rw [fieldValue_of_pos (hstatus ▸ List.prefix_append _ _), hstatus, List.drop_left]
  · rw [fieldValue_of_neg htype, fieldValue_of_neg hconnection.1,
      fieldValue_of_pos (List.prefix_append _ _), List.drop_left]
  · rw [fieldValue_of_neg hlength, fieldValue_of_neg hconnection.2, fieldValue_of_neg hother,
      fieldValue_of_pos (List.prefix_append _ _), List.drop_left]

theorem numeralValue_status : numeralValue (decimal code ++ (str " " ++ reason code)) = code := by
  refine readDigits_decimal fun c hc => ?_
  have hblank : str " " = [32] := by decide
  rw [hblank] at hc
  have h32 : (32 : Byte) = c := Option.some.inj hc
  rw [← h32]
  decide

/-- A client that has the header reads the reply if it has as much of a body as announced. -/
theorem readReply_header (h : (13 : Byte) ∉ ctype) :
    readReply (headerLines code ctype body ++ (headerEnd ++ t)) =
      if body.length % 2 ^ 32 = t.length then some ⟨code, ctype, t⟩ else none := by
  obtain ⟨hstatus, htype, hlength⟩ := fields_headerLines code body h
  have hcut : (headerLines code ctype body ++ (headerEnd ++ t)).take
      ((headerLines code ctype body ++ (headerEnd ++ t)).length - (headerEnd ++ t).length) =
        headerLines code ctype body := by
    rw [List.length_append, Nat.add_sub_cancel, List.take_left]
  have hfour : headerEnd.length = 4 := by decide
  have hbody : (headerEnd ++ t).drop 4 = t := by rw [← hfour, List.drop_left]
  unfold readReply
  rw [strstr_headerLines h]
  dsimp only
  rw [hcut, hbody, hstatus, htype, hlength]
  dsimp only
  rw [numeralValue_decimal, numeralValue_status]

/-- What was read stands behind the first empty line. -/
theorem body_of_readReply {r : Reply} (h : readReply t = some r) :
    strstr t headerEnd = some (headerEnd ++ r.body) := by
  unfold readReply at h
  rcases hp : strstr t headerEnd with _ | p
  · rw [hp] at h
    cases h
  obtain ⟨u, rfl⟩ := prefix_of_strstr hp
  have hfour : headerEnd.length = 4 := by decide
  have hbody : (headerEnd ++ u).drop 4 = u := by rw [← hfour, List.drop_left]
  rw [hp] at h
  dsimp only at h
  rw [hbody] at h
  split at h
  · split_ifs at h
    rw [← Option.some.inj h]
  · cases h

/-! ### The header fits -/

/-- The codes and the types that fit the array for the header. -/
structure HeaderFits (code : ℕ) (ctype : Text) : Prop where
  code : code < 1000
  length : ctype.length ≤ 64
  line : (13 : Byte) ∉ ctype

theorem length_headerText_lt (h : HeaderFits code ctype) :
    (headerText code ctype body).length < 192 := by
  have hcode : (decimal code).length ≤ 3 := length_decimal_le (by decide) h.code
  have hbody : (decimal (body.length % 2 ^ 32)).length ≤ 10 := by
    refine length_decimal_le (by decide) ?_
    have := Nat.mod_lt body.length (show 0 < 2 ^ 32 by decide)
    omega
  have hreason : (reason code).length ≤ 18 := by
    unfold reason
    split_ifs
    · decide
    · decide
    · decide
    · decide
  have hfixed : (str "HTTP/1.1 ").length = 9 ∧ (str " ").length = 1 ∧ crlf.length = 2 ∧
      connectionLine.length = 17 ∧ typeField.length = 14 ∧ lengthField.length = 16 ∧
      headerEnd.length = 4 := by decide
  have htype := h.length
  unfold headerText headerLines statusLine
  simp only [List.length_append]
  omega

/-- **What is sent as the header is the header.** -/
theorem headerBytes_eq {f : SendFrame} (h : t.length < 192) : headerBytes f t = t := by
  unfold headerBytes CharArray.snprintf
  rw [List.take_of_length_le (show t.length ≤ 192 - 1 by omega),
    CharArray.bytes_write (by rw [List.length_append, List.length_singleton]; omega),
    List.append_assoc, List.append_assoc, List.take_left]

/-! ### What the client gets -/

variable {f : SendFrame} {results : List ℤ}

/-- A beginning of the header and then a beginning of the body, both whole exactly if no `send`
failed. -/
theorem httpSend_parts (f : SendFrame) (results : List ℤ) (body : Text)
    (h : HeaderFits code ctype) : ∃ p q,
    (httpSend f results code ctype body).taken = p ++ q ∧ p <+: headerText code ctype body ∧
      q <+: body ∧ ((httpSend f results code ctype body).ok = true ↔
        p = headerText code ctype body ∧ q = body) := by
  have hpos : 0 < (headerText code ctype body).length := by
    unfold headerText
    have hend : headerEnd.length = 4 := by decide
    rw [List.length_append]
    omega
  have hbody : (if body.length ≠ 0
        then writeAll (writeAll results (headerText code ctype body)).results body
        else ⟨true, [], (writeAll results (headerText code ctype body)).results⟩) =
      writeAll (writeAll results (headerText code ctype body)).results body := by
    split_ifs with hlen
    · rfl
    · rw [List.length_eq_zero_iff.mp (not_not.mp hlen), writeAll_nil]
  unfold httpSend
  dsimp only
  rw [if_pos hpos, headerBytes_eq (length_headerText_lt h), hbody, Bool.and_eq_true, ok_iff_taken,
    ok_iff_taken]
  exact ⟨_, _, rfl, taken_prefix _ _, taken_prefix _ _, Iff.rfl⟩

/-- **The client reads the answer exactly if no `send` failed.** -/
theorem readReply_httpSend_iff (h : HeaderFits code ctype) (hbody : body.length < 2 ^ 32) :
    readReply (httpSend f results code ctype body).taken = some ⟨code, ctype, body⟩ ↔
      (httpSend f results code ctype body).ok = true := by
  obtain ⟨p, q, htaken, hp, hq, hok⟩ := httpSend_parts f results body h
  rw [htaken, hok]
  constructor
  · intro hread
    have hfound := body_of_readReply hread
    -- the body is no shorter than what came behind the header, so the empty line is the header's
    obtain ⟨r, -, hr⟩ := strstr_of_append (by decide) hfound (by
      rw [List.length_append]
      exact Nat.add_le_add_left hq.length_le _)
    obtain ⟨p', hp'⟩ := hp
    have hwhole : headerText code ctype body = headerLines code ctype body ++ (headerEnd ++ []) := by
      rw [List.append_nil]
      rfl
    obtain ⟨part, hpart, hnil⟩ := part_of_headerEnd hwhole
      (hwhole ▸ strstr_headerLines (t := []) h.line) hp'.symm hr
    obtain ⟨rfl, rfl⟩ := List.append_eq_nil_iff.mp hnil.symm
    rw [← hwhole] at hpart
    subst hpart
    have hlines : headerText code ctype body ++ q = headerLines code ctype body ++ (headerEnd ++ q) :=
      List.append_assoc _ _ _
    rw [hlines, readReply_header h.line] at hread
    split_ifs at hread
    exact ⟨rfl, congrArg Reply.body (Option.some.inj hread)⟩
  · rintro ⟨rfl, rfl⟩
    have hlines : headerText code ctype q ++ q = headerLines code ctype q ++ (headerEnd ++ q) :=
      List.append_assoc _ _ _
    rw [hlines, readReply_header h.line, if_pos (Nat.mod_eq_of_lt hbody)]

/-- **Nothing is read of an answer whose body was cut.** -/
theorem readReply_of_cut_body (h : HeaderFits code ctype) (hbody : body.length < 2 ^ 32)
    (hheader : headerText code ctype body <+: (httpSend f results code ctype body).taken)
    (hok : (httpSend f results code ctype body).ok = false) :
    readReply (httpSend f results code ctype body).taken = none := by
  obtain ⟨p, q, htaken, hp, hq, hiff⟩ := httpSend_parts f results body h
  obtain ⟨u, hu⟩ := hheader
  have hshort : u.length < body.length := by
    have hlen := congrArg List.length (hu.trans htaken)
    rw [List.length_append, List.length_append] at hlen
    have hple := hp.length_le
    have hqle := hq.length_le
    by_contra hle
    have hpeq := hp.eq_of_length (by omega)
    have hqeq := hq.eq_of_length (by omega)
    rw [hiff.mpr ⟨hpeq, hqeq⟩] at hok
    cases hok
  have hlines : headerText code ctype body ++ u = headerLines code ctype body ++ (headerEnd ++ u) :=
    List.append_assoc _ _ _
  rw [← hu, hlines, readReply_header h.line, if_neg]
  rw [Nat.mod_eq_of_lt hbody]
  omega

end MqttFieldBridge.Http
