import MqttFieldBridge.Http.Chunks
import MqttFieldBridge.Http.Frame

/-! # Requests of which a part is missing

After a timeout, at the end of the stream or with the buffer full, `serve_once` hands on what it has
received, without a word that something is missing, and `handle_request` takes the part of the body
for the body. So an incomplete POST does nothing exactly if what is decoded of the part is refused or
was there before (`Inert`): `serveOnce_incomplete_iff`. -/

namespace MqttFieldBridge.Http

open MqttFieldBridge.CLib MqttFieldBridge.Config MqttFieldBridge.Runtime

/-! ### When a POST changes nothing -/

/-- The test is refused by `product_runtime_record_publish_test`. -/
def PublishRefused (t : FieldBridgePublishTest) : Prop :=
  t.topic.first = 0 ∨ t.payload.first = 0 ∨ t.qos > 2 ∨ t.retain > 1

/-- What the route decodes of the body is refused by its validator, or is what the state holds. -/
def Inert (w : World) (path body : Text) (a : App) : Prop :=
  if path = str "/config" then
    ∀ n, configCandidate w.longBits body a.config.settings = some n →
      n = a.config.settings ∨ ¬ SettingsValid n
  else if peersPath <+: path then
    ∀ i, peerIndex (pathIndex w path) = some i →
      peerCandidate w.longBits body (a.config.peers i) = a.config.peers i ∨
        ¬ PeerValid (peerCandidate w.longBits body (a.config.peers i))
  else if path = str "/broker/control" then
    ∀ v, jsonGetBoolish w.longBits body (str "enabled") = some v →
      a.runtime.runtimeStatus.brokerState =
        copyStr (if v ≠ 0 then str "requested" else str "stopped")
  else if path = str "/publish-test" then
    ∀ t, publishCandidate w.longBits body = some t → t = a.runtime.lastPublish ∨ PublishRefused t
  else if path = str "/config/reset" then
    a.config.settings = defaultSettings w.deviceId ∧ a.config.peers = fun _ => .zero
  else True

variable {w : World} {path body : Text} {a : App}

theorem postConfig_kept_iff : Kept a (postConfig w body a).app ↔
    ∀ n, configCandidate w.longBits body a.config.settings = some n →
      n = a.config.settings ∨ ¬ SettingsValid n := by
  rw [postConfig_eq]
  rcases configCandidate w.longBits body a.config.settings with _ | n
  · exact iff_of_true (Kept.refl a) fun n h => absurd h.symm (Option.some_ne_none n)
  simp only [Option.some.injEq, forall_eq']
  by_cases hsame : n = a.config.settings
  · rw [hsame, actConfig_of_same]
    exact iff_of_true (Kept.refl a) (Or.inl rfl)
  by_cases hv : SettingsValid n
  · refine iff_of_false (fun h => hsame ?_) fun h => h.elim hsame fun hn => hn hv
    rw [← h.settings, (actConfig_of_valid hsame hv).1]
  · rw [actConfig_of_invalid hsame hv]
    exact iff_of_true (Kept.refl a) (Or.inr hv)

theorem postPeer_kept_iff : Kept a (postPeer w (pathIndex w path) body a).app ↔
    ∀ i, peerIndex (pathIndex w path) = some i →
      peerCandidate w.longBits body (a.config.peers i) = a.config.peers i ∨
        ¬ PeerValid (peerCandidate w.longBits body (a.config.peers i)) := by
  rw [postPeer_eq]
  unfold productConfigGetPeer
  rcases hi : peerIndex (pathIndex w path) with _ | i
  · exact iff_of_true (Kept.refl a) fun i h => absurd h.symm (Option.some_ne_none i)
  rw [Option.map_some, Option.map_some]
  set p := peerCandidate w.longBits body (a.config.peers i) with hp
  simp only [Option.some.injEq, forall_eq', ← hp]
  by_cases hv : PeerValid p
  · obtain ⟨hpeers, hset, hrun, -⟩ := actPeer_of_valid (w := w) (a := a) hi hv
    constructor
    · intro h
      have hslot := congrFun (hpeers.symm.trans h.peers) i
      rw [Function.update_self] at hslot
      exact Or.inl hslot
    · rintro (hsame | hn)
      · refine ⟨hset, ?_, by rw [hrun], by rw [hrun]⟩
        rw [hpeers, hsame, Function.update_eq_self]
      · exact absurd hv hn
  · rw [actPeer_of_invalid fun j hj h => hv h]
    exact iff_of_true (Kept.refl a) (Or.inr hv)

theorem postBrokerControl_kept_iff : Kept a (postBrokerControl w body a).app ↔
    ∀ v, jsonGetBoolish w.longBits body (str "enabled") = some v →
      a.runtime.runtimeStatus.brokerState =
        copyStr (if v ≠ 0 then str "requested" else str "stopped") := by
  unfold postBrokerControl
  rcases hread : jsonGetBoolish w.longBits body (str "enabled") with _ | v
  · exact iff_of_true (Kept.refl a) fun v h => absurd h.symm (Option.some_ne_none v)
  dsimp only
  rw [setBrokerEnabled_ok (jsonGetBoolish_le hread), if_neg (by simp)]
  constructor
  · intro h u hu
    rw [← Option.some.inj hu]
    exact h.brokerState.symm
  · intro h
    exact ⟨rfl, rfl, (h v rfl).symm, rfl⟩

theorem postPublishTest_kept_iff : Kept a (postPublishTest w body a).app ↔
    ∀ t, publishCandidate w.longBits body = some t →
      t = a.runtime.lastPublish ∨ PublishRefused t := by
  unfold postPublishTest
  rcases publishCandidate w.longBits body with _ | t
  · exact iff_of_true (Kept.refl a) fun t h => absurd h.symm (Option.some_ne_none t)
  dsimp only
  by_cases ht : PublishRefused t
  · have hact : productRuntimeRecordPublishTest t a.runtime = (.err, a.runtime) := if_pos ht
    rw [hact, if_pos (by simp)]
    exact iff_of_true (Kept.refl a) fun u hu => Or.inr (Option.some.inj hu ▸ ht)
  · have hact : productRuntimeRecordPublishTest t a.runtime =
        (.ok, { a.runtime with lastPublish := t }) := if_neg ht
    rw [hact, if_neg (by simp)]
    constructor
    · intro h u hu
      rw [← Option.some.inj hu]
      exact Or.inl h.lastPublish
    · intro h
      exact ⟨rfl, rfl, rfl, (h t rfl).resolve_right ht⟩

theorem postConfigReset_kept_iff : Kept a (postConfigReset w a).app ↔
    a.config.settings = defaultSettings w.deviceId ∧ a.config.peers = fun _ => .zero := by
  have hconfig := postConfigReset_app (w := w) (a := a)
  obtain ⟨hset, hpeers⟩ := @persistSaveAll_live w.store
    { a.config with
      peers := fun _ => .zero
      settings := settingsDefaults w.deviceId a.config.settings }
  rw [hconfig]
  constructor
  · intro h
    exact ⟨h.settings.symm.trans hset, h.peers.symm.trans hpeers⟩
  · rintro ⟨hs, hp⟩
    exact ⟨hset.trans hs.symm, hpeers.trans hp.symm, rfl, rfl⟩

/-- **A POST changes nothing** exactly if it is inert. -/
theorem postRoute_kept_iff : Kept a (postRoute w path body a).app ↔ Inert w path body a := by
  unfold postRoute Inert
  split_ifs
  · exact postConfig_kept_iff
  · exact postPeer_kept_iff
  · exact postBrokerControl_kept_iff
  · exact postPublishTest_kept_iff
  · exact postConfigReset_kept_iff
  · exact iff_of_true (Kept.refl a) trivial
  · exact iff_of_true (Kept.refl a) trivial

/-- A request changes nothing exactly if it is no POST or an inert one. -/
theorem handleRequest_kept_iff {req : Text} : Kept a (handleRequest w req a).app ↔
    ∀ rawPath, scanRequestLine req = some (str "POST", rawPath) →
      Inert w (requestPath rawPath) (requestBody req) a := by
  rw [handleRequest_route]
  rcases scanRequestLine req with _ | ⟨method, rawPath⟩
  · exact iff_of_true (Kept.refl a) fun p h => absurd h.symm (Option.some_ne_none _)
  dsimp only
  by_cases hpost : method = str "POST"
  · have hget : method ≠ str "GET" := by
      rw [hpost]
      decide
    rw [if_neg hget, if_pos hpost, postRoute_kept_iff]
    constructor
    · intro h p hp
      rw [← (Prod.mk.inj (Option.some.inj hp)).2]
      exact h
    · intro h
      exact h rawPath (by rw [hpost])
  · have hnot : ∀ p, some (method, rawPath) = some (str "POST", p) →
        Inert w (requestPath p) (requestBody req) a := fun p hp =>
      absurd (Prod.mk.inj (Option.some.inj hp)).1 hpost
    refine iff_of_true ?_ hnot
    rw [if_neg hpost]
    split_ifs
    · exact hostGet_kept
    · exact Kept.refl a

/-! ### What is received -/

/-- What is received is the beginning of the stream. -/
theorem prefix_recvLoop {longBits : ℕ} : ∀ (chunks : List (List Byte)) (p : List Byte),
    recvLoop longBits chunks p <+: p ++ chunks.flatten
  | [], p => by
    rw [recvLoop]
    exact List.prefix_append p _
  | c :: cs, p => by
    have hpiece : p ++ c.take (hostReqBufSize - 1 - p.length) <+: p ++ (c :: cs).flatten := by
      rw [List.flatten_cons, List.prefix_append_right_inj]
      exact ( List.take_prefix _ c).trans (List.prefix_append c _)
    rw [recvLoop]
    by_cases hfull : p.length ≥ hostReqBufSize - 1
    · rw [if_pos hfull]
      exact List.prefix_append p _
    rw [if_neg hfull]
    dsimp only
    split_ifs with hempty hdone
    · exact List.prefix_append p _
    · exact hpiece
    · -- a piece that is cut fills the buffer, so nothing is read after it
      have hrest := @prefix_recvLoop longBits cs
        (p ++ c.take (hostReqBufSize - 1 - p.length))
      by_cases hcut : c.length ≤ hostReqBufSize - 1 - p.length
      · rw [List.take_of_length_le hcut] at hrest ⊢
        rw [List.append_assoc, ← List.flatten_cons] at hrest
        exact hrest
      · have hlen : (p ++ c.take (hostReqBufSize - 1 - p.length)).length = hostReqBufSize - 1 := by
          rw [List.length_append, List.length_take]
          omega
        have hstop : recvLoop longBits cs (p ++ c.take (hostReqBufSize - 1 - p.length)) =
            p ++ c.take (hostReqBufSize - 1 - p.length) := by
          rcases cs with _ | ⟨d, ds⟩
          · rfl
          · rw [recvLoop, if_pos (Nat.le_of_eq hlen.symm)]
        rw [hstop]
        exact hpiece

/-- A word before white space is the same whatever follows. -/
theorem scanWord_append {width : ℕ} {p b word rest : Text} {c : Byte} (hc : isspace c = true)
    (h : scanWord width p = some (word, rest)) :
    scanWord width (p ++ c :: b) = some (word, rest ++ c :: b) := by
  have htake : ∀ q : Text, (q ++ c :: b).takeWhile (fun c => !isspace c) =
      q.takeWhile fun c => !isspace c := by
    intro q
    rw [List.takeWhile_append]
    split_ifs with hq
    · rw [List.takeWhile_cons_of_neg (by simp [hc]), List.append_nil]
      exact (( List.takeWhile_prefix _).eq_of_length hq).symm
    · rfl
  unfold scanWord at h ⊢
  dsimp only at h ⊢
  split_ifs at h with hword
  rw [Option.some.injEq, Prod.mk.injEq] at h
  obtain ⟨rfl, rfl⟩ := h
  have hskip : skipSpace (p ++ c :: b) = skipSpace p ++ c :: b := by
    have hne : skipSpace p ≠ [] := by
      intro h0
      rw [h0] at hword
      exact hword (by simp)
    unfold skipSpace at hne ⊢
    rw [List.dropWhile_append, if_neg (by simpa [List.isEmpty_iff] using hne)]
  rw [hskip, htake, if_neg hword, List.drop_append_of_le_length]
  exact (List.length_take_le' _ _).trans ( List.takeWhile_prefix _).length_le

/-- The request line is the same whatever follows the header. -/
theorem scanRequestLine_append {p b method rawPath : Text} {c : Byte} (hc : isspace c = true)
    (h : scanRequestLine p = some (method, rawPath)) :
    scanRequestLine (p ++ c :: b) = some (method, rawPath) := by
  unfold scanRequestLine at h ⊢
  rcases hm : scanWord 7 p with _ | ⟨m, r⟩
  · rw [hm] at h
    cases h
  rw [hm] at h
  rw [scanWord_append hc hm]
  dsimp only at h ⊢
  rcases hr : scanWord 127 r with _ | ⟨q, r'⟩
  · rw [hr] at h
    cases h
  rw [hr] at h
  rw [scanWord_append hc hr]
  exact h

/-! ### An incomplete request -/

/-- A POST whose header announces the length of its body. -/
structure AnnouncedPost (req head body rawPath : Text) : Prop where
  text : req = head ++ (headerEnd ++ body)
  first : strstr req headerEnd = some (headerEnd ++ body)
  noZero : 0 ∉ head
  post : scanRequestLine head = some (str "POST", rawPath)
  announces : AnnouncesBody req head body

variable {req head body rawPath : Text}

/-- What `handle_request` reads of a part with the whole header. -/
theorem AnnouncedPost.read_part (h : AnnouncedPost req head body rawPath) {part q : Text}
    (hbody : body = part ++ q) :
    scanRequestLine (cstr (head ++ (headerEnd ++ part))) = some (str "POST", rawPath) ∧
      requestBody (cstr (head ++ (headerEnd ++ part))) = cstr part := by
  have hend : headerEnd = 13 :: [10, 13, 10] := by decide
  have hcstr : cstr (head ++ (headerEnd ++ part)) = head ++ (headerEnd ++ cstr part) := by
    rw [cstr_append h.noZero, cstr_append (by decide)]
  have hcut : body = cstr part ++ (part.dropWhile (· ≠ 0) ++ q) := by
    rw [← List.append_assoc, cstr, List.takeWhile_append_dropWhile, hbody]
  rw [hcstr]
  constructor
  · rw [hend, List.cons_append]
    exact scanRequestLine_append (by decide) h.post
  · unfold requestBody
    rw [strstr_headerEnd h.text h.first hcut]
    rfl

/-- A part without the whole header has no body. -/
theorem AnnouncedPost.read_header (h : AnnouncedPost req head body rawPath) {p q : Text}
    (hreq : req = p ++ q) (hlen : p.length < head.length + 4) :
    cstr p = p ∧ requestBody p = [] := by
  have hfour : headerEnd.length = 4 := rfl
  have hnone : strstr p headerEnd = none := by
    rcases hp : strstr p headerEnd with _ | r
    · rfl
    · obtain ⟨part, rfl, -⟩ := part_of_headerEnd h.text h.first hreq hp
      simp only [List.length_append] at hlen
      omega
  have hwhole : p <+: head ++ headerEnd := by
    have hreq' : p <+: (head ++ headerEnd) ++ body := by
      rw [List.append_assoc, ← h.text, hreq]
      exact List.prefix_append p q
    refine List.prefix_of_prefix_length_le hreq' (List.prefix_append _ _) ?_
    rw [List.length_append]
    omega
  have hzero : (0 : Byte) ∉ p := by
    intro hmem
    rcases List.mem_append.mp (hwhole.subset hmem) with h0 | h0
    · exact h.noZero h0
    · exact absurd h0 (by decide)
  refine ⟨cstr_of_notMem hzero, ?_⟩
  unfold requestBody
  rw [hnone]
  rfl

/-- **What an incomplete POST does.** If only `k` bytes of the request end up in the buffer, nothing
is changed exactly if the part of the body is inert; without the whole header that is the empty body,
for the path as far as it was received. -/
theorem serveOnce_incomplete_iff (w : World) (a : App) (req head body rawPath : Text)
    (h : AnnouncedPost req head body rawPath) (chunks : List (List Byte))
    (hstream : chunks.flatten <+: req) (k : ℕ) (hk : (recvLoop w.longBits chunks []).length = k)
    (hshort : k < req.length) :
    Kept a (serveOnce w chunks a).app ↔
      if head.length + 4 ≤ k then
        Inert w (requestPath rawPath) (cstr (body.take (k - (head.length + 4)))) a
      else
        ∀ rawPath', scanRequestLine (req.take k) = some (str "POST", rawPath') →
          Inert w (requestPath rawPath') [] a := by
  have hprefix : recvLoop w.longBits chunks [] <+: req :=
    (prefix_recvLoop chunks []).trans (by rw [List.nil_append]; exact hstream)
  have hreceived : recvLoop w.longBits chunks [] = req.take k := by
    rw [← hk]
    exact List.prefix_iff_eq_take.mp hprefix
  have hcut : req = req.take k ++ req.drop k := (List.take_append_drop k req).symm
  unfold serveOnce
  rw [hreceived, handleRequest_kept_iff]
  by_cases hheader : head.length + 4 ≤ k
  · have hfour : (head ++ headerEnd).length = head.length + 4 := by
      rw [List.length_append]
      rfl
    have hpart : req.take k = head ++ (headerEnd ++ body.take (k - (head.length + 4))) := by
      rw [h.text, ← List.append_assoc, ← List.append_assoc, List.take_append, hfour,
        List.take_of_length_le (by omega)]
    obtain ⟨hline, hbody⟩ := h.read_part (List.take_append_drop (k - (head.length + 4)) body).symm
    rw [if_pos hheader, hpart, hline, hbody]
    constructor
    · intro hinert
      exact hinert rawPath rfl
    · intro hinert p hp
      rw [← (Prod.mk.inj (Option.some.inj hp)).2]
      exact hinert
  · have hlen : (req.take k).length < head.length + 4 := by
      rw [List.length_take]
      omega
    obtain ⟨hcstr, hbody⟩ := h.read_header hcut hlen
    rw [if_neg hheader, hcstr, hbody]

/-- A POST that sets a port. -/
def portPost : Text :=
  str "POST /config HTTP/1.1\r\nContent-Length: 18\r\n\r\n\x7b\"mqtt_port\":1885\x7d"

theorem announcedPost_portPost :
    AnnouncedPost portPost (str "POST /config HTTP/1.1\r\nContent-Length: 18")
      (str "\x7b\"mqtt_port\":1885\x7d") (str "/config") where
  text := by decide
  first := by decide
  noZero := by decide
  post := by decide
  announces := by
    refine ⟨str "POST /config HTTP/1.1", str " 18", [], by decide, ?_, by decide⟩
    have hprinted : str " 18" = 32 :: decimal 18 := by decide
    rw [hprinted]
    exact spellsLength_decimal 18

/-- The key is cut, and nothing happens. -/
theorem serveOnce_incomplete_iff_portPost :
    Kept freshApp (serveOnce .good [portPost.take 50] freshApp).app := by
  have hnone : configCandidate 32 (cstr ((str "\x7b\"mqtt_port\":1885\x7d").take 4))
      freshApp.config.settings = none := by decide
  refine (serveOnce_incomplete_iff .good freshApp portPost _ _ _ announcedPost_portPost
    [portPost.take 50] ?_ 50 (by decide) (by decide)).mpr ?_
  · rw [List.flatten_singleton]
    exact List.take_prefix 50 portPost
  · rw [if_pos (by decide), Inert, if_pos (show requestPath (str "/config") = str "/config" by decide)]
    intro n hn
    exact absurd (hnone.symm.trans hn) (by simp)

/-- The number is cut, the connection ends, and the port is 188. -/
theorem serveOnce_cutNumber :
    AnnouncedPost portPost (str "POST /config HTTP/1.1\r\nContent-Length: 18")
        (str "\x7b\"mqtt_port\":1885\x7d") (str "/config") ∧
      (recvLoop 32 [portPost.take 62] []).length < portPost.length ∧
      ¬ Kept freshApp (serveOnce .good [portPost.take 62] freshApp).app := by
  refine ⟨announcedPost_portPost, by decide, fun h => ?_⟩
  have hport := congrArg (fun s => s.broker.mqttPort) h.settings
  exact absurd hport (by decide)

end MqttFieldBridge.Http
