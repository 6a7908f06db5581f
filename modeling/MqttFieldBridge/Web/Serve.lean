import MqttFieldBridge.Device.Copy
import MqttFieldBridge.Web.Entry

/-! # How the device serves the page

A request of the page reaches the host's handler as a text, with whatever header lines the browser
writes and in whatever pieces, or the firmware's handler as a path and the whole body, in one last
callback. Both answer it by the route of its path (`Serves.get`, `Serves.post`). So `/config` answers
what the script reads as the settings (`serves_config`), and a save stores what is shown by its object
if that passes the checks, and changes nothing if it does not (`serves_settings`, `serves_peer`). -/

namespace MqttFieldBridge.Web

open MqttFieldBridge.CLib MqttFieldBridge.Config MqttFieldBridge.Runtime MqttFieldBridge.Http
  MqttFieldBridge.Json MqttFieldBridge.Device

/-- One of the handlers answers the request: the host's, whose buffer has room for its text, or the
firmware's, which has a buffer slot and is called once, with the whole body. A body that comes in
several callbacks is left out; of it only the last fragment counts. -/
inductive Serves (w : World) (q : Request) (a : App) : Response → App → Prop
  | host {method req head : Text} {chunks : List (List Byte)} (hmethod : Spelled q.method method)
    (hcomplete : Complete method q.path q.body req) (hframed : Framed req head q.body)
    (hnul : 0 ∉ req) (hlen : req.length ≤ hostReqBufSize - 1) (harrives : ArrivesAs req chunks) :
    Serves w q a (serveOnce w chunks a).response (serveOnce w chunks a).app
  | firmware {id : ℕ} {buffers : BufferSlots} {r : Response}
    (hslot : (zephyrAcquireBuffers id buffers).isSome)
    (hresponse : (zephyrDynamicHandler w ⟨id, q.path, q.method⟩ .requestDataFinal q.body
      ⟨a, buffers⟩).response = some r) :
    Serves w q a r (zephyrDynamicHandler w ⟨id, q.path, q.method⟩ .requestDataFinal q.body
      ⟨a, buffers⟩).state.app

variable {w : World} {q : Request} {a a' : App} {r : Response}

/-- The path of a request of the page. -/
structure PagePath (path : Text) : Prop where
  plain : PlainPath path
  query : stripQuery path = path

theorem pagePath_config : PagePath (str "/config") := ⟨plainPath_config, by decide⟩

theorem pagePath_peers : PagePath (str "/peers") := ⟨plainPath_peers, by decide⟩

theorem pagePath_slot (i : Fin fieldBridgePeerMax) : PagePath (peersPath ++ decimal i) :=
  ⟨(plainPath_slot i).1, (plainPath_slot i).2⟩

theorem serveOnce_served {method req head : Text} {chunks : List (List Byte)} {m : HttpMethod}
    {path body : Text} (hmethod : Spelled m method) (hpath : PagePath path)
    (hcomplete : Complete method path body req) (hframed : Framed req head body) (hnul : 0 ∉ req)
    (hlen : req.length ≤ hostReqBufSize - 1) (harrives : ArrivesAs req chunks) :
    serveOnce w chunks a = if m = .get then hostGet w path a
      else { postRoute w path body a with reboot := false } := by
  unfold serveOnce
  rw [recvLoop_arrives hframed hnul hlen harrives, cstr_of_notMem hnul,
    handleRequest_complete hmethod hpath.plain.text hcomplete, hpath.query]

/-- **A GET is answered by its route.** -/
theorem Serves.get (h : Serves w q a r a') (hmethod : q.method = .get) (hpath : PagePath q.path)
    (ha : ConfigSound a.config) :
    r = (hostGet w q.path a).response ∧ a' = (hostGet w q.path a).app := by
  cases h with
  | host hm hcomplete hframed hnul hlen harrives =>
    rw [serveOnce_served hm hpath hcomplete hframed hnul hlen harrives, if_pos hmethod]
    exact ⟨rfl, rfl⟩
  | @firmware id buffers r hslot hresponse =>
    obtain ⟨⟨i, taken⟩, hacq⟩ := Option.isSome_iff_exists.mp hslot
    have hurl : q.path.take 127 = q.path := List.take_of_length_le hpath.plain.text.length
    have hget := @zephyrDynamicHandler_get w id q.path q.body ⟨a, buffers⟩ i taken hacq ha.settings
      fun j => (ha.peers j).terminated
    rw [hurl, hpath.query] at hget
    rw [hmethod] at hresponse ⊢
    rw [hget.1] at hresponse
    exact ⟨(Option.some.inj hresponse).symm, hget.2⟩

/-- **A POST is answered by its route.** -/
theorem Serves.post (h : Serves w q a r a') (hmethod : q.method = .post) (hpath : PagePath q.path)
    (hbody : 0 ∉ q.body) (hlen : q.body.length < reqBufSize) :
    r = (postRoute w q.path q.body a).response ∧ a' = (postRoute w q.path q.body a).app := by
  cases h with
  | host hm hcomplete hframed hnul hreq harrives =>
    rw [serveOnce_served hm hpath hcomplete hframed hnul hreq harrives, hmethod, if_neg nofun]
    exact ⟨rfl, rfl⟩
  | @firmware id buffers r hslot hresponse =>
    have hpost := @callback_post q.path q.body w id ⟨a, buffers⟩ hpath.plain.text.length hbody hlen hslot
    rw [hpath.query] at hpost
    rw [hmethod] at hresponse ⊢
    rw [hpost.1] at hresponse
    exact ⟨(Option.some.inj hresponse).symm, hpost.2⟩

/-! ### The requests of the page -/

/-- The script reads what the device shows of its settings. -/
structure Legible (c : ConfigState) : Prop where
  sound : ConfigSound c
  texts : ∀ t ∈ settingsTexts c.settings, Writable t

theorem Legible.postable {c : ConfigState} (h : Legible c) : Postable c.settings :=
  postable_of_sound h.sound.settings h.texts

/-- What a host answers to the path of a document. -/
theorem hostGet_document {path t : Text} (subject : Text) (hsubject : getSubject path = some subject)
    (hindex : ¬ (path = str "/" ∨ path = str "/index.html"))
    (hbuilt : getRoute w hostRespBufSize path a = (⟨true, some t⟩, a)) :
    (hostGet w path a).response = ⟨200, .json t⟩ ∧ (hostGet w path a).app = a := by
  rw [hostGet_route]
  rw [if_neg hindex, hsubject, hbuilt]
  exact ⟨rfl, rfl⟩

theorem serves_config (h : Serves w Load.config.request a r a') (ha : Legible a.config) :
    r = ⟨200, .json (rawObject (configMembers a.config.settings))⟩ ∧ a' = a := by
  have hbuilt : getRoute w hostRespBufSize (str "/config") a =
      (⟨true, some (rawObject (configMembers a.config.settings))⟩, a) := by
    have hconfig : getRoute w hostRespBufSize (str "/config") a =
        (buildConfigJson hostRespBufSize a.config, a) := rfl
    rw [hconfig, buildConfigJson_built (by decide) ha.sound.settings.terminated]
  obtain ⟨hr, hstate⟩ := h.get rfl pagePath_config ha.sound
  obtain ⟨hresponse, happ⟩ := hostGet_document (str "config") (by decide) (by decide) hbuilt
  exact ⟨hr.trans hresponse, hstate.trans happ⟩

theorem serves_peers (h : Serves w Load.peers.request a r a') (ha : Legible a.config) :
    r = ⟨200, .json (rawArray (peerObjects a.config))⟩ ∧ a' = a := by
  have hbuilt : getRoute w hostRespBufSize (str "/peers") a =
      (⟨true, some (rawArray (peerObjects a.config))⟩, a) := by
    have hpeers : getRoute w hostRespBufSize (str "/peers") a =
        (buildPeersJson hostRespBufSize a.config, a) := rfl
    rw [hpeers, buildPeersJson_built (by decide) fun i => (ha.sound.peers i).terminated]
  obtain ⟨hr, hstate⟩ := h.get rfl pagePath_peers ha.sound
  obtain ⟨hresponse, happ⟩ := hostGet_document (str "peers") (by decide) (by decide) hbuilt
  exact ⟨hr.trans hresponse, hstate.trans happ⟩

/-- What a save of settings does: it stores them if they pass the checks, and nothing else, and changes
nothing if they do not. -/
structure SettingsStored (s : FieldBridgeSettings) (a : App) (r : Response) (a' : App) : Prop where
  stored : SettingsValid s → r.status = 200 ∧
    (SameFields s a'.config.settings ∧ SettingsTerminated a'.config.settings) ∧
      a'.config.peers = a.config.peers
  refused : ¬ SettingsValid s → r.status = 400 ∧ a' = a

theorem terminated_restored {n : ℕ} {x y : CharArray n} (h : x.Terminated) :
    (y.write (x.text ++ [0])).Terminated :=
  CharArray.terminated_write (CharArray.length_text_lt h)

theorem settingsTerminated_restored {s t : FieldBridgeSettings} (h : SettingsTerminated s) :
    SettingsTerminated (restoredSettings s t) where
  deviceName := terminated_restored h.deviceName
  network := ⟨terminated_restored h.network.deviceIp, terminated_restored h.network.gateway,
    terminated_restored h.network.netmask, terminated_restored h.network.dns⟩
  brokerIp := terminated_restored h.brokerIp
  siteId := terminated_restored h.siteId
  topicPrefix := terminated_restored h.topicPrefix

/-- A save of settings is answered by the route of `/config`. -/
theorem Serves.settings {s : FieldBridgeSettings} (h : Serves w (postSettings (configObject s)) a r a')
    (hs : Postable s) : r = (postRoute w (str "/config") (rawObject (configMembers s)) a).response ∧
      a' = (postRoute w (str "/config") (rawObject (configMembers s)) a).app := by
  have hrequest : postSettings (configObject s) =
      ⟨.post, str "/config", rawObject (configMembers s)⟩ := by
    rw [postSettings, stringify_config hs]
  rw [hrequest] at h
  exact h.post rfl pagePath_config (zero_notMem_rawObject configMembers_nulFree)
    (length_configMembers hs.readable hs.terminated)

theorem serves_settings {s : FieldBridgeSettings} (hs : Postable s) (hsave : SavesSucceed w.store)
    (h : Serves w (postSettings (configObject s)) a r a') (ha : Legible a.config) :
    SettingsStored s a r a' := by
  obtain ⟨rfl, rfl⟩ := h.settings hs
  obtain ⟨hstored, hrefused⟩ := postRoute_shown hs.readable hs.terminated
    (fun t ht => (hs.texts t ht).harmless) hsave a
  refine ⟨fun hvalid => ?_, fun hinvalid => hrefused hinvalid ha.sound.settings.valid⟩
  obtain ⟨hstatus, hsettings, hpeers⟩ := hstored hvalid
  rw [hsettings]
  exact ⟨hstatus, ⟨sameFields_restored hs.terminated, settingsTerminated_restored hs.terminated⟩,
    hpeers⟩

/-- The request of `V(i)` for this peer. -/
def rowRequest (i : Fin fieldBridgePeerMax) (p : FieldBridgePeer) : Request :=
  ⟨.post, peersPath ++ decimal i, rawObject (rowMembers p)⟩

/-- What a save of a peer does: it stores the peer if it passes the checks, and nothing else, and builds
the seed table anew, and changes nothing if it does not. -/
structure PeerStored (w : World) (i : Fin fieldBridgePeerMax) (p : FieldBridgePeer) (a : App)
    (r : Response) (a' : App) : Prop where
  stored : PeerValid p → r.status = 200 ∧
    (SamePeer p (a'.config.peers i) ∧ PeerTerminated (a'.config.peers i)) ∧
      (∀ j, j ≠ i → a'.config.peers j = a.config.peers j) ∧
        a'.config.settings = a.config.settings ∧
          a'.seeds = seedTable (libOf w) (wantedSeeds (libOf w) a'.config)
  refused : ¬ PeerValid p → r.status = 400 ∧ a' = a

variable {d : PeerEntry} {i : Fin fieldBridgePeerMax}

theorem length_rowMembers {p : FieldBridgePeer} (h : PeerTerminated p) :
    (rawObject (rowMembers p)).length < reqBufSize := by
  have hkeys : ∀ m ∈ rowMembers p, m.1.length ≤ 9 := by
    simp only [rowMembers, List.forall_mem_cons]
    decide
  have hvalues : ∀ m ∈ rowMembers p, m.2.text.length ≤ 65 := by
    simp only [rowMembers, List.forall_mem_cons]
    exact ⟨(length_u8 _).trans (by decide), (length_chars h.name).trans (by decide),
      length_chars h.host, (length_u16 _).trans (by decide), (length_u16 _).trans (by decide),
      List.forall_mem_nil _⟩
  exact (length_rawObject_le hkeys hvalues).trans_lt (show 5 * (9 + 65 + 4) + 2 < 768 by decide)

theorem rowMembers_nulFree {p : FieldBridgePeer} : ∀ m ∈ rowMembers p, NulFree m := by
  have hkeys : ∀ m ∈ rowMembers p, 0 ∉ m.1 := by
    simp only [rowMembers, List.forall_mem_cons]
    decide
  have hvalues : ∀ m ∈ rowMembers p, ∀ t, m.2 = .string t → 0 ∉ t := by
    simp only [rowMembers, List.forall_mem_cons]
    exact ⟨RawValue.of_number, RawValue.of_string p.name.zero_notMem_text,
      RawValue.of_string p.host.zero_notMem_text, RawValue.of_number, RawValue.of_number,
      List.forall_mem_nil _⟩
  exact fun m hm => ⟨hkeys m hm, hvalues m hm⟩

theorem PeerEntry.Sound.valid_of_restored (hd : d.Sound) {q : FieldBridgePeer}
    (h : PeerValid (restoredPeer d.peer q)) : PeerValid d.peer where
  enabled := d.enabled_le
  usable he := by
    obtain ⟨hhost, -, -⟩ := h.usable he
    exact ⟨first_congr (samePeer_restored hd.terminated).host.symm hhost, hd.mqttPort, hd.p2pPort⟩

/-- A save of a peer is answered by the route of its slot. -/
theorem Serves.row (h : Serves w (rowRequest i d.peer) a r a') (hd : d.Sound) :
    r = (postRoute w (peersPath ++ decimal i) (rawObject (rowMembers d.peer)) a).response ∧
      a' = (postRoute w (peersPath ++ decimal i) (rawObject (rowMembers d.peer)) a).app :=
  h.post rfl (pagePath_slot i) (zero_notMem_rawObject rowMembers_nulFree)
    (length_rowMembers hd.terminated)

/-- What the handler makes of it. -/
theorem peerCandidate_row (hd : d.Sound) (q : FieldBridgePeer) :
    peerCandidate w.longBits (rawObject (rowMembers d.peer)) q = restoredPeer d.peer q :=
  peerCandidate_shown w.longBits_ge (shows_rowMembers hd.harmless) d.enabled_le hd.terminated
    hd.harmless q

theorem serves_peer (hd : d.Sound) (hsave : SavesSucceed w.store)
    (h : Serves w (rowRequest i d.peer) a r a') : PeerStored w i d.peer a r a' := by
  obtain ⟨rfl, rfl⟩ := h.row hd
  refine ⟨fun hvalid => ?_, fun hinvalid => ?_⟩
  · obtain ⟨hstatus, hsettings, hpeers, hseeds⟩ :=
      postRoute_peerShown hvalid hd.terminated (peerCandidate_row hd) hsave a i
    refine ⟨hstatus, ?_, fun j hj => ?_, hsettings, hseeds⟩
    · rw [hpeers, Function.update_self]
      exact ⟨samePeer_restored hd.terminated, terminated_restored hd.terminated.name,
        terminated_restored hd.terminated.host⟩
    · rw [hpeers, Function.update_of_ne hj]
  · have hroute := @postRoute_slot (rawObject (rowMembers d.peer)) w a i
    rw [peerCandidate_row hd,
      actPeer_of_invalid fun _ _ hv => hinvalid (hd.valid_of_restored hv)] at hroute
    rw [hroute]
    exact ⟨rfl, rfl⟩

end MqttFieldBridge.Web
