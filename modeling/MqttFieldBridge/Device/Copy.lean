import MqttFieldBridge.Device.Memory
import MqttFieldBridge.Device.Seeds
import MqttFieldBridge.Http.Connection
import MqttFieldBridge.Http.Requests
import MqttFieldBridge.Http.Restore
import MqttFieldBridge.Runtime.SeedCalls

/-! # Copying a device

A client reads `/config` and `/peers` from one device and posts what it has read to another: the
document of the settings as it is, and each object of the array of the peers to its slot. The other
device accepts all of it and is a copy then: it has the same settings and peers, shows the same
document, and its seed table is the one that the first device's configuration asks for
(`device_copied`). It does not matter what the other device held before, in which pieces the requests
arrive, or whether the firmware's handler is called with them: every document that a device shows fits
the smaller buffer of the firmware (`length_configMembers`). -/

namespace MqttFieldBridge.Device

open MqttFieldBridge.CLib MqttFieldBridge.Config MqttFieldBridge.Runtime MqttFieldBridge.Http
  MqttFieldBridge.Json

/-- A POST. -/
structure Post where
  path : Text
  body : Text

/-- What the client posts: the document of the settings and the objects of the peers. -/
def copyPosts (document : Text) (objects : List Text) : List Post :=
  ⟨str "/config", document⟩ :: objects.mapIdx fun i t => ⟨peersPath ++ decimal i, t⟩

/-- Posts to the routes, one after another. -/
def postAll (w : World) : List Post → App → List Response × App
  | [], a => ([], a)
  | p :: ps, a =>
    let r := postRoute w p.path p.body a
    let later := postAll w ps r.app
    (r.response :: later.1, later.2)

/-- What can be copied: sound records, and no string that the search for a key could take for it. -/
structure Copyable (c : ConfigState) : Prop where
  sound : ConfigSound c
  texts : ∀ t ∈ settingsTexts c.settings, Harmless t
  peers : ∀ i, HarmlessPeer (c.peers i)

/-- The library of a world. -/
def libOf (w : World) : SeedLib := ⟨w.p2p.inetPton, w.seedAdd⟩

/-- Both handlers answer a GET of the path with this document. -/
structure ShowsAt (w : World) (a : App) (path document : Text) : Prop where
  host : ∀ chunks, ArrivesAs (getText path) chunks →
    (serveOnce w chunks a).response = ⟨200, .json document⟩
  firmware : ∀ id data buffers, (zephyrAcquireBuffers id buffers).isSome →
    (zephyrDynamicHandler w ⟨id, path, .get⟩ .requestDataFinal data ⟨a, buffers⟩).response =
      some ⟨200, .json document⟩

/-- The device is a copy of one with the configuration `c`. -/
structure CopyOf (w : World) (c : ConfigState) (a : App) : Prop where
  settings : SameFields c.settings a.config.settings
  peers : ∀ i, SamePeer (c.peers i) (a.config.peers i)
  seeds : a.seeds = seedTable (libOf w) (wantedSeeds (libOf w) c)

variable {w : World} {a b : App} {c : ConfigState}

/-! ### The settings -/

/-- The route of `/config` sets what is shown of settings, and nothing else, if they pass the check. -/
theorem postRoute_shown {s : FieldBridgeSettings} (hreadable : ∀ f ∈ configFields, f.slot.Readable s)
    (hterm : SettingsTerminated s) (htexts : ∀ t ∈ settingsTexts s, Harmless t)
    (hsave : SavesSucceed w.store) (b : App) :
    let r := postRoute w (str "/config") (rawObject (configMembers s)) b
    (SettingsValid s → r.response.status = 200 ∧
      r.app.config.settings = restoredSettings s b.config.settings ∧
        r.app.config.peers = b.config.peers) ∧
      (¬ SettingsValid s → SettingsValid b.config.settings → r.response.status = 400 ∧ r.app = b) := by
  have hroute : postRoute w (str "/config") (rawObject (configMembers s)) b =
      postConfig w (rawObject (configMembers s)) b := if_pos rfl
  have hcand := configCandidate_shown w.longBits_ge hreadable htexts b.config.settings
  have hsame := @sameFields_restored s b.config.settings hterm
  dsimp only
  rw [hroute, postConfig_eq, hcand]
  refine ⟨fun hvalid => ?_, fun hinvalid hb => ?_⟩
  · by_cases hn : restoredSettings s b.config.settings = b.config.settings
    · rw [hn, actConfig_of_same]
      exact ⟨rfl, rfl, rfl⟩
    · have hvalid' := hsame.valid hvalid
      obtain ⟨hset, hresponse⟩ := @actConfig_of_valid w b _ hn hvalid'
      refine ⟨by rw [hresponse, if_pos (hsave settingsKey)], hset, ?_⟩
      unfold actConfig
      dsimp only
      rw [if_neg hn, productConfigSetSettings_of_valid hvalid', hsave settingsKey,
        if_neg (not_not.mpr rfl)]
  · have hinvalid' : ¬ SettingsValid (restoredSettings s b.config.settings) := fun h =>
      hinvalid (hsame.symm.valid h)
    have hn : restoredSettings s b.config.settings ≠ b.config.settings := by
      intro h
      rw [h] at hinvalid'
      exact hinvalid' hb
    rw [actConfig_of_invalid hn hinvalid']
    exact ⟨rfl, rfl⟩

/-- The settings are set, and nothing else. -/
theorem postRoute_document (hc : Copyable c) (hsave : SavesSucceed w.store) (b : App) :
    let r := postRoute w (str "/config") (rawObject (configMembers c.settings)) b
    r.response.status = 200 ∧ r.app.config.settings = restoredSettings c.settings b.config.settings ∧
      r.app.config.peers = b.config.peers :=
  (postRoute_shown (readable_configFields hc.sound.settings.valid hc.sound.settings.terminated hc.texts)
    hc.sound.settings.terminated hc.texts hsave b).1 hc.sound.settings.valid

/-! ### The peers -/

theorem slotPath_ne_config (i : Fin fieldBridgePeerMax) : peersPath ++ decimal i ≠ str "/config" := by
  intro h
  have hhead := congrArg (fun l => l.take 2) h
  rw [List.take_append_of_le_length (by decide)] at hhead
  exact absurd hhead (by decide)

/-- The route of a slot sets what a body shows of a peer, and nothing else, and builds the table anew. -/
theorem postRoute_peerShown {body : Text} {p : FieldBridgePeer} (hvalid : PeerValid p)
    (hterm : PeerTerminated p)
    (hbody : ∀ q, peerCandidate w.longBits body q = restoredPeer p q) (hsave : SavesSucceed w.store)
    (b : App) (i : Fin fieldBridgePeerMax) :
    let r := postRoute w (peersPath ++ decimal i) body b
    r.response.status = 200 ∧ r.app.config.settings = b.config.settings ∧
      r.app.config.peers = Function.update b.config.peers i (restoredPeer p (b.config.peers i)) ∧
      r.app.seeds = seedTable (libOf w) (wantedSeeds (libOf w) r.app.config) := by
  have hvalid' : PeerValid (restoredPeer p (b.config.peers i)) :=
    (samePeer_restored hterm).valid hvalid
  have hi : peerIndex (pathIndex w (peersPath ++ decimal i)) = some i := by
    rw [pathIndex_slot]
    exact peerIndex_natCast
  obtain ⟨hpeers, hsettings, -, hstatus⟩ :=
    @actPeer_of_valid w (peersPath ++ decimal i) b _ i hi hvalid'
  rw [if_pos (hsave (peerKey i))] at hstatus
  have hroute := @postRoute_slot body w b i
  rw [hbody] at hroute
  rw [← hroute] at hpeers hsettings hstatus
  refine ⟨hstatus, hsettings, hpeers, ?_⟩
  have hwrites : WritesPeer (postOp w.longBits (peersPath ++ decimal i) body b.config) := by
    have hindex : atoi w.longBits ((peersPath ++ decimal i).drop 7) = (i : ℕ) := pathIndex_slot
    unfold postOp peerOp productConfigGetPeer
    rw [if_neg (slotPath_ne_config i), if_pos (List.prefix_append _ _), hindex, peerIndex_natCast]
    exact ⟨_, _, rfl⟩
  have hbuilt := (@postRoute_rebuilds w b (peersPath ++ decimal i) body).rebuilt ⟨hwrites, hstatus⟩
  rw [hbuilt]
  exact applyPeers_seeds ⟨rfl, rfl⟩ _

/-- One slot is set, and the table is built anew. -/
theorem postRoute_object (hc : Copyable c) (hsave : SavesSucceed w.store) (b : App)
    (i : Fin fieldBridgePeerMax) :
    let r := postRoute w (peersPath ++ decimal i) (rawObject (peerMembers i (c.peers i))) b
    r.response.status = 200 ∧ r.app.config.settings = b.config.settings ∧
      r.app.config.peers =
        Function.update b.config.peers i (restoredPeer (c.peers i) (b.config.peers i)) ∧
      r.app.seeds = seedTable (libOf w) (wantedSeeds (libOf w) r.app.config) :=
  have hsound := hc.sound.peers i
  postRoute_peerShown hsound.valid hsound.terminated
    (peerCandidate_restored w.longBits_ge hsound.valid hsound.terminated (hc.peers i) i) hsave b i

/-- The POST of a slot. -/
def slotPost (c : ConfigState) (i : Fin fieldBridgePeerMax) : Post :=
  ⟨peersPath ++ decimal i, rawObject (peerMembers i (c.peers i))⟩

/-- **Any number of slots**: those that are posted are copies then, and those that were stay so. -/
theorem postAll_slots (hc : Copyable c) (hsave : SavesSucceed w.store) :
    ∀ (is : List (Fin fieldBridgePeerMax)) (b : App),
      let r := postAll w (is.map (slotPost c)) b
      (∀ s ∈ r.1, s.status = 200) ∧ r.2.config.settings = b.config.settings ∧
        (∀ i, i ∈ is ∨ SamePeer (c.peers i) (b.config.peers i) →
          SamePeer (c.peers i) (r.2.config.peers i)) ∧
        (is ≠ [] → r.2.seeds = seedTable (libOf w) (wantedSeeds (libOf w) r.2.config))
  | [], b => by
    refine ⟨fun s hs => absurd hs List.not_mem_nil, rfl, fun i hi => ?_, fun h => absurd rfl h⟩
    exact hi.resolve_left List.not_mem_nil
  | j :: is, b => by
    obtain ⟨hstatus, hsettings, hpeers, hseeds⟩ := postRoute_object hc hsave b j
    set b' := (postRoute w (peersPath ++ decimal j) (rawObject (peerMembers j (c.peers j))) b).app
      with hb'
    obtain ⟨hrest, hkept, hcopies, hbuilt⟩ := postAll_slots hc hsave is b'
    refine ⟨?_, hkept.trans hsettings, fun i hi => ?_, fun _ => ?_⟩
    · intro s hs
      rcases List.mem_cons.mp hs with rfl | hs
      · exact hstatus
      · exact hrest s hs
    · refine hcopies i ?_
      by_cases hij : i = j
      · right
        rw [hij, hpeers, Function.update_self]
        exact samePeer_restored (hc.sound.peers j).terminated
      · rcases hi with hi | hi
        · exact Or.inl ((List.mem_cons.mp hi).resolve_left hij)
        · right
          rw [hpeers, Function.update_of_ne hij]
          exact hi
    · by_cases hnil : is = []
      · subst hnil
        exact hseeds
      · exact hbuilt hnil

theorem copyPosts_eq (c : ConfigState) :
    copyPosts (rawObject (configMembers c.settings)) ((peerObjects c).map rawObject) =
      ⟨str "/config", rawObject (configMembers c.settings)⟩ ::
        (List.finRange fieldBridgePeerMax).map (slotPost c) := by
  unfold copyPosts peerObjects peerList
  refine congrArg (List.cons _) ?_
  refine List.ext_getElem (by simp) fun i h1 h2 => ?_
  simp [slotPost]

/-- Copies ask for the same seeds. -/
theorem wantedSeeds_copy (hc : Copyable c) (hs : SameFields c.settings a.config.settings)
    (hp : ∀ i, SamePeer (c.peers i) (a.config.peers i)) (lib : SeedLib) :
    wantedSeeds lib a.config = wantedSeeds lib c := by
  unfold wantedSeeds peerList
  rw [← hs.bridgeEnabled, List.filterMap_map, List.filterMap_map]
  split_ifs
  · rfl
  · refine List.filterMap_congr fun i _ => ?_
    exact (hp i).seed (hc.sound.peers i).valid lib

/-- **The routes make a copy.** -/
theorem postAll_copies (hc : Copyable c) (hsave : SavesSucceed w.store) (b : App) :
    let r := postAll w (copyPosts (rawObject (configMembers c.settings))
      ((peerObjects c).map rawObject)) b
    (∀ s ∈ r.1, s.status = 200) ∧ CopyOf w c r.2 := by
  obtain ⟨hstatus, hsettings, -⟩ := postRoute_document hc hsave b
  set b' := (postRoute w (str "/config") (rawObject (configMembers c.settings)) b).app
  obtain ⟨hrest, hkept, hcopies, hbuilt⟩ :=
    postAll_slots hc hsave (List.finRange fieldBridgePeerMax) b'
  dsimp only
  rw [copyPosts_eq]
  set a := (postAll w ((List.finRange fieldBridgePeerMax).map (slotPost c)) b').2
  have hsame : SameFields c.settings a.config.settings := by
    rw [hkept, hsettings]
    exact sameFields_restored hc.sound.settings.terminated
  have hpeers : ∀ i, SamePeer (c.peers i) (a.config.peers i) := fun i =>
    hcopies i (Or.inl (List.mem_finRange i))
  refine ⟨fun s hs => ?_, hsame, hpeers, ?_⟩
  · rcases List.mem_cons.mp hs with rfl | hs
    · exact hstatus
    · exact hrest s hs
  · have hseeds := hbuilt (by decide)
    rw [wantedSeeds_copy hc hsame hpeers] at hseeds
    exact hseeds

/-- What is saved stays so. -/
theorem saved_postAll {deviceId : List Byte} (hsave : SavesSucceed w.store) :
    ∀ (ps : List Post) (b : App), Saved deviceId b.config → Saved deviceId (postAll w ps b).2.config
  | [], _, h => h
  | p :: ps, b, h => by
    refine saved_postAll hsave ps (postRoute w p.path p.body b).app ?_
    rw [postRoute_config]
    exact saved_afterOp hsave h fun op hop => profileKnown_postOp hop

/-! ### The documents -/

/-- A document that is built in every buffer is shown by both handlers. -/
theorem showsAt_of_built {path document subject : Text} (hpath : PlainPath path)
    (hquery : stripQuery path = path) (hsubject : getSubject path = some subject)
    (hindex : ¬ (path = str "/" ∨ path = str "/index.html")) (h0 : 0 ∉ document)
    (hlen : document.length < respBufSize)
    (hbuilt : ∀ cap, respBufSize ≤ cap → (getRoute w cap path a).1 = ⟨true, some document⟩) :
    ShowsAt w a path document where
  host chunks hchunks := by
    rw [serveOnce_getText hpath hchunks, hquery, hostGet_route, if_neg hindex, hsubject]
    dsimp only
    rw [hbuilt hostRespBufSize (by decide)]
    rfl
  firmware id data buffers hslot := by
    obtain ⟨⟨i, taken⟩, hacq⟩ := Option.isSome_iff_exists.mp hslot
    have hurl : path.take 127 = path := List.take_of_length_le hpath.text.length
    have htext : (printResponse (taken i).response (some document)).text = document :=
      CharArray.text_write h0 hlen
    unfold zephyrDynamicHandler
    dsimp only
    rw [hurl, hquery, if_neg fun h => hindex h.2, hacq]
    dsimp only
    rw [zephyrGet_route, hbuilt respBufSize le_rfl, htext]
    rfl

theorem showsAt_config (hlen : (rawObject (configMembers a.config.settings)).length < respBufSize) :
    ShowsAt w a (str "/config") (rawObject (configMembers a.config.settings)) :=
  showsAt_of_built plainPath_config (by decide)
    (show getSubject (str "/config") = some (str "config") by decide) (by decide)
    (zero_notMem_rawObject configMembers_nulFree) hlen fun cap hcap =>
      (buildConfigJson_eq cap a.config).trans (printed_of_fits (hlen.trans_le hcap))

theorem showsAt_peers (hterm : ∀ i, PeerTerminated (a.config.peers i)) :
    ShowsAt w a (str "/peers") (rawArray (peerObjects a.config)) := by
  have h0 : ∀ ms ∈ peerObjects a.config, ∀ m ∈ ms, NulFree m := by
    intro ms hms
    obtain ⟨i, hi, rfl⟩ := List.mem_mapIdx.mp hms
    exact peerMembers_nulFree
  exact showsAt_of_built plainPath_peers (by decide)
    (show getSubject (str "/peers") = some (str "peers") by decide) (by decide)
    (zero_notMem_rawArray h0) (peerObjects_fits hterm) fun _ hcap => buildPeersJson_built hcap hterm

/-! ### How the posts are brought -/

/-- A post that both handlers hand to its route. -/
structure Post.Routed (p : Post) : Prop where
  path : PlainPath p.path
  query : stripQuery p.path = p.path
  nul : 0 ∉ p.body
  length : p.body.length < reqBufSize

/-- Connections that bring these posts to the host. -/
inductive Brings (w : World) : List Post → List ThreadEvent → Prop
  | done : Brings w [] []
  | failed {ps : List Post} {es : List ThreadEvent} (h : Brings w ps es) :
      Brings w ps (.acceptFailed :: es)
  | post {p : Post} {ps : List Post} {k : Connection} {es : List ThreadEvent} (hw : k.world = w)
      (hk : ArrivesAs (postText p.path p.body) k.chunks) (h : Brings w ps es) :
      Brings w (p :: ps) (.accepted k :: es)

theorem answers_brings {ps : List Post} {es : List ThreadEvent} (h : Brings w ps es)
    (hps : ∀ p ∈ ps, p.Routed) (b : App) : answers es b = postAll w ps b := by
  induction h generalizing b with
  | done => rfl
  | failed h ih => exact ih hps b
  | @post p ps k es hw hk h ih =>
    have hp : p.Routed := hps p List.mem_cons_self
    have hbody : p.body.length < 3900 := hp.length.trans (by decide)
    have hserved := @serveOnce_postText _ _ w b _ hp.path hp.nul hbody hk
    have hlater := ih fun q hq => hps q (List.mem_cons_of_mem p hq)
    unfold answers postAll
    dsimp only
    rw [hw, hserved, hp.query]
    dsimp only
    rw [hlater]

/-- The one call of the firmware's handler for a post, with all of its body: the client, and what the
buffer slots hold. -/
structure Callback where
  post : Post
  id : ℕ
  buffers : BufferSlots

/-- The calls, one after another. -/
def callAll (w : World) : List Callback → App → List (Option Response) × App
  | [], a => ([], a)
  | k :: ks, a =>
    let r := zephyrDynamicHandler w ⟨k.id, k.post.path, .post⟩ .requestDataFinal k.post.body
      ⟨a, k.buffers⟩
    let later := callAll w ks r.state.app
    (r.response :: later.1, later.2)

theorem callAll_eq : ∀ (ks : List Callback) (b : App),
    (∀ k ∈ ks, k.post.Routed ∧ (zephyrAcquireBuffers k.id k.buffers).isSome) →
      (callAll w ks b).1 = (postAll w (ks.map Callback.post) b).1.map some ∧
        (callAll w ks b).2 = (postAll w (ks.map Callback.post) b).2
  | [], _, _ => ⟨rfl, rfl⟩
  | k :: ks, b, h => by
    obtain ⟨hp, hslot⟩ := h k List.mem_cons_self
    obtain ⟨hresponse, happ⟩ := @callback_post _ _ w _ ⟨b, k.buffers⟩ hp.path.text.length hp.nul
      hp.length hslot
    have hlater := callAll_eq ks (postRoute w k.post.path k.post.body b).app fun q hq =>
      h q (List.mem_cons_of_mem k hq)
    rw [hp.query] at hresponse happ
    unfold callAll
    rw [List.map_cons]
    unfold postAll
    dsimp only at hresponse happ ⊢
    rw [hresponse, happ, List.map_cons, hlater.1, hlater.2]
    exact ⟨rfl, rfl⟩

theorem plainPath_slot (i : Fin fieldBridgePeerMax) :
    PlainPath (peersPath ++ decimal i) ∧ stripQuery (peersPath ++ decimal i) = peersPath ++ decimal i := by
  have hdigits : ∀ c ∈ decimal i, isdigit c = true := isdigit_decimal
  have hlen : (decimal i).length ≤ 1 := by
    have hlt : (i : ℕ) < 2 := i.isLt
    exact length_decimal_le (by decide) (by omega)
  have hnot : ∀ d : Byte, isdigit d = false → d ∉ peersPath → d ∉ peersPath ++ decimal i := by
    intro d hd hpath hmem
    rcases List.mem_append.mp hmem with h | h
    · exact hpath h
    · rw [hdigits d h] at hd
      cases hd
  refine ⟨⟨⟨rfl, fun c hc => ?_, ?_⟩, hnot 67 (by decide) (by decide), hnot 0 (by decide) (by decide)⟩,
    ?_⟩
  · rcases List.mem_append.mp hc with h | h
    · exact noSpace_of_any (show peersPath.any isspace = false by decide) c h
    · exact isspace_digit (hdigits c h)
  · have hseven : peersPath.length = 7 := by decide
    rw [List.length_append, hseven]
    omega
  · refine List.takeWhile_eq_self_iff.mpr fun c hc => ?_
    have hquery := hnot 63 (by decide) (by decide)
    exact decide_eq_true fun h => hquery (h ▸ hc)

theorem routed_copyPosts (hc : Copyable c) : ∀ p ∈ copyPosts (rawObject (configMembers c.settings))
    ((peerObjects c).map rawObject), p.Routed := by
  rw [copyPosts_eq, List.forall_mem_cons]
  have hquery : stripQuery (str "/config") = str "/config" := by decide
  refine ⟨⟨plainPath_config, hquery, zero_notMem_rawObject configMembers_nulFree,
    length_configMembers (readable_configFields hc.sound.settings.valid hc.sound.settings.terminated
      hc.texts) hc.sound.settings.terminated⟩, ?_⟩
  intro p hp
  obtain ⟨i, -, rfl⟩ := List.mem_map.mp hp
  obtain ⟨hpath, hquery⟩ := plainPath_slot i
  exact ⟨hpath, hquery, zero_notMem_rawObject peerMembers_nulFree,
    length_peerMembers (hc.sound.peers i).terminated i⟩

/-! ### The copy -/

/-- What the posts leave: a copy that shows the document, with all of it saved if what the device held
before was saved. -/
structure Copied (w : World) (c : ConfigState) (before after : App) : Prop where
  copy : CopyOf w c after
  shows : ShowsAt w after (str "/config") (rawObject (configMembers c.settings))
  saved : ∀ deviceId, Saved deviceId before.config → Saved deviceId after.config

theorem CopyOf.shows (h : CopyOf w c a) (hc : Copyable c) :
    ShowsAt w a (str "/config") (rawObject (configMembers c.settings)) := by
  have hmembers := h.settings.members
  have hlen := configMembers_fits hc.sound.settings.terminated
  rw [← hmembers] at hlen ⊢
  exact showsAt_config hlen

theorem copied_postAll (hc : Copyable c) (hsave : SavesSucceed w.store) (b : App) :
    let r := postAll w (copyPosts (rawObject (configMembers c.settings))
      ((peerObjects c).map rawObject)) b
    (∀ s ∈ r.1, s.status = 200) ∧ Copied w c b r.2 := by
  obtain ⟨hstatus, hcopy⟩ := postAll_copies hc hsave b
  exact ⟨hstatus, ⟨hcopy, hcopy.shows hc, fun _ hsaved => saved_postAll hsave _ b hsaved⟩⟩

/-- **A device is copied** by posting what it shows to another: the document of `/config`, and the
objects of `/peers`, each to its slot. If its saves succeed, the other device accepts all of it, in
whatever pieces it comes to the host, or each body in one last callback of the firmware and whatever
its buffers hold, and is a copy then. -/
theorem device_copied (w w' : World) (a b : App) (ha : Copyable a.config)
    (hsave : SavesSucceed w'.store) :
    let document := rawObject (configMembers a.config.settings)
    let objects := (peerObjects a.config).map rawObject
    ShowsAt w a (str "/config") document ∧
      ShowsAt w a (str "/peers") (91 :: List.intercalate [44] objects ++ [93]) ∧
      (∀ es, Brings w' (copyPosts document objects) es →
        (∀ r ∈ (answers es b).1, r.status = 200) ∧ Copied w' a.config b (answers es b).2) ∧
      ∀ ks, ks.map Callback.post = copyPosts document objects →
        (∀ k ∈ ks, (zephyrAcquireBuffers k.id k.buffers).isSome) →
          (∀ r ∈ (callAll w' ks b).1, ∃ s, r = some s ∧ s.status = 200) ∧
            Copied w' a.config b (callAll w' ks b).2 := by
  intro document objects
  have hrouted := routed_copyPosts ha
  obtain ⟨hstatus, hcopied⟩ := copied_postAll ha hsave b
  refine ⟨showsAt_config (configMembers_fits ha.sound.settings.terminated),
    showsAt_peers fun i => (ha.sound.peers i).terminated, fun es hes => ?_, fun ks hks hslots => ?_⟩
  · rw [answers_brings hes hrouted b]
    exact ⟨hstatus, hcopied⟩
  · have hcalls := @callAll_eq w' ks b fun k hk =>
      ⟨hrouted k.post (hks ▸ List.mem_map_of_mem hk), hslots k hk⟩
    rw [hcalls.1, hcalls.2, hks]
    refine ⟨fun r hr => ?_, hcopied⟩
    obtain ⟨s, hs, rfl⟩ := List.mem_map.mp hr
    exact ⟨s, rfl, hstatus s hs⟩

/-- A device with a peer in each slot. -/
abbrev peerApp : App :=
  { freshApp with config := { freshConfig with peers := fun _ => slotAt (str "10.88.0.3") } }

theorem copyable_peerApp : Copyable peerApp.config where
  sound := ⟨settingsSound_default [], fun _ =>
    ⟨show PeerValid (slotAt (str "10.88.0.3")) by decide,
      show CharArray.Terminated (slotAt (str "10.88.0.3")).name by decide,
      show CharArray.Terminated (slotAt (str "10.88.0.3")).host by decide⟩⟩
  texts := by
    show ∀ t ∈ settingsTexts freshConfig.settings, Harmless t
    decide
  peers _ := show HarmlessPeer (slotAt (str "10.88.0.3")) by decide

/-- The posts, each in one piece, after an `accept` that failed. -/
abbrev copyRun : List ThreadEvent :=
  .acceptFailed :: (copyPosts (rawObject (configMembers peerApp.config.settings))
    ((peerObjects peerApp.config).map rawObject)).map fun p =>
      .accepted ⟨.good, [postText p.path p.body], [], ⟨.zero 192, []⟩⟩

theorem brings_whole : ∀ ps : List Post, Brings .good ps
    (ps.map fun p => .accepted ⟨.good, [postText p.path p.body], [], ⟨.zero 192, []⟩⟩)
  | [] => .done
  | p :: ps => by
    refine .post rfl ⟨[postText p.path p.body], [], rfl, List.append_nil _, fun c hc => ?_⟩
      (brings_whole ps)
    rw [List.mem_singleton.mp hc]
    exact List.cons_ne_nil _ _

theorem device_copied_peerApp :
    ShowsAt .good peerApp (str "/config") (rawObject (configMembers peerApp.config.settings)) ∧
      (∀ r ∈ (answers copyRun freshApp).1, r.status = 200) ∧
      Copied .good peerApp.config freshApp (answers copyRun freshApp).2 := by
  obtain ⟨hconfig, -, hhost, -⟩ :=
    device_copied .good .good peerApp freshApp copyable_peerApp fun _ => rfl
  exact ⟨hconfig, hhost copyRun (.failed (brings_whole _))⟩

end MqttFieldBridge.Device
