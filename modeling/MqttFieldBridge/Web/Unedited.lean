import MqttFieldBridge.Web.Session
import MqttFieldBridge.Web.Shown

/-! # Sessions in which nothing is typed

Nobody types into the page and nobody else uses the device, but the page may be saved any number of
times, and saves and loads overlap or are lost as in any session. No click is left out here: what the
page shows is an entry that can be stored (`typed_shown`, `peerTyped_shown`). The settings stay as they
were then, and of a peer nothing changes but a port of 0, which is filled; no save is refused
(`session_unedited`). -/

namespace MqttFieldBridge.Web

open MqttFieldBridge.CLib MqttFieldBridge.Config MqttFieldBridge.Runtime MqttFieldBridge.Http
  MqttFieldBridge.Json MqttFieldBridge.Device MqttFieldBridge.Lts

/-- The page shows the strings as they are. -/
structure Presentable (c : ConfigState) : Prop where
  legible : Legible c
  texts : ∀ q ∈ (shownEntry c.settings).texts, AttributeText q.2
  peers : ∀ i, PresentablePeer (c.peers i)

/-- The configuration is `c` still, but for ports of 0 that have been filled. -/
structure Unchanged (c c' : ConfigState) : Prop where
  settings : c'.settings = c.settings
  peers : ∀ i, c'.peers i = c.peers i ∨ c'.peers i = filled (c.peers i)

/-- A session with the device `a`. -/
def unedited (B : Browser) (a : App) : System Session Event where
  init x := x = ⟨a, .blank, [loadTask .config]⟩
  step x v y := v.Unedited ∧ Step B (fun _ => True) x v y

variable {B : Browser} {c c' : ConfigState} {p : FieldBridgePeer}

/-! ### The device -/

theorem samePeer_filled (p : FieldBridgePeer) : SamePeer p (filled p) :=
  ⟨rfl, rfl, rfl, fun h => (portOr_of_ne h).symm, fun h => (portOr_of_ne h).symm⟩

theorem Unchanged.refl (c : ConfigState) : Unchanged c c := ⟨rfl, fun _ => Or.inl rfl⟩

theorem Unchanged.presentable (h : Unchanged c c') (hc : Presentable c) : Presentable c' := by
  have hsound := hc.legible.sound
  refine ⟨⟨⟨h.settings ▸ hsound.settings, fun i => ?_⟩, h.settings ▸ hc.legible.texts⟩,
    h.settings ▸ hc.texts, fun i => ?_⟩
  · rcases h.peers i with hi | hi
    · rw [hi]
      exact hsound.peers i
    · rw [hi]
      exact ⟨(samePeer_filled _).valid (hsound.peers i).valid, (hsound.peers i).terminated.name,
        (hsound.peers i).terminated.host⟩
  · rcases h.peers i with hi | hi
    · rw [hi]
      exact hc.peers i
    · rw [hi]
      exact hc.peers i

theorem Unchanged.shownPeer (h : Unchanged c c') (i : Fin fieldBridgePeerMax) :
    shownPeer (c'.peers i) = shownPeer (c.peers i) := by
  rcases h.peers i with hi | hi
  · rw [hi]
  · rw [hi, shownPeer_filled]

/-- A peer passes the check with the entry that shows it. -/
theorem valid_shownPeer (hp : PresentablePeer p) (hv : PeerSound p) : PeerValid (shownPeer p).peer := by
  have htexts := (sound_shownPeer hp hv.terminated).texts
  have hsame : SamePeer (filled p) (shownPeer p).peer :=
    ⟨htexts.1.symm, htexts.2.symm, (flag_eq hv.valid.enabled).symm, fun _ => rfl, fun _ => rfl⟩
  exact hsame.valid ((samePeer_filled p).valid hv.valid)

/-- What the page asks for. -/
def asked (c : ConfigState) : Purpose → Request
  | .load l => l.request
  | .settings _ => postSettings (configObject c.settings)
  | .peer i _ => rowRequest i (shownPeer (c.peers i)).peer

/-- What it is answered. -/
def Answered (c : ConfigState) : Purpose → Text → Prop
  | .load .config, t => t = rawObject (configMembers c.settings)
  | .load .peers, t => ∃ c', Unchanged c c' ∧ t = rawArray (peerObjects c')
  | _, _ => True

/-- **A request that is served** changes nothing, and is not refused. -/
theorem serves_asked {w : World} {v : Purpose} {a a' : App} {r : Response} (hc : Presentable c)
    (ha : Unchanged c a.config) (hsave : SavesSucceed w.store) (h : Serves w (asked c v) a r a') :
    r.status = 200 ∧ Unchanged c a'.config ∧
      ∀ t, (Reply.response r).okText = some t → Answered c v t := by
  have hlegible := (ha.presentable hc).legible
  cases v with
  | load l =>
    cases l with
    | config =>
      obtain ⟨rfl, rfl⟩ := serves_config h hlegible
      refine ⟨rfl, ha, fun t ht => ?_⟩
      rw [← Option.some.inj ht, ha.settings]
      rfl
    | peers =>
      obtain ⟨rfl, rfl⟩ := serves_peers h hlegible
      exact ⟨rfl, ha, fun t ht => ⟨_, ha, (Option.some.inj ht).symm⟩⟩
  | settings e =>
    have hs := hc.legible.postable
    obtain ⟨rfl, rfl⟩ := Serves.settings h hs
    obtain ⟨hstatus, hsettings, hpeers⟩ := (postRoute_shown hs.readable hs.terminated
      (fun t ht => (hs.texts t ht).harmless) hsave a).1 hc.legible.sound.settings.valid
    refine ⟨hstatus, ⟨?_, fun i => ?_⟩, fun _ _ => trivial⟩
    · rw [hsettings, ha.settings, restoredSettings_self hs.terminated]
    · rw [hpeers]
      exact ha.peers i
  | peer i d =>
    have hv := hc.legible.sound.peers i
    have hd := sound_shownPeer (hc.peers i) hv.terminated
    obtain ⟨rfl, rfl⟩ := Serves.row h hd
    obtain ⟨hstatus, hsettings, hpeers, -⟩ :=
      postRoute_peerShown (valid_shownPeer (hc.peers i) hv) hd.terminated (peerCandidate_row hd) hsave a i
    refine ⟨hstatus, ⟨hsettings.trans ha.settings, fun j => ?_⟩, fun _ _ => trivial⟩
    rw [hpeers]
    by_cases hj : j = i
    · subst hj
      rw [Function.update_self, restoredPeer_shown (hc.peers j) hv (ha.peers j)]
      exact Or.inr rfl
    · rw [Function.update_of_ne hj]
      exact ha.peers j

/-! ### The page -/

/-- The page shows the configuration `c`. -/
structure ShowsConfig (B : Browser) (c : ConfigState) (p : PageState) : Prop where
  object : ∀ C ∈ p.C, C = configObject c.settings
  settings : ∀ F ∈ p.settings, F = settingsForm B (configObject c.settings)
  peers : ∀ (i : Fin fieldBridgePeerMax) (F : PeerForm), p.peers[(i : ℕ)]? = some F →
    PeerTyped B F (shownPeer (c.peers i))

/-- The rows that `L` makes of an answer to `/peers`. -/
theorem rows_shown (hB : B.Reads) (hc : Presentable c) : ∃ P, parse (rawArray (peerObjects c)) =
    some (.array P) ∧ ∀ (i : Fin fieldBridgePeerMax) (F : PeerForm),
      (P.map (peerForm B))[(i : ℕ)]? = some F → PeerTyped B F (shownPeer (c.peers i)) := by
  have hplain : ∀ i, PlainPeer (c.peers i) := by
    intro i
    have hp := hc.peers i
    simp only [PresentablePeer, List.forall_mem_cons] at hp
    exact ⟨hp.1.1.plain, hp.2.1.1.plain⟩
  obtain ⟨P, hparse, hreads⟩ := (@slotsReadBack_iff peerMembers c keyed_peerMembers
    fun _ _ => plain_peerMembers_iff).mpr hplain
  refine ⟨P, hparse, fun i F hF => ?_⟩
  rw [List.getElem?_map] at hF
  obtain ⟨x, hx, rfl⟩ := Option.map_eq_some_iff.mp hF
  obtain ⟨hlt, hget⟩ := List.getElem?_eq_some_iff.mp hx
  have hread := hreads.get hlt (hreads.length_eq ▸ hlt)
  rw [List.get_eq_getElem, hget, List.get_eq_getElem, List.getElem_mapIdx] at hread
  simp only [peerList, List.getElem_map, List.getElem_finRange, Fin.cast_mk] at hread
  exact peerTyped_shown hB (hc.peers i) hread

/-- The page goes on with an answer. -/
theorem ShowsConfig.resumed {p page : PageState} {v : Purpose} {reply : Reply} {next : Option Load}
    (h : ShowsConfig B c p) (hB : B.Reads) (hc : Presentable c)
    (hanswer : ∀ t, reply.okText = some t → Answered c v t)
    (hresume : resume B p reply v.call = (page, next)) : ShowsConfig B c page := by
  have hsave : resume B p reply .save = (page, next) → ShowsConfig B c page := by
    intro hresume
    unfold resume at hresume
    dsimp only at hresume
    split_ifs at hresume
    · obtain ⟨rfl, -⟩ := Prod.mk.inj hresume
      exact ⟨h.object, h.settings, h.peers⟩
    · obtain ⟨rfl, -⟩ := Prod.mk.inj hresume
      exact ⟨h.object, h.settings, h.peers⟩
  cases v with
  | load l =>
    unfold Purpose.call resume at hresume
    cases l with
    | config =>
      dsimp only at hresume
      rcases hok : reply.okText with _ | t
      · rw [hok, Option.bind_none] at hresume
        obtain ⟨rfl, -⟩ := Prod.mk.inj hresume
        exact h
      · obtain rfl : t = _ := hanswer t hok
        rw [hok, Option.bind_some, parseObject_config hc.legible.texts] at hresume
        obtain ⟨rfl, -⟩ := Prod.mk.inj hresume
        exact ⟨fun C hC => (Option.some.inj hC).symm, h.settings, h.peers⟩
    | peers =>
      dsimp only at hresume
      split at hresume
      · next C t hC hok =>
        obtain ⟨c', hsame, rfl⟩ := hanswer t hok
        obtain ⟨P, hparse, hrows⟩ := rows_shown hB (hsame.presentable hc)
        rw [hparse] at hresume
        obtain ⟨rfl, -⟩ := Prod.mk.inj hresume
        refine ⟨h.object, fun F hF => ?_, fun i F hF => hsame.shownPeer i ▸ hrows i F hF⟩
        rw [← Option.some.inj hF, h.object C hC]
      · obtain ⟨rfl, -⟩ := Prod.mk.inj hresume
        exact h
  | settings e => exact hsave hresume
  | peer i d => exact hsave hresume

/-! ### The sessions -/

/-- The request is the one for its purpose, and so is its answer. -/
structure UneditedTask (c : ConfigState) (t : Task) : Prop where
  request : t.request = asked c t.purpose
  answer : ∀ reply ∈ t.reply, ∀ text, reply.okText = some text → Answered c t.purpose text

/-- **The invariant of a session in which nothing is typed.** -/
structure Untouched (B : Browser) (c : ConfigState) (x : Session) : Prop where
  config : Unchanged c x.app.config
  page : ShowsConfig B c x.page
  tasks : ∀ t ∈ x.tasks, UneditedTask c t

theorem uneditedTask_load (l : Load) : UneditedTask c (loadTask l) :=
  ⟨rfl, fun reply hreply => absurd hreply (Option.not_mem_none reply)⟩

/-- **A step keeps the invariant.** -/
theorem untouched_step {x y : Session} {v : Event} (hB : B.Reads) (hc : Presentable c)
    (h : Untouched B c x) (hv : v.Unedited) (hstep : Step B (fun _ => True) x v y) :
    Untouched B c y := by
  cases hstep with
  | edit => exact hv.elim
  | @settings e F page q hform htyped hsound hclick =>
    obtain ⟨C, hC, rfl, rfl⟩ := clickSettings_eq hform hclick
    rw [h.page.object C hC, h.page.settings F hform, collect_shown hB hc.legible.postable hc.texts]
    refine ⟨h.config, ⟨fun C hC => (Option.some.inj hC).symm, h.page.settings, h.page.peers⟩,
      forall_added h.tasks ⟨rfl, fun reply hreply => absurd hreply (Option.not_mem_none reply)⟩⟩
  | @peer i d F q hform htyped hsound hclick =>
    unfold clickPeer at hclick
    rw [hform, Option.map_some] at hclick
    obtain rfl := Option.some.inj hclick
    have hshown := sound_shownPeer (hc.peers i) (hc.legible.sound.peers i).terminated
    have hrequest : postPeer B i F = rowRequest i (shownPeer (c.peers i)).peer := by
      unfold postPeer rowRequest
      rw [stringify_row (h.page.peers i F hform) hshown]
    exact ⟨h.config, h.page, forall_added h.tasks
      ⟨hrequest, fun reply hreply => absurd hreply (Option.not_mem_none reply)⟩⟩
  | early hclick =>
    rw [clickSettings_early hclick]
    exact ⟨h.config, ⟨h.page.object, h.page.settings, h.page.peers⟩, h.tasks⟩
  | @serve w pre post t r a htasks hwaiting hsave hserves =>
    have ht := h.tasks t (mem_tasks htasks)
    rw [ht.request] at hserves
    obtain ⟨-, hconfig, hanswer⟩ := serves_asked hc h.config hsave hserves
    refine ⟨hconfig, h.page, forall_changed htasks h.tasks ⟨ht.request, fun reply hreply => ?_⟩⟩
    rw [← Option.some.inj hreply]
    exact hanswer
  | @fail pre post t htasks =>
    have ht := h.tasks t (mem_tasks htasks)
    refine ⟨h.config, h.page, forall_changed htasks h.tasks ⟨ht.request, fun reply hreply => ?_⟩⟩
    obtain rfl := Option.some.inj hreply
    intro text htext
    cases htext
  | @resume pre post t reply page next htasks hreply hresume =>
    have ht := h.tasks t (mem_tasks htasks)
    exact ⟨h.config, h.page.resumed hB hc (ht.answer reply hreply) hresume,
      forall_done htasks h.tasks uneditedTask_load⟩
  | other => exact hv.elim

theorem untouched_of_reachable {a : App} {x : Session} (hB : B.Reads) (hc : Presentable a.config)
    (h : (unedited B a).Reachable x) : Untouched B a.config x := by
  have hinit : ∀ x, (unedited B a).init x → Untouched B a.config x := by
    rintro x rfl
    refine ⟨.refl _, ⟨?_, ?_, ?_⟩, fun t ht => List.mem_singleton.mp ht ▸ uneditedTask_load .config⟩
    · exact fun C hC => absurd hC (Option.not_mem_none C)
    · exact fun F hF => absurd hF (Option.not_mem_none F)
    · exact fun i F hF => absurd hF (by simp [PageState.blank])
  have hstep : ∀ x v y, Untouched B a.config x → (unedited B a).step x v y →
      Untouched B a.config y := fun x v y hx hs => untouched_step hB hc hx hs.1 hs.2
  exact h.invariant hinit hstep

/-- **Saving what nobody has typed changes nothing** but ports of 0, which are filled, and is never
refused when it is served as `Serves` says, whichever saves and loads overlap or are lost. What the
page shows is what the device holds. -/
theorem session_unedited {a : App} {x : Session} (hB : B.Reads) (hc : Presentable a.config)
    (h : (unedited B a).Reachable x) : Unchanged a.config x.app.config ∧ ShowsConfig B a.config x.page ∧
      ∀ t ∈ x.tasks, ∀ (w : World) (r : Response) (a' : App), SavesSucceed w.store →
        Serves w t.request x.app r a' → r.status = 200 := by
  have huntouched := untouched_of_reachable hB hc h
  refine ⟨huntouched.config, huntouched.page, fun t ht w r a' hsave hserves => ?_⟩
  rw [(huntouched.tasks t ht).request] at hserves
  exact (serves_asked hc huntouched.config hsave hserves).1

/-! ### A session with a save -/

theorem mapM_digit : ∀ {t : Text}, (∀ c ∈ t, isdigit c = true) → (plain t).mapM digit? = some t
  | [], _ => rfl
  | c :: cs, h => by
    have hc : digit? (.byte c) = some c := if_pos (h c List.mem_cons_self)
    have ih := mapM_digit fun c' hc' => h c' (List.mem_cons_of_mem c hc')
    show (JsonChar.byte c :: plain cs).mapM digit? = _
    rw [List.mapM_cons, hc, ih]
    rfl

theorem reads_plainBrowser : plainBrowser.Reads where
  numeral n := by
    unfold plainBrowser
    dsimp only
    rw [mapM_digit isdigit_decimal]
    dsimp only
    rw [numeralValue_decimal]
  inputs _ _ := rfl

theorem presentable_fresh : Presentable freshApp.config where
  legible := legible_fresh
  texts := by
    have hcheck : ∀ q ∈ (shownEntry freshApp.config.settings).texts,
        PrintableAscii q.2 ∧ 38 ∉ q.2 := by decide
    exact fun q hq => ⟨(hcheck q hq).1.plain, (hcheck q hq).2⟩
  peers i := by
    have hcheck : ∀ t ∈ [FieldBridgePeer.zero.name.text, FieldBridgePeer.zero.host.text],
        (PrintableAscii t ∧ 38 ∉ t) ∧ ∀ f ∈ peerFields, t ≠ f.key := by decide
    exact fun t ht => ⟨⟨(hcheck t ht).1.1.plain, (hcheck t ht).1.2⟩, (hcheck t ht).2⟩

/-- The firmware answers a save of settings. -/
theorem exists_serves_settings {s : FieldBridgeSettings} (hs : Postable s) (w : World) (a : App) :
    ∃ r a', Serves w (postSettings (configObject s)) a r a' := by
  have hslot : (zephyrAcquireBuffers 1 freshZephyr.buffers).isSome := by decide
  have hbody : 0 ∉ stringify (configObject s) ∧ (stringify (configObject s)).length < reqBufSize := by
    rw [stringify_config hs]
    exact ⟨zero_notMem_rawObject configMembers_nulFree, length_configMembers hs.readable hs.terminated⟩
  have hanswer := @callback_post (str "/config") _ w 1 ⟨a, freshZephyr.buffers⟩
    pagePath_config.plain.text.length hbody.1 hbody.2 hslot
  exact ⟨_, _, @Serves.firmware w (postSettings (configObject s)) a 1 _ _ hslot hanswer.1⟩

/-- A new device, whose page is saved as it is. -/
theorem session_unedited_fresh : ∃ x e r, (unedited plainBrowser freshApp).Reachable x ∧
    (∃ t ∈ x.tasks, t.purpose = .settings e ∧ t.reply = some (.response r)) ∧
      Unchanged freshApp.config x.app.config := by
  have hpostable := legible_fresh.postable
  obtain ⟨rows, hloaded⟩ := @reachable_loaded plainBrowser (fun _ => True)
    (unedited plainBrowser freshApp) _ legible_fresh rfl fun hv hstep => ⟨hv, hstep⟩
  have htyped := typed_shown reads_plainBrowser hpostable presentable_fresh.texts
  have hclick : Event.Unedited (.settings (shownEntry freshApp.config.settings)) := trivial
  have hclicked := hloaded.step
    ⟨hclick, .settings rfl htyped (sound_shownEntry hpostable) rfl⟩
  obtain ⟨r, a', hserves⟩ := exists_serves_settings hpostable World.good freshApp
  rw [← collect_shown reads_plainBrowser hpostable presentable_fresh.texts] at hserves
  have hserve : ∀ t, Event.Unedited (.serve t r) := fun _ => trivial
  have hserved := hclicked.step
    ⟨hserve _, @Step.serve plainBrowser _ _ _ [] [] _ _ _ rfl rfl (fun _ => rfl) hserves⟩
  exact ⟨_, _, r, hserved, ⟨_, List.mem_singleton_self _, rfl, rfl⟩,
    (session_unedited reads_plainBrowser presentable_fresh hserved).1⟩

end MqttFieldBridge.Web
