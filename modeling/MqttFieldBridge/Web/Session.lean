import MqttFieldBridge.Lts.Reach
import MqttFieldBridge.Web.Serve

/-! # Sessions of the settings page

The page is open in a browser while others use the device as well. A click sends a request at once; the
device serves the requests that wait in any order, and the page goes on with the answers in any order,
so that saves and loads overlap. Requests and answers may be lost.

The page does not show the name of the device, the site and the flags of the broker, but posts them with
every save, as it has read them. Whatever overlaps, it never posts others than the device has had
(`Holds.hidden`), and each save stores what was typed when it was sent, or is refused
(`session_saves`). -/

namespace MqttFieldBridge.Web

open MqttFieldBridge.CLib MqttFieldBridge.Config MqttFieldBridge.Runtime MqttFieldBridge.Http
  MqttFieldBridge.Json MqttFieldBridge.Device MqttFieldBridge.Lts

/-- What the page posts without showing it. -/
structure Hidden where
  deviceName : Text
  siteId : Text
  brokerEnabled : UInt8
  bridgeEnabled : UInt8
  meshEnabled : UInt8

def hiddenOf (s : FieldBridgeSettings) : Hidden :=
  ⟨s.system.deviceName.text, s.broker.siteId.text, s.broker.brokerEnabled, s.broker.bridgeEnabled,
    s.broker.meshEnabled⟩

/-- What a request of the page is for. A save has what was on the page when it was sent. -/
inductive Purpose where
  | load (l : Load)
  | settings (e : Entry)
  | peer (i : Fin fieldBridgePeerMax) (d : PeerEntry)

def Purpose.call : Purpose → Call
  | .load l => .load l
  | .settings _ | .peer _ _ => .save

/-- A request and what has become of it. -/
structure Task where
  purpose : Purpose
  request : Request
  reply : Option Reply

def loadTask (l : Load) : Task := ⟨.load l, l.request, none⟩

/-- The device, the page and its requests. -/
structure Session where
  app : App
  page : PageState
  tasks : List Task

/-- The steps of a session. `early` is a click that sends nothing, and `other` whatever somebody else
does to the device. -/
inductive Event where
  | edit
  | settings (e : Entry)
  | peer (i : Fin fieldBridgePeerMax) (d : PeerEntry)
  | early
  | serve (t : Task) (r : Response)
  | fail (t : Task)
  | resume (t : Task)
  | other

/-- The steps, with a property `H` of what the page does not show: others leave it such that it has the
property, and the device legible. What is saved can be stored. -/
inductive Step (B : Browser) (H : Hidden → Prop) : Session → Event → Session → Prop
  | edit {x : Session} {F : SettingsForm} {Fs : List PeerForm} (hshown : x.page.settings.isSome)
    (hrows : Fs.length = x.page.peers.length) :
    Step B H x .edit { x with page := { x.page with settings := some F, peers := Fs } }
  | settings {x : Session} {e : Entry} {F : SettingsForm} {page : PageState} {q : Request}
    (hform : x.page.settings = some F) (htyped : Typed B F e) (hsound : e.Sound)
    (hclick : clickSettings B x.page = (page, some q)) :
    Step B H x (.settings e) { x with page := page, tasks := x.tasks ++ [⟨.settings e, q, none⟩] }
  | peer {x : Session} {i : Fin fieldBridgePeerMax} {d : PeerEntry} {F : PeerForm} {q : Request}
    (hform : x.page.peers[(i : ℕ)]? = some F) (htyped : PeerTyped B F d) (hsound : d.Sound)
    (hclick : clickPeer B i x.page = some q) :
    Step B H x (.peer i d) { x with tasks := x.tasks ++ [⟨.peer i d, q, none⟩] }
  | early {x : Session} {page : PageState} (hclick : clickSettings B x.page = (page, none)) :
    Step B H x .early { x with page := page }
  | serve {x : Session} {w : World} {pre post : List Task} {t : Task} {r : Response} {a : App}
    (htasks : x.tasks = pre ++ t :: post) (hwaiting : t.reply = none)
    (hsave : SavesSucceed w.store) (hserves : Serves w t.request x.app r a) :
    Step B H x (.serve t r)
      { x with app := a, tasks := pre ++ { t with reply := some (.response r) } :: post }
  | fail {x : Session} {pre post : List Task} {t : Task} (htasks : x.tasks = pre ++ t :: post) :
    Step B H x (.fail t) { x with tasks := pre ++ { t with reply := some .failed } :: post }
  | resume {x : Session} {pre post : List Task} {t : Task} {reply : Reply} {page : PageState}
    {next : Option Load} (htasks : x.tasks = pre ++ t :: post) (hreply : t.reply = some reply)
    (hresume : resume B x.page reply t.purpose.call = (page, next)) :
    Step B H x (.resume t)
      { x with page := page, tasks := pre ++ post ++ next.toList.map loadTask }
  | other {x : Session} {a : App} (hlegible : Legible a.config)
    (hhidden : H (hiddenOf a.config.settings)) : Step B H x .other { x with app := a }

/-- A session begins with a blank page, whose script calls `L`. -/
def sessions (B : Browser) (H : Hidden → Prop) : System Session Event where
  init x := Legible x.app.config ∧ H (hiddenOf x.app.config.settings) ∧ x.page = .blank ∧
    x.tasks = [loadTask .config]
  step := Step B H

/-! ### What holds of the tasks -/

variable {B : Browser} {H : Hidden → Prop} {s : FieldBridgeSettings}

/-- Settings that the object `C` may show. -/
structure Possible (H : Hidden → Prop) (s : FieldBridgeSettings) : Prop where
  postable : Postable s
  hidden : H (hiddenOf s)

theorem Possible.onto (h : Possible H s) {e : Entry} (he : e.Sound) : Possible H (e.onto s) :=
  ⟨h.postable.onto he, h.hidden⟩

/-- An answer that the script reads as the settings, if it is one of a 200. -/
def ConfigAnswer (H : Hidden → Prop) (reply : Reply) : Prop :=
  ∀ t, reply.okText = some t → ∃ s, Possible H s ∧ t = rawObject (configMembers s)

/-- The request is the one for its purpose. -/
def TaskHolds (H : Hidden → Prop) (t : Task) : Prop :=
  match t.purpose with
  | .load l => t.request = l.request ∧ (l = .config → ∀ reply ∈ t.reply, ConfigAnswer H reply)
  | .settings e => e.Sound ∧ ∃ s, Possible H s ∧ t.request = postSettings (configObject (e.onto s))
  | .peer i d => d.Sound ∧ t.request = rowRequest i d.peer

/-- **The invariant of a session.** -/
structure Holds (H : Hidden → Prop) (x : Session) : Prop where
  legible : Legible x.app.config
  hidden : H (hiddenOf x.app.config.settings)
  object : ∀ C ∈ x.page.C, ∃ s, Possible H s ∧ C = configObject s
  tasks : ∀ t ∈ x.tasks, TaskHolds H t

theorem hiddenOf_congr {s t : FieldBridgeSettings} (h : SameFields s t) : hiddenOf t = hiddenOf s := by
  unfold hiddenOf
  rw [h.deviceName, h.siteId, h.brokerEnabled, h.bridgeEnabled, h.meshEnabled]

theorem texts_congr {s t : FieldBridgeSettings} (h : SameFields s t) :
    settingsTexts t = settingsTexts s := by
  unfold settingsTexts
  rw [h.deviceName, h.deviceIp, h.gateway, h.netmask, h.dns, h.brokerIp, h.siteId, h.topicPrefix]

theorem Legible.possible {c : ConfigState} (h : Legible c) (hH : H (hiddenOf c.settings)) :
    Possible H c.settings :=
  ⟨h.postable, hH⟩

theorem taskHolds_load (l : Load) : TaskHolds H (loadTask l) :=
  ⟨rfl, fun _ reply hreply => absurd hreply (Option.not_mem_none reply)⟩

theorem holds_init {x : Session} (h : (sessions B H).init x) : Holds H x := by
  obtain ⟨hlegible, hH, hpage, htasks⟩ := h
  refine ⟨hlegible, hH, fun C hC => ?_, fun t ht => ?_⟩
  · rw [hpage] at hC
    cases hC
  · rw [htasks, List.mem_singleton] at ht
    rw [ht]
    exact taskHolds_load .config

/-! ### What one step does -/

/-- What a request does to the device when it is served. -/
def Stored (H : Hidden → Prop) (w : World) (a : App) (r : Response) (a' : App) : Purpose → Prop
  | .load _ => r.status = 200 ∧ a' = a
  | .settings e => ∃ s, Possible H s ∧ SettingsStored (e.onto s) a r a'
  | .peer i d => PeerStored w i d.peer a r a'

/-- **A request that is served** does what it is for. -/
theorem stored_of_serves {w : World} {t : Task} {a a' : App} {r : Response} (ht : TaskHolds H t)
    (ha : Legible a.config) (hsave : SavesSucceed w.store) (h : Serves w t.request a r a') :
    Stored H w a r a' t.purpose := by
  obtain ⟨purpose, request, reply⟩ := t
  cases purpose with
  | load l =>
    obtain ⟨hrequest, -⟩ : request = l.request ∧ _ := ht
    subst hrequest
    cases l with
    | config =>
      obtain ⟨rfl, rfl⟩ := serves_config h ha
      exact ⟨rfl, rfl⟩
    | peers =>
      obtain ⟨rfl, rfl⟩ := serves_peers h ha
      exact ⟨rfl, rfl⟩
  | settings e =>
    obtain ⟨he, s, hs, hrequest⟩ :
      e.Sound ∧ ∃ s, Possible H s ∧ request = postSettings (configObject (e.onto s)) := ht
    subst hrequest
    exact ⟨s, hs, serves_settings (hs.onto he).postable hsave h ha⟩
  | peer i d =>
    obtain ⟨hd, hrequest⟩ : d.Sound ∧ request = rowRequest i d.peer := ht
    subst hrequest
    exact serves_peer hd hsave h

/-- Settings that were stored are as good as those that were posted. -/
theorem SettingsStored.legible {a a' : App} {r : Response} (h : SettingsStored s a r a')
    (hs : Possible H s) (ha : Legible a.config) (hH : H (hiddenOf a.config.settings)) :
    Legible a'.config ∧ H (hiddenOf a'.config.settings) := by
  by_cases hvalid : SettingsValid s
  · obtain ⟨-, ⟨hsame, hterm⟩, hpeers⟩ := h.stored hvalid
    refine ⟨⟨⟨⟨hsame.valid hvalid, hterm⟩, fun i => hpeers ▸ ha.sound.peers i⟩, ?_⟩, ?_⟩
    · rw [texts_congr hsame]
      exact hs.postable.texts
    · rw [hiddenOf_congr hsame]
      exact hs.hidden
  · rw [(h.refused hvalid).2]
    exact ⟨ha, hH⟩

theorem PeerStored.legible {w : World} {i : Fin fieldBridgePeerMax} {p : FieldBridgePeer} {a a' : App}
    {r : Response} (h : PeerStored w i p a r a') (ha : Legible a.config)
    (hH : H (hiddenOf a.config.settings)) :
    Legible a'.config ∧ H (hiddenOf a'.config.settings) := by
  by_cases hvalid : PeerValid p
  · obtain ⟨-, ⟨hsame, hterm⟩, hothers, hsettings, -⟩ := h.stored hvalid
    refine ⟨⟨⟨hsettings ▸ ha.sound.settings, fun j => ?_⟩, hsettings ▸ ha.texts⟩, hsettings ▸ hH⟩
    by_cases hj : j = i
    · rw [hj]
      exact ⟨hsame.valid hvalid, hterm⟩
    · rw [hothers j hj]
      exact ha.sound.peers j
  · rw [(h.refused hvalid).2]
    exact ⟨ha, hH⟩

theorem Stored.legible {w : World} {p : Purpose} {a a' : App} {r : Response}
    (hp : ∀ e, p = .settings e → e.Sound) (h : Stored H w a r a' p) (ha : Legible a.config)
    (hH : H (hiddenOf a.config.settings)) : Legible a'.config ∧ H (hiddenOf a'.config.settings) := by
  cases p with
  | load l =>
    rw [h.2]
    exact ⟨ha, hH⟩
  | settings e =>
    obtain ⟨s, hs, hstored⟩ := h
    exact hstored.legible (hs.onto (hp e rfl)) ha hH
  | peer i d => exact PeerStored.legible h ha hH

/-! ### The invariant -/

theorem TaskHolds.sound {t : Task} (h : TaskHolds H t) : ∀ e, t.purpose = .settings e → e.Sound := by
  intro e he
  unfold TaskHolds at h
  rw [he] at h
  exact h.1

/-- An answer that is lost tells nothing. -/
theorem TaskHolds.failed {t : Task} (h : TaskHolds H t) : TaskHolds H { t with reply := some .failed } := by
  unfold TaskHolds at h ⊢
  dsimp only
  split
  · next l hl =>
    rw [hl] at h
    refine ⟨h.1, fun _ reply hreply text htext => ?_⟩
    obtain rfl := Option.some.inj hreply
    cases htext
  · next e he =>
    rw [he] at h
    exact h
  · next i d hd =>
    rw [hd] at h
    exact h

/-- The answer of `/config` is one that the script reads as the settings. -/
theorem TaskHolds.served {w : World} {t : Task} {a a' : App} {r : Response} (h : TaskHolds H t)
    (ha : Legible a.config) (hH : H (hiddenOf a.config.settings)) (hserves : Serves w t.request a r a') :
    TaskHolds H { t with reply := some (.response r) } := by
  unfold TaskHolds at h ⊢
  dsimp only
  split
  · next l hl =>
    rw [hl] at h
    refine ⟨h.1, fun hconfig reply hreply text htext => ?_⟩
    obtain rfl := Option.some.inj hreply
    rw [h.1, hconfig] at hserves
    obtain ⟨rfl, -⟩ := serves_config hserves ha
    exact ⟨_, ha.possible hH, (Option.some.inj htext).symm⟩
  · next e he =>
    rw [he] at h
    exact h
  · next i d hd =>
    rw [hd] at h
    exact h

/-- The page takes its object from an answer to `/config` only. -/
theorem resume_object {p page : PageState} {reply : Reply} {c : Call} {next : Option Load}
    (h : resume B p reply c = (page, next)) : page.C = p.C ∨
      c = .load .config ∧ ∃ text, reply.okText = some text ∧ page.C = parseObject text := by
  rcases c with ⟨_ | _⟩ | _
  · unfold resume at h
    dsimp only at h
    rcases hok : reply.okText with _ | text
    · rw [hok] at h
      exact Or.inl (by rw [← (Prod.mk.inj h).1])
    · rw [hok, Option.bind_some] at h
      split at h
      · next C hC => exact Or.inr ⟨rfl, text, rfl, by rw [← (Prod.mk.inj h).1, hC]⟩
      · exact Or.inl (by rw [← (Prod.mk.inj h).1])
  · unfold resume at h
    dsimp only at h
    split at h
    · exact Or.inl (by rw [← (Prod.mk.inj h).1])
    · exact Or.inl (by rw [← (Prod.mk.inj h).1])
  · unfold resume at h
    dsimp only at h
    split_ifs at h
    · exact Or.inl (by rw [← (Prod.mk.inj h).1])
    · exact Or.inl (by rw [← (Prod.mk.inj h).1])

theorem Purpose.eq_load {p : Purpose} {l : Load} (h : p.call = .load l) : p = .load l := by
  cases p with
  | load l' => exact congrArg Purpose.load (Call.load.inj h)
  | settings e => cases h
  | peer i d => cases h

/-- The page goes on with settings that the device has had. -/
theorem Holds.resume {x : Session} {t : Task} {reply : Reply} {page : PageState} {next : Option Load}
    (h : Holds H x) (ht : t ∈ x.tasks) (hreply : t.reply = some reply)
    (hresume : resume B x.page reply t.purpose.call = (page, next)) :
    ∀ C ∈ page.C, ∃ s, Possible H s ∧ C = configObject s := by
  rcases resume_object hresume with hsame | ⟨hcall, text, hok, hread⟩
  · rw [hsame]
    exact h.object
  · have htask := h.tasks t ht
    unfold TaskHolds at htask
    rw [Purpose.eq_load hcall] at htask
    obtain ⟨s, hs, rfl⟩ := htask.2 rfl reply hreply text hok
    rw [hread, parseObject_config hs.postable.texts]
    exact fun C hC => ⟨s, hs, (Option.some.inj hC).symm⟩

theorem clickSettings_eq {p page : PageState} {F : SettingsForm} {q : Request} (hF : p.settings = some F)
    (h : clickSettings B p = (page, some q)) : ∃ C, p.C = some C ∧
      page = { p with C := some (collect B F C) } ∧ q = postSettings (collect B F C) := by
  obtain ⟨C, settings, peers, alerts⟩ := p
  obtain rfl : settings = some F := hF
  rcases C with _ | C
  · cases h
  · obtain ⟨hpage, hq⟩ := Prod.mk.inj h
    exact ⟨C, rfl, hpage.symm, (Option.some.inj hq).symm⟩

theorem clickSettings_early {p page : PageState} (h : clickSettings B p = (page, none)) :
    page = { p with alerts := p.alerts ++ [false] } := by
  unfold clickSettings at h
  split at h
  · cases h
  · exact (Prod.mk.inj h).1.symm

section Tasks

variable {P : Task → Prop} {tasks pre post : List Task} {t t' : Task}

theorem mem_tasks (htasks : tasks = pre ++ t :: post) : t ∈ tasks :=
  htasks ▸ List.mem_append_right _ List.mem_cons_self

/-- A task is added. -/
theorem forall_added (h : ∀ u ∈ tasks, P u) (ht : P t) : ∀ u ∈ tasks ++ [t], P u :=
  List.forall_mem_append.mpr ⟨h, List.forall_mem_singleton.mpr ht⟩

/-- A task changes. -/
theorem forall_changed (htasks : tasks = pre ++ t :: post) (h : ∀ u ∈ tasks, P u) (ht' : P t') :
    ∀ u ∈ pre ++ t' :: post, P u := by
  rw [htasks, List.forall_mem_append, List.forall_mem_cons] at h
  rw [List.forall_mem_append, List.forall_mem_cons]
  exact ⟨h.1, ht', h.2.2⟩

/-- A task is done, and `L` goes on with the next one. -/
theorem forall_done {next : Option Load} (htasks : tasks = pre ++ t :: post) (h : ∀ u ∈ tasks, P u)
    (hload : ∀ l, P (loadTask l)) : ∀ u ∈ pre ++ post ++ next.toList.map loadTask, P u := by
  rw [htasks, List.forall_mem_append, List.forall_mem_cons] at h
  rw [List.forall_mem_append, List.forall_mem_append, List.forall_mem_map]
  exact ⟨⟨h.1, h.2.2⟩, fun l _ => hload l⟩

end Tasks

/-- **A step keeps the invariant.** -/
theorem holds_step {x y : Session} {v : Event} (h : Holds H x) (hstep : Step B H x v y) : Holds H y := by
  cases hstep with
  | edit => exact ⟨h.legible, h.hidden, h.object, h.tasks⟩
  | @settings e F page q hform htyped hsound hclick =>
    obtain ⟨C, hC, rfl, rfl⟩ := clickSettings_eq hform hclick
    obtain ⟨s, hs, rfl⟩ := h.object C hC
    rw [collect_typed htyped hsound]
    refine ⟨h.legible, h.hidden, fun C hC => ?_, forall_added h.tasks ⟨hsound, s, hs, rfl⟩⟩
    exact ⟨_, hs.onto hsound, (Option.some.inj hC).symm⟩
  | @peer i d F q hform htyped hsound hclick =>
    unfold clickPeer at hclick
    rw [hform, Option.map_some] at hclick
    obtain rfl := Option.some.inj hclick
    refine ⟨h.legible, h.hidden, h.object, forall_added h.tasks ⟨hsound, ?_⟩⟩
    unfold postPeer rowRequest
    rw [stringify_row htyped hsound]
  | early hclick =>
    rw [clickSettings_early hclick]
    exact ⟨h.legible, h.hidden, h.object, h.tasks⟩
  | @serve w pre post t r a htasks hwaiting hsave hserves =>
    have ht := h.tasks t (mem_tasks htasks)
    obtain ⟨hlegible, hH⟩ := (stored_of_serves ht h.legible hsave hserves).legible ht.sound h.legible
      h.hidden
    exact ⟨hlegible, hH, h.object,
      forall_changed htasks h.tasks (ht.served h.legible h.hidden hserves)⟩
  | fail htasks =>
    exact ⟨h.legible, h.hidden, h.object,
      forall_changed htasks h.tasks (h.tasks _ (mem_tasks htasks)).failed⟩
  | @resume pre post t reply page next htasks hreply hresume =>
    exact ⟨h.legible, h.hidden, h.resume (mem_tasks htasks) hreply hresume,
      forall_done htasks h.tasks taskHolds_load⟩
  | other hlegible hH => exact ⟨hlegible, hH, h.object, h.tasks⟩

theorem holds_of_reachable {x : Session} (h : (sessions B H).Reachable x) : Holds H x :=
  h.invariant (fun _ => holds_init) fun _ _ _ => holds_step

/-- **Each save stores what was typed when it was sent**, or is refused, and what the page does not show
keeps its property. This is so in every session whose requests are served as `Serves` says, whichever
of its saves, loads and answers overlap or are lost, and whatever others do to the device in between. -/
theorem session_saves {x : Session} (h : (sessions B H).Reachable x) :
    Legible x.app.config ∧ H (hiddenOf x.app.config.settings) ∧
      ∀ t ∈ x.tasks, ∀ (w : World) (r : Response) (a : App), SavesSucceed w.store →
        Serves w t.request x.app r a → Stored H w x.app r a t.purpose := by
  have hholds := holds_of_reachable h
  refine ⟨hholds.legible, hholds.hidden, fun t ht w r a hsave hserves => ?_⟩
  exact stored_of_serves (hholds.tasks t ht) hholds.legible hsave hserves

/-! ### A session with a save -/

/-- The host answers a request of `L` that comes in one piece. -/
theorem exists_serves (l : Load) (w : World) (a : App) : ∃ r a', Serves w l.request a r a' := by
  have hwhole : ∀ req : Text, req ≠ [] → ArrivesAs req [req] := fun req hne =>
    ⟨[req], [], rfl, List.append_nil req, fun c hc => List.mem_singleton.mp hc ▸ hne⟩
  cases l with
  | config =>
    exact ⟨_, _, .host .get (complete_getText plainPath_config) (framed_getText plainPath_config)
      (nul_notMem_getText plainPath_config) (by decide) (hwhole _ (by decide))⟩
  | peers =>
    exact ⟨_, _, .host .get (complete_getText plainPath_peers) (framed_getText plainPath_peers)
      (nul_notMem_getText plainPath_peers) (by decide) (hwhole _ (by decide))⟩

/-- A step of the page and of the device in which nobody types and nobody else uses the device. -/
def Event.Unedited : Event → Prop
  | .edit | .other => False
  | _ => True

/-- `L` reads the settings and shows rows. -/
theorem reachable_loaded {M : System Session Event} {a : App} (ha : Legible a.config)
    (hinit : M.init ⟨a, .blank, [loadTask .config]⟩)
    (hstep : ∀ {x y : Session} {v : Event}, v.Unedited → Step B H x v y → M.step x v y) :
    ∃ rows, M.Reachable ⟨a, ⟨some (configObject a.config.settings),
      some (settingsForm B (configObject a.config.settings)), rows, []⟩, []⟩ := by
  have hsave : SavesSucceed World.good.store := fun _ => rfl
  obtain ⟨r, a', hserves⟩ := exists_serves .config World.good a
  obtain ⟨rfl, rfl⟩ := serves_config hserves ha
  have hanswered := (System.Reachable.init hinit).step
    (hstep (v := .serve _ _) trivial (@Step.serve B H _ _ [] [] _ _ _ rfl rfl hsave hserves))
  have hparsed := parseObject_config ha.texts
  have hresume : resume B .blank (.response ⟨200, .json (rawObject (configMembers a'.config.settings))⟩)
      (.load .config) = (⟨some (configObject a'.config.settings), none, [], []⟩, some .peers) := by
    have hok : Reply.okText (.response ⟨200, .json (rawObject (configMembers a'.config.settings))⟩) =
        some (rawObject (configMembers a'.config.settings)) := rfl
    unfold resume
    dsimp only
    rw [hok, Option.bind_some, hparsed]
    rfl
  have hloading := hanswered.step
    (hstep (v := .resume _) trivial (@Step.resume B H _ [] [] _ _ _ _ rfl rfl hresume))
  obtain ⟨r, a, hserves⟩ := exists_serves .peers World.good a'
  obtain ⟨rfl, rfl⟩ := serves_peers hserves ha
  have hrows := hloading.step
    (hstep (v := .serve _ _) trivial (@Step.serve B H _ _ [] [] _ _ _ rfl rfl hsave hserves))
  obtain ⟨rows, hshown⟩ : ∃ rows, resume B ⟨some (configObject a.config.settings), none, [], []⟩
      (.response ⟨200, .json (rawArray (peerObjects a.config))⟩) (.load .peers) =
        (⟨some (configObject a.config.settings),
          some (settingsForm B (configObject a.config.settings)), rows, []⟩, none) := ⟨_, rfl⟩
  have hloaded := hrows.step
    (hstep (v := .resume _) trivial (@Step.resume B H _ [] [] _ _ _ _ rfl rfl hshown))
  exact ⟨rows, hloaded⟩

/-- The byte, if it is a digit. -/
def digit? : JsonChar → Option Byte
  | .byte b => if isdigit b then some b else none
  | .surrogate _ => none

/-- A browser that reads decimal numerals, and inputs as they are written. -/
def plainBrowser : Browser where
  toNumber s :=
    match s.mapM digit? with
    | some t => .finite (.ofNat (numeralValue t))
    | none => .nan
  inputValue s := s

/-- An entry for a fixed address. -/
def fixedEntry : Entry :=
  ⟨networkModeEth, false, str "10.88.0.9", str "10.88.0.1", str "255.255.255.0", str "10.88.0.1",
    str "10.88.0.9", str "bridge", 1900, 1901, 4900⟩

def fixedForm : SettingsForm where
  mode := key "eth"
  dhcpEnabled := false
  input f :=
    plain (((fixedEntry.texts ++ [(str "mqtt_port", str "1900"), (str "fallback_port", str "1901"),
      (str "p2p_port", str "4900")]).lookup f).getD [])

theorem typed_fixedForm : Typed plainBrowser fixedForm fixedEntry where
  mode := rfl
  dhcpEnabled := rfl
  texts := by
    simp only [Entry.texts, List.forall_mem_cons]
    exact ⟨rfl, rfl, rfl, rfl, rfl, rfl, List.forall_mem_nil _⟩
  ports := by
    simp only [Entry.ports, List.forall_mem_cons]
    exact ⟨plusOr_natural (by decide) rfl, plusOr_natural (by decide) rfl,
      plusOr_natural (by decide) rfl, List.forall_mem_nil _⟩

theorem sound_fixedEntry : fixedEntry.Sound where
  mode := Or.inr rfl
  texts := by
    have hcheck : ∀ p ∈ fixedEntry.texts, (PrintableAscii p.2 ∧ ∀ f ∈ configFields, p.2 ≠ f.key) ∧
        p.2.length < fieldBridgeHostMax := by decide
    intro p hp
    obtain ⟨⟨hascii, hkey⟩, hlen⟩ := hcheck p hp
    exact ⟨⟨hascii.plain, hkey⟩, hlen⟩
  ports := by decide

theorem legible_fresh : Legible freshApp.config where
  sound := ⟨settingsSound_default [], fun _ => peerSound_zero⟩
  texts := by
    have hcheck : ∀ t ∈ settingsTexts freshApp.config.settings,
        PrintableAscii t ∧ ∀ f ∈ configFields, t ≠ f.key := by decide
    intro t ht
    obtain ⟨hascii, hkey⟩ := hcheck t ht
    exact ⟨hascii.plain, hkey⟩

/-- What a new device has of the settings that are not on the page. -/
def freshHidden : Hidden := hiddenOf freshApp.config.settings

theorem session_saves_fixed : ∃ x t, (sessions plainBrowser (· = freshHidden)).Reachable x ∧
    t ∈ x.tasks ∧ t.purpose = .settings fixedEntry ∧
      ∀ (w : World) (r : Response) (a : App), SavesSucceed w.store → Serves w t.request x.app r a →
        ∃ s, hiddenOf s = freshHidden ∧ SettingsStored (fixedEntry.onto s) x.app r a := by
  obtain ⟨rows, hloaded⟩ := @reachable_loaded plainBrowser (· = freshHidden)
    (sessions plainBrowser (· = freshHidden)) _ legible_fresh ⟨legible_fresh, rfl, rfl, rfl⟩
    fun _ h => h
  have hedited := hloaded.step (@Step.edit _ _ _ fixedForm rows rfl rfl)
  have hclicked := hedited.step (.settings rfl typed_fixedForm sound_fixedEntry rfl)
  refine ⟨_, _, hclicked, List.mem_singleton_self _, rfl, fun w r a hsave hserves => ?_⟩
  obtain ⟨s, hs, hstored⟩ :=
    (session_saves hclicked).2.2 _ (List.mem_singleton_self _) w r a hsave hserves
  exact ⟨s, hs.hidden, hstored⟩

end MqttFieldBridge.Web
