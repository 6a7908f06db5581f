import MqttFieldBridge.Http.Zephyr
import MqttFieldBridge.Lts.Pool

/-! # The buffer slots of the firmware's handler

What the server sends may still be read from a response buffer when the next client calls, so a slot
belongs to its client until the transaction ends. `SlotStep` says all that one call of the handler does
to the slots; the owners are then a pool in the sense of `IsPool`, and `slots_safe` is what follows for
any sequence of calls. Between two calls the device may do anything else. -/

namespace MqttFieldBridge.Http

open MqttFieldBridge.CLib MqttFieldBridge.Config MqttFieldBridge.Runtime MqttFieldBridge.Lts

abbrev BufferSlots := Fin zephyrHttpBufferSlots → ZephyrHttpBuffers

/-- A call of the handler, in the world and with the device as they are then. -/
structure HandlerCall where
  world : World
  app : App
  client : HttpClient
  status : HttpTransactionStatus
  data : List Byte

def HandlerCall.result (c : HandlerCall) (slots : BufferSlots) : ZephyrResult :=
  zephyrDynamicHandler c.world c.client c.status c.data ⟨c.app, slots⟩

/-- The slots after the calls, which are free at first. -/
def slotsAfter (calls : List HandlerCall) : BufferSlots :=
  calls.foldl (fun slots c => (c.result slots).state.buffers) fun _ => .zero

/-- The call ends the transaction of its client. -/
def HandlerCall.Ends (c : HandlerCall) : Prop :=
  c.status = .transactionAborted ∨ c.status = .transactionComplete

/-- The call is a request for the page, which takes no slot. -/
def HandlerCall.Page (c : HandlerCall) : Prop :=
  c.client.method = .get ∧ (stripQuery (c.client.urlBuffer.take 127) = str "/" ∨
    stripQuery (c.client.urlBuffer.take 127) = str "/index.html")

theorem slotsAfter_concat (calls : List HandlerCall) (c : HandlerCall) :
    slotsAfter (calls ++ [c]) = (c.result (slotsAfter calls)).state.buffers := by
  simp [slotsAfter, List.foldl_append]

/-! ### What one call does to the slots -/

inductive SlotStep (c : HandlerCall) (s : BufferSlots) : BufferSlots → Prop
  | same (h : c.Ends → ∀ i, (s i).client ≠ some c.client.id) : SlotStep c s s
  /-- A final request uses the slot of its client, or takes a free one. -/
  | serve (i : Fin zephyrHttpBufferSlots) (request : CharArray reqBufSize)
      (response : CharArray respBufSize) (hfinal : c.status = .requestDataFinal)
      (hown : (s i).client = some c.client.id ∨
        ((s i).client = none ∧ ∀ j, (s j).client ≠ some c.client.id)) :
      SlotStep c s (Function.update s i ⟨some c.client.id, request, response⟩)
  | release (i : Fin zephyrHttpBufferSlots) (hends : c.Ends)
      (hown : (s i).client = some c.client.id) : SlotStep c s (Function.update s i .zero)

section Step

variable {s : BufferSlots} {client : Option ℕ}

theorem ownedSlot_some {i : Fin zephyrHttpBufferSlots} (h : ownedSlot client s = some i) :
    (s i).client = client := by
  simpa using List.find?_some h

theorem ownedSlot_none (h : ownedSlot client s = none) (i : Fin zephyrHttpBufferSlots) :
    (s i).client ≠ client := by
  have hall := List.find?_eq_none.mp h i (List.mem_finRange i)
  simpa using hall

/-- The slot that is acquired: the client's own, or a free one if it has none. -/
theorem zephyrAcquireBuffers_some {k : ℕ} {i : Fin zephyrHttpBufferSlots} {s' : BufferSlots}
    (h : zephyrAcquireBuffers k s = some (i, s')) :
    ((s i).client = some k ∨ ((s i).client = none ∧ ∀ j, (s j).client ≠ some k)) ∧
      (s' i).client = some k ∧ ∃ slot, s' = Function.update s i slot := by
  unfold zephyrAcquireBuffers at h
  split at h
  · rename_i j hj
    obtain ⟨rfl, rfl⟩ := Prod.mk.inj (Option.some.inj h)
    have hown := ownedSlot_some hj
    exact ⟨Or.inl hown, hown, s j, (Function.update_eq_self j s).symm⟩
  · rename_i hnone
    obtain ⟨j, hj, he⟩ := Option.map_eq_some_iff.mp h
    obtain ⟨rfl, rfl⟩ := Prod.mk.inj he
    refine ⟨Or.inr ⟨ownedSlot_some hj, ownedSlot_none hnone⟩, ?_, _, rfl⟩
    rw [Function.update_self]

/-- No slot is acquired only if every slot has another owner. -/
theorem zephyrAcquireBuffers_none {k : ℕ} (h : zephyrAcquireBuffers k s = none)
    (i : Fin zephyrHttpBufferSlots) : ∃ k', k' ≠ k ∧ (s i).client = some k' := by
  unfold zephyrAcquireBuffers at h
  split at h
  · cases h
  · rename_i hnone
    have hbusy := ownedSlot_none (Option.map_eq_none_iff.mp h) i
    obtain ⟨k', hk'⟩ := Option.ne_none_iff_exists'.mp hbusy
    refine ⟨k', ?_, hk'⟩
    rintro rfl
    exact ownedSlot_none hnone i hk'

theorem result_of_ends {c : HandlerCall} (h : c.Ends) :
    c.result s = ⟨none, ⟨c.app, zephyrReleaseBuffers c.client.id s⟩, false⟩ := by
  unfold HandlerCall.result zephyrDynamicHandler
  rcases h with h | h
  · rw [h]
  · rw [h]

theorem result_of_page {c : HandlerCall} (h : c.status = .requestDataFinal) (hp : c.Page) :
    c.result s = ⟨some ⟨200, .indexHtml⟩, ⟨c.app, s⟩, false⟩ := by
  unfold HandlerCall.result zephyrDynamicHandler
  rw [h]
  exact if_pos hp

theorem result_of_busy {c : HandlerCall} (h : c.status = .requestDataFinal) (hp : ¬ c.Page)
    (hb : zephyrAcquireBuffers c.client.id s = none) :
    c.result s = ⟨some ⟨503, .json (errorBody (str "low memory"))⟩, ⟨c.app, s⟩, false⟩ := by
  unfold HandlerCall.Page at hp
  unfold HandlerCall.result zephyrDynamicHandler
  rw [h]
  dsimp only
  rw [if_neg hp, hb]

/-- What a request that has a slot leaves in it. -/
theorem result_of_slot {c : HandlerCall} {i : Fin zephyrHttpBufferSlots} {s' : BufferSlots}
    (h : c.status = .requestDataFinal) (hp : ¬ c.Page)
    (hs : zephyrAcquireBuffers c.client.id s = some (i, s')) : ∃ request response,
      (c.result s).state.buffers = Function.update s' i ⟨(s' i).client, request, response⟩ := by
  have hself : s' = Function.update s' i ⟨(s' i).client, (s' i).request, (s' i).response⟩ :=
    (Function.update_eq_self i s').symm
  unfold HandlerCall.Page at hp
  unfold HandlerCall.result zephyrDynamicHandler
  rw [h]
  dsimp only
  rw [if_neg hp, hs]
  dsimp only
  split
  · split_ifs
    · exact ⟨_, _, rfl⟩
    · exact ⟨_, _, rfl⟩
  · rw [zephyrPost_route]
    split
    · exact ⟨_, _, hself⟩
    · rename_i request _
      obtain ⟨response, hslot⟩ := slotAfterPost_kept (stripQuery (c.client.urlBuffer.take 127))
        (postRoute c.world (stripQuery (c.client.urlBuffer.take 127)) request.text c.app).response
        { s' i with request := request }
      exact ⟨request, response, congrArg (Function.update s' i) hslot⟩
  · exact ⟨_, _, hself⟩

/-- **One call of the handler.** -/
theorem slotStep_result (c : HandlerCall) (s : BufferSlots) :
    SlotStep c s (c.result s).state.buffers := by
  by_cases hends : c.Ends
  · rw [result_of_ends hends]
    unfold zephyrReleaseBuffers
    dsimp only
    split
    · rename_i i hi
      exact .release i hends (ownedSlot_some hi)
    · rename_i hnone
      exact .same fun _ => ownedSlot_none hnone
  have hsame : SlotStep c s s := .same fun h => absurd h hends
  rcases hstatus : c.status with _ | _ | _ | _
  · exact absurd (Or.inl hstatus) hends
  · exact absurd (Or.inr hstatus) hends
  · have hres : c.result s = ⟨none, ⟨c.app, s⟩, false⟩ := by
      unfold HandlerCall.result zephyrDynamicHandler
      rw [hstatus]
    rw [hres]
    exact hsame
  · by_cases hp : c.Page
    · rw [result_of_page hstatus hp]
      exact hsame
    rcases hacq : zephyrAcquireBuffers c.client.id s with _ | ⟨i, s'⟩
    · rw [result_of_busy hstatus hp hacq]
      exact hsame
    · obtain ⟨hown, hclient, slot, rfl⟩ := zephyrAcquireBuffers_some hacq
      obtain ⟨request, response, hres⟩ := result_of_slot hstatus hp hacq
      rw [hclient, Function.update_idem] at hres
      rw [hres]
      exact .serve i request response hstatus hown

/-- A slot that another client owns is not touched. -/
theorem SlotStep.frame {c : HandlerCall} {s' : BufferSlots} (h : SlotStep c s s')
    {i : Fin zephyrHttpBufferSlots} {k : ℕ} (hk : (s i).client = some k)
    (hne : c.client.id ≠ k) : s' i = s i := by
  have hother : (s i).client ≠ some c.client.id := by
    rw [hk]
    exact fun h => hne (Option.some.inj h).symm
  cases h with
  | same => rfl
  | serve j request response hfinal hown =>
    refine Function.update_of_ne ?_ _ _
    rintro rfl
    rcases hown with hown | ⟨hfree, -⟩
    · exact hother hown
    · rw [hk] at hfree
      cases hfree
  | release j hends hown =>
    refine Function.update_of_ne ?_ _ _
    rintro rfl
    exact hother hown

end Step

/-! ### The owners are a pool -/

/-- Who asks for a slot, and who ends. -/
def handlerPool : PoolCalls ℕ HandlerCall where
  client c := c.client.id
  asks c := c.status = .requestDataFinal
  ends := HandlerCall.Ends

/-- The owner of a slot after the calls. -/
def owners (calls : List HandlerCall) (i : Fin zephyrHttpBufferSlots) : Option ℕ :=
  (slotsAfter calls i).client

/-- The owner of a slot after another has been overwritten. -/
theorem client_update (s : BufferSlots) (i : Fin zephyrHttpBufferSlots) (slot : ZephyrHttpBuffers) :
    (fun j => (Function.update s i slot j).client) =
      Function.update (fun j => (s j).client) i slot.client := by
  funext j
  by_cases hj : j = i
  · rw [hj, Function.update_self, Function.update_self]
  · rw [Function.update_of_ne hj, Function.update_of_ne hj]

theorem SlotStep.poolStep {c : HandlerCall} {s s' : BufferSlots} (h : SlotStep c s s') :
    PoolStep handlerPool (fun i => (s i).client) c (fun i => (s' i).client) := by
  cases h with
  | same h => exact .same h
  | serve i request response hfinal hown =>
    have hends : ¬ c.Ends := by
      rintro (h | h)
      · rw [hfinal] at h
        cases h
      · rw [hfinal] at h
        cases h
    rw [client_update]
    rcases hown with hown | ⟨hfree, hnew⟩
    · have hsame : Function.update (fun j => (s j).client) i (some c.client.id) =
          fun j => (s j).client := by
        rw [← hown]
        exact Function.update_eq_self i _
      rw [hsame]
      exact .same fun h => absurd h hends
    · exact .acquire i hfinal hends hfree hnew
  | release i hends hown =>
    rw [client_update]
    exact .release i hends hown

/-- **The owners of the slots are a pool.** -/
theorem isPool_owners : IsPool handlerPool owners where
  nil _ := rfl
  step calls c := by
    have hstep := (slotStep_result c (slotsAfter calls)).poolStep
    rw [← slotsAfter_concat] at hstep
    exact hstep

/-- A slot without an owner is as `memset` leaves it. -/
theorem slotsAfter_of_free (calls : List HandlerCall) :
    ∀ i, owners calls i = none → slotsAfter calls i = .zero := by
  induction calls using List.reverseRecOn with
  | nil => exact fun _ _ => rfl
  | append_singleton calls c ih =>
    intro i hi
    have hstep := slotStep_result c (slotsAfter calls)
    rw [← slotsAfter_concat] at hstep
    unfold owners at hi
    generalize slotsAfter (calls ++ [c]) = s' at hi hstep
    cases hstep with
    | same => exact ih i hi
    | serve j request response hfinal hown =>
      by_cases hij : i = j
      · rw [hij, Function.update_self] at hi
        cases hi
      · rw [Function.update_of_ne hij] at hi ⊢
        exact ih i hi
    | release j hends hown =>
      by_cases hij : i = j
      · rw [hij, Function.update_self]
      · rw [Function.update_of_ne hij] at hi ⊢
        exact ih i hi

/-! ### Who is answered 503 -/

theorem badRequest_status {error : String} {a : App} :
    (badRequest error a).response.status ≠ 503 := show (400 : ℕ) ≠ 503 by decide

theorem accepted_status {status : String} {a : App} :
    (accepted status a).response.status ≠ 503 := show (200 : ℕ) ≠ 503 by decide

/-- The routes behind the buffers answer 200, 400 or 404. -/
theorem postRoute_status {w : World} {path body : Text} {a : App} :
    (postRoute w path body a).response.status ≠ 503 := by
  unfold postRoute
  split_ifs
  · unfold postConfig
    dsimp only
    split
    · exact badRequest_status
    · show (200 : ℕ) ≠ 503
      decide
  · unfold postPeer
    dsimp only
    split_ifs
    · exact badRequest_status
    · exact accepted_status
  · unfold postBrokerControl
    split
    · exact badRequest_status
    · dsimp only
      split_ifs
      · exact badRequest_status
      · exact accepted_status
  · unfold postPublishTest
    split
    · exact badRequest_status
    · dsimp only
      split_ifs
      · exact badRequest_status
      · exact accepted_status
  · unfold postConfigReset
    dsimp only
    split_ifs
    · exact badRequest_status
    · exact accepted_status
  · exact @accepted_status "rebooting" a
  · show (404 : ℕ) ≠ 503
    decide

/-- The status of the answer, if there is one. -/
def ZephyrResult.status (r : ZephyrResult) : Option ℕ := r.response.map Response.status

theorem zephyrPost_status {w : World} {path : Text} {data : List Byte}
    {i : Fin zephyrHttpBufferSlots} {z : ZephyrState} :
    (zephyrPost w path data i z).status ≠ some 503 := by
  rw [zephyrPost_route]
  split
  · show some 400 ≠ some 503
    decide
  · exact fun h => postRoute_status (Option.some.inj h)

/-- 503 is answered only to a client without a slot while every slot has another owner. -/
theorem busy_of_503 {c : HandlerCall} {s : BufferSlots} (h : (c.result s).status = some 503)
    (i : Fin zephyrHttpBufferSlots) : ∃ k, k ≠ c.client.id ∧ (s i).client = some k := by
  rcases hacq : zephyrAcquireBuffers c.client.id s with _ | ⟨j, s'⟩
  · exact zephyrAcquireBuffers_none hacq i
  · refine absurd h ?_
    unfold HandlerCall.result zephyrDynamicHandler
    split
    · exact nofun
    · exact nofun
    · exact nofun
    · dsimp only
      split
      · show some 200 ≠ some 503
        decide
      · rw [hacq]
        dsimp only
        split
        · split
          · show some 200 ≠ some 503
            decide
          · show some 404 ≠ some 503
            decide
        · exact zephyrPost_status
        · show some 404 ≠ some 503
          decide

/-! ### Any sequence of calls -/

/-- What holds of the slots after some calls, and of the next call. -/
structure SlotsSafe (calls : List HandlerCall) : Prop where
  /-- No client owns two slots. -/
  oneSlot : ∀ i j k, owners calls i = some k → owners calls j = some k → i = j
  /-- Calls of other clients do not touch a slot. -/
  untouched : ∀ i k c, owners calls i = some k → c.client.id ≠ k →
    slotsAfter (calls ++ [c]) i = slotsAfter calls i
  /-- It is owned until its owner ends. -/
  stays : ∀ i k c, owners calls i = some k → (c.client.id = k → ¬ c.Ends) →
    owners (calls ++ [c]) i = some k
  /-- Who is answered 503 has no slot, and others hold them all. -/
  busy : ∀ c : HandlerCall, (c.result (slotsAfter calls)).status = some 503 →
    ∀ i, owners calls i ≠ some c.client.id ∧
      ∃ k, k ≠ c.client.id ∧ owners calls i = some k ∧ HeldSince handlerPool owners calls i k
  /-- Once every client has ended, every slot is free, and as it was at first. -/
  freed : (∀ pre c post, calls = pre ++ c :: post → c.status = .requestDataFinal →
    ∃ d ∈ post, d.client.id = c.client.id ∧ d.Ends) → slotsAfter calls = fun _ => .zero

/-- **Slots are never shared and never lost.** -/
theorem slots_safe (calls : List HandlerCall) : SlotsSafe calls where
  oneSlot := isPool_owners.unique calls
  untouched i k c hk hne := by
    rw [slotsAfter_concat]
    exact (slotStep_result c (slotsAfter calls)).frame hk hne
  stays i k c hk hends := (isPool_owners.step calls c).stays hk hends
  busy c h i := by
    obtain ⟨k, hne, hk⟩ := busy_of_503 h i
    refine ⟨fun hown => hne (Option.some.inj (hk.symm.trans hown)), k, hne, hk, ?_⟩
    exact isPool_owners.held hk
  freed h := by
    funext i
    exact slotsAfter_of_free calls i (isPool_owners.free h i)

end MqttFieldBridge.Http
