import MqttFieldBridge.Config.Atomic
import MqttFieldBridge.Http.Host

/-! # What a request does to the configuration

Whatever a request is, and whichever handler it reaches, all it does to the configuration is at most
one operation, and which one is decided by its path, its body and the configuration before it
(`postOp`). -/

namespace MqttFieldBridge.Http

open MqttFieldBridge.CLib MqttFieldBridge.Config MqttFieldBridge.Runtime

/-- The operation of a POST to `/config`: none if the body asks for the settings there are. -/
def configOp (longBits : ℕ) (body : Text) (c : ConfigState) : Option ConfigOp :=
  match configCandidate longBits body c.settings with
  | none => none
  | some n => if n = c.settings then none else some (.setSettings n)

/-- The operation of a POST to the slot `index`. -/
def peerOp (longBits : ℕ) (index : ℤ) (body : Text) (c : ConfigState) : Option ConfigOp :=
  (productConfigGetPeer index c).map fun p => .setPeer index (peerCandidate longBits body p)

/-- The operation of a POST. -/
def postOp (longBits : ℕ) (path body : Text) (c : ConfigState) : Option ConfigOp :=
  if path = str "/config" then configOp longBits body c
  else if peersPath <+: path then peerOp longBits (atoi longBits (path.drop 7)) body c
  else if path = str "/broker/control" then none
  else if path = str "/publish-test" then none
  else if path = str "/config/reset" then some .resetAll
  else none

/-- The operation of a request to the host. -/
def requestOp (longBits : ℕ) (req : Text) (c : ConfigState) : Option ConfigOp :=
  match scanRequestLine req with
  | none => none
  | some (method, rawPath) =>
    if method = str "POST" then postOp longBits (requestPath rawPath) (requestBody req) c else none

/-- The operation of a call of the firmware's handler. -/
def callbackOp (longBits : ℕ) (client : HttpClient) (status : HttpTransactionStatus)
    (data : List Byte) (z : ZephyrState) : Option ConfigOp :=
  if status = .requestDataFinal ∧ client.method = .post ∧
      (zephyrAcquireBuffers client.id z.buffers).isSome ∧ data.length < reqBufSize then
    postOp longBits (stripQuery (client.urlBuffer.take 127)) (cstr data) z.app.config
  else none

variable {w : World} {path body : Text} {a : App}

theorem postConfig_config : (postConfig w body a).app.config =
    afterOp w.store w.deviceId (configOp w.longBits body a.config) a.config := by
  rw [postConfig_app]
  unfold configOp
  rcases hc : configCandidate w.longBits body a.config.settings with _ | n
  · exact congrArg Prod.snd (applyConfigJson_of_none hc)
  · by_cases hn : n = a.config.settings
    · simp only [if_pos hn]
      rw [hn] at hc
      exact congrArg Prod.snd (applyConfigJson_of_same hc)
    · simp only [if_neg hn]
      exact congrArg Prod.snd (applyConfigJson_of_new hc hn)

theorem postPeer_config {index : ℤ} : (postPeer w index body a).app.config =
    afterOp w.store w.deviceId (peerOp w.longBits index body a.config) a.config := by
  rw [postPeer_app]
  unfold applyPeerJson peerOp
  rcases productConfigGetPeer index a.config with _ | p
  · rfl
  · dsimp only
    split_ifs
    · rfl
    · exact applyPeers_config.1

theorem postBrokerControl_config : (postBrokerControl w body a).app.config = a.config := by
  obtain ⟨runtime, -, happ⟩ := @postBrokerControl_app w body a
  rw [happ]

theorem postPublishTest_config : (postPublishTest w body a).app.config = a.config := by
  obtain ⟨runtime, -, happ⟩ := @postPublishTest_app w body a
  rw [happ]

theorem postConfigReset_config : (postConfigReset w a).app.config =
    afterOp w.store w.deviceId (some .resetAll) a.config := by
  rw [postConfigReset_app]
  rfl

theorem postRoute_config : (postRoute w path body a).app.config =
    afterOp w.store w.deviceId (postOp w.longBits path body a.config) a.config := by
  unfold postRoute postOp
  split_ifs
  · exact postConfig_config
  · exact postPeer_config
  · exact postBrokerControl_config
  · exact postPublishTest_config
  · exact postConfigReset_config
  · rfl
  · rfl

/-! ### What a handler does to the device -/

/-- The host either answers a POST by its route, or does nothing or what a GET does. -/
theorem handleRequest_cases (w : World) (req : Text) (a : App) :
    (∃ rawPath, scanRequestLine req = some (str "POST", rawPath) ∧ handleRequest w req a =
        { postRoute w (requestPath rawPath) (requestBody req) a with reboot := false }) ∨
      ((∀ rawPath, scanRequestLine req ≠ some (str "POST", rawPath)) ∧
        ((handleRequest w req a).app = a ∨
          ∃ path, (handleRequest w req a).app = (getRoute w hostRespBufSize path a).2)) := by
  rw [handleRequest_route]
  rcases scanRequestLine req with _ | ⟨method, rawPath⟩
  · exact Or.inr ⟨nofun, Or.inl rfl⟩
  dsimp only
  by_cases hpost : method = str "POST"
  · have hget : method ≠ str "GET" := by
      rw [hpost]
      decide
    rw [if_neg hget, if_pos hpost]
    exact Or.inl ⟨rawPath, by rw [hpost], rfl⟩
  · refine Or.inr ⟨fun p h => hpost (Prod.mk.inj (Option.some.inj h)).1, ?_⟩
    rw [if_neg hpost]
    rw [hostGet_route]
    split_ifs
    · exact Or.inl rfl
    · rcases getSubject (requestPath rawPath) with _ | subject
      · exact Or.inl rfl
      · dsimp only
        split_ifs
        · exact Or.inr ⟨_, rfl⟩
        · exact Or.inr ⟨_, rfl⟩
    · exact Or.inl rfl

theorem requestOp_of_post {longBits : ℕ} {req rawPath : Text} {c : ConfigState}
    (h : scanRequestLine req = some (str "POST", rawPath)) :
    requestOp longBits req c = postOp longBits (requestPath rawPath) (requestBody req) c := by
  unfold requestOp
  rw [h]
  rfl

theorem requestOp_of_not {longBits : ℕ} {req : Text} {c : ConfigState}
    (h : ∀ rawPath, scanRequestLine req ≠ some (str "POST", rawPath)) :
    requestOp longBits req c = none := by
  unfold requestOp
  rcases hscan : scanRequestLine req with _ | ⟨method, rawPath⟩
  · rfl
  · refine if_neg fun hpost => h rawPath ?_
    rw [hscan, hpost]

/-- A call of the firmware's handler reaches the POST routes. -/
def CallbackPosts (client : HttpClient) (status : HttpTransactionStatus) (data : List Byte)
    (z : ZephyrState) : Prop :=
  status = .requestDataFinal ∧ client.method = .post ∧
    (zephyrAcquireBuffers client.id z.buffers).isSome ∧ data.length < reqBufSize

/-- The firmware's handler either answers a POST by its route, or does nothing or what a GET does. -/
theorem zephyrDynamicHandler_cases (w : World) (client : HttpClient)
    (status : HttpTransactionStatus) (data : List Byte) (z : ZephyrState) :
    let r := zephyrDynamicHandler w client status data z
    let path := stripQuery (client.urlBuffer.take 127)
    (CallbackPosts client status data z ∧
        r.state.app = (postRoute w path (cstr data) z.app).app ∧
        r.response = some (postRoute w path (cstr data) z.app).response) ∨
      (¬ CallbackPosts client status data z ∧
        (r.state.app = z.app ∨ r.state.app = (getRoute w respBufSize path z.app).2)) := by
  dsimp only
  have hnot : status ≠ .requestDataFinal → ¬ CallbackPosts client status data z := fun h hp => h hp.1
  cases status with
  | transactionAborted => exact Or.inr ⟨hnot nofun, Or.inl rfl⟩
  | transactionComplete => exact Or.inr ⟨hnot nofun, Or.inl rfl⟩
  | requestDataMore => exact Or.inr ⟨hnot nofun, Or.inl rfl⟩
  | requestDataFinal =>
    unfold zephyrDynamicHandler CallbackPosts
    dsimp only
    split
    · rename_i hindex
      exact Or.inr ⟨fun h => absurd (hindex.1.symm.trans h.2.1) nofun, Or.inl rfl⟩
    rcases zephyrAcquireBuffers client.id z.buffers with _ | ⟨i, buffers⟩
    · exact Or.inr ⟨fun h => absurd h.2.2.1 nofun, Or.inl rfl⟩
    rcases hm : client.method with _ | _ | _
    · refine Or.inr ⟨fun h => absurd h.2.1 nofun, Or.inr ?_⟩
      dsimp only
      split_ifs
      · rfl
      · rfl
    · dsimp only
      rw [zephyrPost_route]
      by_cases hlen : data.length ≥ reqBufSize
      · have hcopy : zephyrCopyRequestBody data (buffers i).request = none := if_pos hlen
        rw [hcopy]
        exact Or.inr ⟨fun h => absurd h.2.2.2 (not_lt.mpr hlen), Or.inl rfl⟩
      · obtain ⟨r, hr⟩ : ∃ r, zephyrCopyRequestBody data (buffers i).request = some r :=
          ⟨_, if_neg hlen⟩
        rw [hr]
        dsimp only
        rw [zephyrCopyRequestBody_text hr]
        exact Or.inl ⟨⟨rfl, rfl, rfl, not_le.mp hlen⟩, rfl, rfl⟩
    · exact Or.inr ⟨fun h => absurd h.2.1 nofun, Or.inl rfl⟩

/-- **A request to the host** runs at most its own operation. -/
theorem handleRequest_config {req : Text} : (handleRequest w req a).app.config =
    afterOp w.store w.deviceId (requestOp w.longBits req a.config) a.config := by
  rcases handleRequest_cases w req a with ⟨rawPath, hline, h⟩ | ⟨hline, h⟩
  · rw [h, requestOp_of_post hline]
    exact postRoute_config
  · rw [requestOp_of_not hline]
    rcases h with h | ⟨path, h⟩
    · rw [h]
      rfl
    · rw [h]
      exact getRoute_frame.1

/-- **A call of the firmware's handler** runs at most its own operation. -/
theorem zephyrDynamicHandler_config {client : HttpClient} {status : HttpTransactionStatus}
    {data : List Byte} {z : ZephyrState} :
    (zephyrDynamicHandler w client status data z).state.app.config =
      afterOp w.store w.deviceId (callbackOp w.longBits client status data z) z.app.config := by
  rcases zephyrDynamicHandler_cases w client status data z with ⟨hp, happ, -⟩ | ⟨hp, happ⟩
  · rw [show callbackOp w.longBits client status data z = _ from if_pos hp, happ]
    exact postRoute_config
  · rw [show callbackOp w.longBits client status data z = none from if_neg hp]
    rcases happ with happ | happ
    · rw [happ]
      rfl
    · rw [happ]
      exact getRoute_frame.1

end MqttFieldBridge.Http
