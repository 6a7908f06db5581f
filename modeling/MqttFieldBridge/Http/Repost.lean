import MqttFieldBridge.Http.Effects

/-! # Posting the same settings again

A reader of a string either leaves its buffer alone or writes a C string of the body over the first
bytes of it, and which of the two does not depend on the buffer (`jsonGetString_cases`). So a body
asks for the same settings when it is posted again (`newSettings_newSettings`), and over buffers that
hold a NUL the settings of before differ from these byte by byte only if a field differs
(`newSettings_eq_iff`): the comparison of whole structures in `apply_config_json` is one of fields. -/

namespace MqttFieldBridge.Http

open MqttFieldBridge.CLib MqttFieldBridge.Config MqttFieldBridge.Runtime

/-! ### One string -/

theorem strchr_isSuffix {b : Byte} : ∀ {l r : Text}, strchr l b = some r → r <:+ l
  | [], r, h => by cases h
  | c :: cs, r, h => by
    unfold strchr at h
    split_ifs at h
    · rw [Option.some.injEq] at h
      exact h ▸ List.suffix_rfl
    · exact (strchr_isSuffix h).trans (List.suffix_cons c cs)

/-- The text a reader of a string decodes is part of the body. -/
theorem mem_of_value {body key value : Text} {p : Text} (hp : jsonFindKey body key = some p)
    (hv : (afterChr p colon).map skipSpace = some value) : ∀ b ∈ value, b ∈ body := by
  obtain ⟨r, hr, rfl⟩ := Option.map_eq_some_iff.mp hv
  obtain ⟨q, hq, rfl⟩ := Option.map_eq_some_iff.mp hr
  intro b hb
  have htail : b ∈ q.tail := (List.dropWhile_suffix isspace).subset hb
  have hq' : b ∈ p := (strchr_isSuffix hq).subset (List.mem_of_mem_tail htail)
  exact (strstr_isSuffix hp).subset hq'

/-- What is copied is part of the text. -/
theorem mem_copyLoop : ∀ (room : ℕ) (p : Text), ∀ b ∈ (copyLoop room p).1, b ∈ p
  | 0, p, b, hb => by simp [copyLoop] at hb
  | _ + 1, [], b, hb => by simp [copyLoop] at hb
  | room + 1, c :: cs, b, hb => by
    have hnext : (nextByte c cs).1 ∈ c :: cs ∧ ∀ x ∈ (nextByte c cs).2, x ∈ c :: cs := by
      unfold nextByte
      rcases cs with _ | ⟨d, ds⟩
      · simp
      · dsimp only
        split_ifs
        · exact ⟨by simp, fun x hx => by simp [hx]⟩
        · exact ⟨by simp, fun x hx => by simp at hx ⊢; simp [hx]⟩
    unfold copyLoop at hb
    split_ifs at hb
    · simp at hb
    · rcases List.mem_cons.mp hb with rfl | hb
      · exact hnext.1
      · exact hnext.2 b (mem_copyLoop room _ b hb)

/-- What a reader of a string does to its buffer, whatever that holds. -/
theorem jsonGetString_cases {body : Text} (h0 : 0 ∉ body) (key : Text) (n : ℕ) :
    ∃ rc, (∀ out : CharArray n, jsonGetString body key out = (rc, out)) ∨
      ∃ t : Text, 0 ∉ t ∧ t.length < n ∧
        ∀ out : CharArray n, jsonGetString body key out = (rc, out.write (t ++ [0])) := by
  rcases hkey : jsonFindKey body key with _ | p
  · refine ⟨.err, Or.inl fun out => ?_⟩
    simp only [jsonGetString, hkey]
  by_cases hn : n = 0
  · refine ⟨.err, Or.inl fun out => ?_⟩
    simp only [jsonGetString, hkey, if_pos hn]
  rcases hvalue : (afterChr p colon).map skipSpace with _ | (_ | ⟨c, r⟩)
  · refine ⟨.err, Or.inl fun out => ?_⟩
    simp only [jsonGetString, hkey, if_neg hn, hvalue]
  · refine ⟨.err, Or.inl fun out => ?_⟩
    simp only [jsonGetString, hkey, if_neg hn, hvalue]
  by_cases hc : c = quote
  · refine ⟨if (copyLoop (n - 1) r).2.head? = some quote then .ok else .err, Or.inr
      ⟨(copyLoop (n - 1) r).1, fun hmem => ?_, ?_, fun out => ?_⟩⟩
    · have hr : (0 : Byte) ∈ c :: r := List.mem_cons_of_mem c (mem_copyLoop _ _ _ hmem)
      exact h0 (mem_of_value hkey hvalue 0 hr)
    · have hlen := length_copyLoop (n - 1) r
      omega
    · simp only [jsonGetString, hkey, if_neg hn, hvalue, if_pos hc]
  · refine ⟨.err, Or.inl fun out => ?_⟩
    simp only [jsonGetString, hkey, if_neg hn, hvalue, if_neg hc]

variable {body : Text} {n : ℕ}

/-- Whether a string is read does not depend on the buffer. -/
theorem jsonGetString_fst (h0 : 0 ∉ body) (key : Text) (a b : CharArray n) :
    (jsonGetString body key a).1 = (jsonGetString body key b).1 := by
  obtain ⟨rc, h | ⟨t, -, -, h⟩⟩ := jsonGetString_cases h0 key n
  · rw [h, h]
  · rw [h, h]

/-- Writing a string twice. -/
theorem write_write {a : CharArray n} {t : Text} (hl : t.length < n) (h0 : 0 ∉ t) :
    (a.write (t ++ [0])).write (t ++ [0]) = a.write (t ++ [0]) :=
  (CharArray.write_eq_self_iff h0 hl).mpr
    ⟨CharArray.terminated_write hl, CharArray.text_write h0 hl⟩

/-- Reading a string twice. -/
theorem jsonGetString_again (h0 : 0 ∉ body) (key : Text) (out : CharArray n) :
    (jsonGetString body key (jsonGetString body key out).2).2 = (jsonGetString body key out).2 := by
  obtain ⟨rc, h | ⟨t, ht, hlen, h⟩⟩ := jsonGetString_cases h0 key n
  · rw [h, h]
  · rw [h, h]
    exact write_write hlen ht

/-- A string that is read is the one that was there, or the buffer differs. -/
theorem jsonGetString_eq_iff (h0 : 0 ∉ body) (key : Text) {out : CharArray n}
    (hterm : out.Terminated) :
    (jsonGetString body key out).2 = out ↔ (jsonGetString body key out).2.text = out.text := by
  obtain ⟨rc, h | ⟨t, ht, hlen, h⟩⟩ := jsonGetString_cases h0 key n
  · rw [h]
    exact iff_of_true rfl rfl
  · rw [h, CharArray.write_eq_self_iff ht hlen, CharArray.text_write ht hlen]
    exact ⟨fun heq => heq.2.symm, fun heq => ⟨hterm, heq.symm⟩⟩

/-! ### The settings -/

/-- The settings hold the same values; of a string that is what stands before its NUL. -/
structure SameFields (s t : FieldBridgeSettings) : Prop where
  deviceName : s.system.deviceName.text = t.system.deviceName.text
  deviceIp : s.network.deviceIp.text = t.network.deviceIp.text
  gateway : s.network.gateway.text = t.network.gateway.text
  netmask : s.network.netmask.text = t.network.netmask.text
  dns : s.network.dns.text = t.network.dns.text
  dhcpEnabled : s.network.dhcpEnabled = t.network.dhcpEnabled
  mode : s.network.mode = t.network.mode
  brokerIp : s.broker.brokerIp.text = t.broker.brokerIp.text
  siteId : s.broker.siteId.text = t.broker.siteId.text
  topicPrefix : s.broker.topicPrefix.text = t.broker.topicPrefix.text
  mqttPort : s.broker.mqttPort = t.broker.mqttPort
  p2pPort : s.broker.p2pPort = t.broker.p2pPort
  fallbackPort : s.broker.fallbackPort = t.broker.fallbackPort
  brokerEnabled : s.broker.brokerEnabled = t.broker.brokerEnabled
  bridgeEnabled : s.broker.bridgeEnabled = t.broker.bridgeEnabled
  meshEnabled : s.broker.meshEnabled = t.broker.meshEnabled

theorem SameFields.refl (s : FieldBridgeSettings) : SameFields s s := by
  constructor <;> rfl

variable {longBits : ℕ} {s : FieldBridgeSettings}

/-- The comparison of the whole structures is one of their fields. -/
theorem newSettings_eq_iff (h0 : 0 ∉ body) (hterm : SettingsTerminated s) :
    newSettings longBits body s = s ↔ SameFields s (newSettings longBits body s) := by
  constructor
  · intro h
    rw [h]
    exact SameFields.refl s
  · intro h
    ext1
    · ext1
      exact (jsonGetString_eq_iff h0 _ hterm.deviceName).mpr h.deviceName.symm
    · ext1
      · exact (jsonGetString_eq_iff h0 _ hterm.network.deviceIp).mpr h.deviceIp.symm
      · exact (jsonGetString_eq_iff h0 _ hterm.network.gateway).mpr h.gateway.symm
      · exact (jsonGetString_eq_iff h0 _ hterm.network.netmask).mpr h.netmask.symm
      · exact (jsonGetString_eq_iff h0 _ hterm.network.dns).mpr h.dns.symm
      · exact h.dhcpEnabled.symm
      · exact h.mode.symm
    · ext1
      · exact (jsonGetString_eq_iff h0 _ hterm.brokerIp).mpr h.brokerIp.symm
      · exact (jsonGetString_eq_iff h0 _ hterm.siteId).mpr h.siteId.symm
      · exact (jsonGetString_eq_iff h0 _ hterm.topicPrefix).mpr h.topicPrefix.symm
      · exact h.mqttPort.symm
      · exact h.p2pPort.symm
      · exact h.fallbackPort.symm
      · exact h.brokerEnabled.symm
      · exact h.bridgeEnabled.symm
      · exact h.meshEnabled.symm

theorem getD_getD {α : Type} (o : Option α) (a : α) : o.getD (o.getD a) = o.getD a := by
  rcases o with _ | v
  · rfl
  · rfl

theorem newSettings_mode : (newSettings longBits body s).network.mode =
    if (readMode body).1 = .ok then
      (productConfigNetworkModeFromName (readMode body).2.text).getD s.network.mode
    else s.network.mode := rfl

theorem mode_again : (newSettings longBits body (newSettings longBits body s)).network.mode =
    (newSettings longBits body s).network.mode := by
  rw [newSettings_mode, newSettings_mode]
  split_ifs
  · exact getD_getD _ _
  · rfl

/-- The second time a body asks for what it asked for before. -/
theorem newSettings_newSettings (h0 : 0 ∉ body) :
    newSettings longBits body (newSettings longBits body s) = newSettings longBits body s := by
  ext1
  · ext1
    exact jsonGetString_again h0 _ _
  · ext1
    · exact jsonGetString_again h0 _ _
    · exact jsonGetString_again h0 _ _
    · exact jsonGetString_again h0 _ _
    · exact jsonGetString_again h0 _ _
    · exact getD_getD _ _
    · exact mode_again
  · ext1
    · exact jsonGetString_again h0 _ _
    · exact jsonGetString_again h0 _ _
    · exact jsonGetString_again h0 _ _
    · exact getD_getD _ _
    · exact getD_getD _ _
    · exact getD_getD _ _
    · exact getD_getD _ _
    · exact getD_getD _ _
    · exact getD_getD _ _

/-- Which keys are seen does not depend on the settings. -/
theorem configSeen_congr (h0 : 0 ∉ body) (t : FieldBridgeSettings) :
    configSeen longBits body s ↔ configSeen longBits body t := by
  unfold configSeen
  rw [jsonGetString_fst h0 (str "device_name") s.system.deviceName t.system.deviceName,
    jsonGetString_fst h0 (str "device_ip") s.network.deviceIp t.network.deviceIp,
    jsonGetString_fst h0 (str "gateway") s.network.gateway t.network.gateway,
    jsonGetString_fst h0 (str "netmask") s.network.netmask t.network.netmask,
    jsonGetString_fst h0 (str "dns") s.network.dns t.network.dns,
    jsonGetString_fst h0 (str "broker_ip") s.broker.brokerIp t.broker.brokerIp,
    jsonGetString_fst h0 (str "site_id") s.broker.siteId t.broker.siteId,
    jsonGetString_fst h0 (str "topic_prefix") s.broker.topicPrefix t.broker.topicPrefix]

/-- The settings that a body has brought about are those it asks for. -/
theorem configCandidate_again (h0 : 0 ∉ body) {new : FieldBridgeSettings}
    (h : configCandidate longBits body s = some new) :
    configCandidate longBits body new = some new := by
  obtain ⟨hmode, hseen, rfl⟩ := configCandidate_eq_some.mp h
  exact configCandidate_eq_some.mpr
    ⟨hmode, (configSeen_congr h0 _).mp hseen, (newSettings_newSettings h0).symm⟩

variable {w : World} {c c' : ConfigState}

/-- What a body that is accepted leaves. -/
theorem applyConfigJson_eq_some {b : Bool} (h : applyConfigJson w body c = (some b, c')) :
    ∃ new, configCandidate w.longBits body c.settings = some new ∧ c'.settings = new ∧
      (b = true ↔ new ≠ c.settings) := by
  rcases hcand : configCandidate w.longBits body c.settings with _ | new
  · rw [applyConfigJson_of_none hcand, Prod.mk.injEq] at h
    exact absurd h.1.symm (Option.some_ne_none b)
  by_cases hsame : new = c.settings
  · subst hsame
    rw [applyConfigJson_of_same hcand, Prod.mk.injEq, Option.some.injEq] at h
    refine ⟨_, rfl, congrArg ConfigState.settings h.2.symm, ?_⟩
    rw [← h.1]
    simp
  · rw [applyConfigJson_of_new hcand hsame, Prod.mk.injEq] at h
    obtain ⟨hb, hc'⟩ := h
    split_ifs at hb with hok
    rw [Option.some.injEq] at hb
    refine ⟨new, rfl, ?_, ?_⟩
    · by_cases hv : SettingsValid new
      · rw [productConfigSetSettings_of_valid hv] at hc'
        rw [← hc']
      · rw [productConfigSetSettings_of_invalid hv] at hok
        cases hok
    · rw [← hb]
      simp [hsame]

/-- **Posting a body again changes nothing.** If a body is accepted, a reboot is asked for exactly
if some field differs; and posting it again is accepted without one and leaves everything as it is,
even if every save were to fail, for nothing is saved. -/
theorem applyConfigJson_again (w : World) (bytes : List Byte) (c c' : ConfigState) (b : Bool)
    (hterm : SettingsTerminated c.settings) (h : applyConfigJson w (cstr bytes) c = (some b, c')) :
    (b = true ↔ ¬ SameFields c.settings c'.settings) ∧
      configOp w.longBits (cstr bytes) c' = none ∧
      ∀ w' : World, w'.longBits = w.longBits →
        applyConfigJson w' (cstr bytes) c' = (some false, c') := by
  have h0 : (0 : Byte) ∉ cstr bytes := zero_notMem_cstr bytes
  obtain ⟨new, hcand, hnew, hreboot⟩ := applyConfigJson_eq_some h
  have hagain := configCandidate_again h0 hcand
  rw [← hnew] at hagain
  obtain ⟨-, -, hsettings⟩ := configCandidate_eq_some.mp hcand
  refine ⟨?_, ?_, fun w' hbits => ?_⟩
  · rw [hreboot, hnew, hsettings, Ne, newSettings_eq_iff h0 hterm]
  · unfold configOp
    rw [hagain]
    exact if_pos rfl
  · rw [← hbits] at hagain
    exact applyConfigJson_of_same hagain

/-- A body with a quote and a brace too few. -/
def brokenBody : Text := str "\x7b\"device_name\":\"x,\"mqtt_port\":1885"

/-- It is accepted all the same, and changes the settings once. -/
theorem applyConfigJson_again_broken :
    let r := applyConfigJson .good (cstr brokenBody) freshConfig
    r.1 = some true ∧ applyConfigJson .good (cstr brokenBody) r.2 = (some false, r.2) := by
  intro r
  have hreboot : r.1 = some true := by decide
  have hterm : SettingsTerminated freshConfig.settings := (settingsSound_default []).terminated
  have hagain := applyConfigJson_again .good brokenBody freshConfig r.2 true hterm
    (Prod.ext hreboot rfl)
  exact ⟨hreboot, hagain.2.2 .good rfl⟩

end MqttFieldBridge.Http
