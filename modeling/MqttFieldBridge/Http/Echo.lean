import MqttFieldBridge.Http.Documents
import MqttFieldBridge.Http.Effects
import MqttFieldBridge.Http.Exact

/-! # Posting back what was read

The document of `/config` has a member for each key that `apply_config_json` looks up, and the reader
of the key finds what the record holds (`echoes_configFields`), as long as no string of the settings
has a quote or a backslash or is itself one of the keys. So posting the document back changes nothing
and writes nothing (`config_echo`). -/

namespace MqttFieldBridge.Http

open MqttFieldBridge.CLib MqttFieldBridge.Config MqttFieldBridge.Runtime MqttFieldBridge.Json

variable {σ : Type} {longBits : ℕ} {body key rest : Text}

/-! ### A reader at a printed value -/

/-- The value of the slot as it is printed. -/
def Slot.printedValue (x : σ) : Slot σ → RawValue
  | .text get => .string (get x).text
  | .port _ get => .number (get x).toNat
  | .flag get => .number (get x).toNat
  | .mode get => .string (productConfigNetworkModeName (get x))

/-- The value of the slot passes its checks, and `%s` prints it as a string of its own. -/
def Slot.Readable (x : σ) : Slot σ → Prop
  | .text get => (get x).Terminated ∧ 34 ∉ (get x).text ∧ 92 ∉ (get x).text
  | .port _ get => get x ≠ 0
  | .flag get => get x ≤ 1
  | .mode get => get x = networkModeAuto ∨ get x = networkModeEth

/-- The reader of the key finds what the slot holds. -/
def Slot.Echoes (longBits : ℕ) (body key : Text) (x : σ) : Slot σ → Prop
  | .text get => jsonGetString body key (get x) = (.ok, get x)
  | .port _ get => jsonGetU16 longBits body key = some (get x)
  | .flag get => jsonGetBoolish longBits body key = some (get x)
  | .mode get =>
    let r := jsonGetString body key (.zero 16)
    r.1 = .ok ∧ productConfigNetworkModeFromName r.2.text = some (get x)

/-- Bytes that need no escape are copied up to the quote. -/
theorem copyLoop_raw : ∀ (t : Text) (room : ℕ), t.length ≤ room → 34 ∉ t → 92 ∉ t →
    copyLoop room (t ++ 34 :: rest) = (t, 34 :: rest)
  | [], 0, _, _, _ => rfl
  | [], _ + 1, _, _, _ => rfl
  | b :: t, 0, hlen, _, _ => absurd hlen (by simp)
  | b :: t, room + 1, hlen, hquote, hback => by
    rw [List.mem_cons, not_or] at hquote hback
    have hrest := copyLoop_raw t room (by simpa using hlen) hquote.2 hback.2
    have hb : b ≠ quote ∧ b ≠ backslash := ⟨Ne.symm hquote.1, Ne.symm hback.1⟩
    rw [List.cons_append, copyLoop, if_neg hb.1, nextByte_of_ne hb.2, hrest]

theorem jsonGetString_raw {n : ℕ} {out : CharArray n} {t : Text}
    (h : Found body key ((RawValue.string t).text ++ rest)) (hlen : t.length < n) (hquote : 34 ∉ t)
    (hback : 92 ∉ t) : jsonGetString body key out = (.ok, out.write (t ++ [0])) := by
  have hopen : (RawValue.string t).text ++ rest = 34 :: (t ++ 34 :: rest) := by
    simp [RawValue.text]
  rw [hopen] at h
  rw [jsonGetString_of_found h rfl (by omega), copyLoop_raw t (n - 1) (by omega) hquote hback]
  rfl

/-- The names of the two modes that pass the check. -/
theorem modeName_inverse {mode : UInt8} (h : mode = networkModeAuto ∨ mode = networkModeEth) :
    let name := productConfigNetworkModeName mode
    name.length < 16 ∧ 34 ∉ name ∧ 92 ∉ name ∧ (0 : Byte) ∉ name ∧
      productConfigNetworkModeFromName name = some mode := by
  rcases h with rfl | rfl
  · decide
  · decide

theorem Slot.echoes_of_found {slot : Slot σ} {x : σ} (hslot : slot.Readable x)
    (hbits : 32 ≤ longBits) (hrest : NoDigit rest)
    (h : Found body key ((slot.printedValue x).text ++ rest)) : slot.Echoes longBits body key x := by
  cases slot with
  | text get =>
    obtain ⟨hterm, hquote, hback⟩ := hslot
    have hlen : (get x).text.length < _ := CharArray.length_text_lt hterm
    have hsame : (get x).write ((get x).text ++ [0]) = get x :=
      (CharArray.write_eq_self_iff (get x).zero_notMem_text hlen).mpr ⟨hterm, rfl⟩
    have hread := @jsonGetString_raw _ _ _ _ (get x) _ h hlen hquote hback
    rw [hsame] at hread
    exact hread
  | port unset get => exact jsonGetU16_decimal hslot hbits hrest h
  | flag get => exact jsonGetBoolish_decimal hslot hbits hrest h
  | mode get =>
    obtain ⟨hlen, hquote, hback, h0, hname⟩ := modeName_inverse hslot
    have hread := @jsonGetString_raw _ _ _ 16 (.zero 16) _ h hlen hquote hback
    refine ⟨by rw [hread], ?_⟩
    rw [hread, CharArray.text_write h0 hlen]
    exact hname

/-! ### The document of `/config` -/

variable {s : FieldBridgeSettings}

/-- A string without quotes and backslashes that is no key of `apply_config_json`. -/
structure Harmless (t : Text) : Prop where
  quote : 34 ∉ t
  backslash : 92 ∉ t
  key : ∀ f ∈ configFields, t ≠ f.key

/-- Every key of `apply_config_json` is a member, with the value of its slot. -/
theorem mem_configMembers : ∀ f ∈ configFields,
    (f.key, f.slot.printedValue s) ∈ configMembers s := by
  simp only [configFields, List.forall_mem_cons, Slot.printedValue, configMembers]
  simp

theorem configMembers_distinct : ((configMembers s).map Prod.fst).Nodup := by
  simp only [configMembers, List.map_cons, List.map_nil]
  decide

theorem readable_configFields (hvalid : SettingsValid s) (hterm : SettingsTerminated s)
    (htexts : ∀ t ∈ settingsTexts s, Harmless t) : ∀ f ∈ configFields, f.slot.Readable s := by
  simp only [settingsTexts, List.forall_mem_cons] at htexts
  obtain ⟨h1, h2, h3, h4, h5, h6, h7, h8, -⟩ := htexts
  have hv := hvalid.v1
  simp only [configFields, List.forall_mem_cons, Slot.Readable]
  exact ⟨⟨hterm.deviceName, h1.quote, h1.backslash⟩,
    ⟨hterm.network.deviceIp, h2.quote, h2.backslash⟩,
    ⟨hterm.network.gateway, h3.quote, h3.backslash⟩,
    ⟨hterm.network.netmask, h4.quote, h4.backslash⟩, ⟨hterm.network.dns, h5.quote, h5.backslash⟩,
    ⟨hterm.brokerIp, h6.quote, h6.backslash⟩, ⟨hterm.siteId, h7.quote, h7.backslash⟩,
    ⟨hterm.topicPrefix, h8.quote, h8.backslash⟩, hv.mode, hv.dhcpEnabled, hv.brokerEnabled,
    hv.bridgeEnabled, hv.meshEnabled, hv.mqttPort, hvalid.fallbackPort, hv.p2pPort,
    List.forall_mem_nil _⟩

instance (t : Text) : Decidable (Harmless t) :=
  decidable_of_iff (34 ∉ t ∧ 92 ∉ t ∧ ∀ f ∈ configFields, t ≠ f.key)
    ⟨fun h => ⟨h.1, h.2.1, h.2.2⟩, fun h => ⟨h.quote, h.backslash, h.key⟩⟩

theorem harmless_modeName {mode : UInt8} : Harmless (productConfigNetworkModeName mode) := by
  unfold productConfigNetworkModeName
  split_ifs
  · decide
  · decide
  · decide

/-- The strings of the document are those of the settings, the version and the name of the mode. -/
theorem harmless_configMembers (htexts : ∀ t ∈ settingsTexts s, Harmless t) :
    ∀ m ∈ configMembers s, ∀ t, m.2 = .string t → Harmless t := by
  have hversion : Harmless fieldBridgeFirmwareVersion := by decide
  simp only [settingsTexts, List.forall_mem_cons] at htexts
  obtain ⟨h1, h2, h3, h4, h5, h6, h7, h8, -⟩ := htexts
  simp only [configMembers, List.forall_mem_cons]
  exact ⟨RawValue.of_string h1, RawValue.of_string hversion, RawValue.of_number,
    RawValue.of_string harmless_modeName, RawValue.of_string h2, RawValue.of_string h3,
    RawValue.of_string h4, RawValue.of_string h5, RawValue.of_number, RawValue.of_string h6,
    RawValue.of_string h7, RawValue.of_string h8, RawValue.of_number, RawValue.of_number,
    RawValue.of_number, RawValue.of_number, RawValue.of_number, RawValue.of_number,
    List.forall_mem_nil _⟩

/-- No other member shows the key to the search. -/
theorem apart_configMembers (htexts : ∀ t ∈ settingsTexts s, Harmless t) {m : RawMember}
    (hm : m ∈ configMembers s) {f : Field FieldBridgeSettings} (hf : f ∈ configFields)
    (hkey : m.1 ≠ f.key) : Apart f.key m where
  key := hkey
  noQuote := by
    have hquote : ∀ m ∈ configMembers s, 34 ∉ m.1 := by
      simp only [configMembers, List.forall_mem_cons]
      decide
    exact hquote m hm
  value t ht := by
    have h := harmless_configMembers htexts m hm t ht
    exact ⟨h.key f hf, h.quote⟩

/-- **Every reader finds what the record holds.** -/
theorem echoes_configFields (hbits : 32 ≤ longBits) (hvalid : SettingsValid s)
    (hterm : SettingsTerminated s) (htexts : ∀ t ∈ settingsTexts s, Harmless t) :
    ∀ f ∈ configFields, f.slot.Echoes longBits (rawObject (configMembers s)) f.key s := by
  intro f hf
  obtain ⟨hkey, hlen⟩ := searchable_configFields f hf
  obtain ⟨before, after, hsplit⟩ := List.append_of_mem (@mem_configMembers s f hf)
  have hbefore : ∀ m ∈ before, Apart f.key m := by
    intro m hm
    have hin : m ∈ configMembers s := by
      rw [hsplit]
      exact List.mem_append_left _ hm
    refine apart_configMembers htexts hin hf fun he => ?_
    have hnodup := @configMembers_distinct s
    rw [hsplit, List.map_append, List.map_cons, List.nodup_append] at hnodup
    exact hnodup.2.2 m.1 (List.mem_map_of_mem hm) f.key List.mem_cons_self he
  obtain ⟨rest, hfind, hrest⟩ := @strstr_rawObject f.key hkey before after _ hbefore
  rw [hsplit]
  exact Slot.echoes_of_found (readable_configFields hvalid hterm htexts f hf) hbits
    (noDigit_rest hrest) (found_of_strstr (colon_notMem_key hkey) hlen hfind)

/-! ### Posting it -/

/-- A body whose values are the current ones asks for the current settings. -/
theorem configCandidate_of_echoes
    (h : ∀ f ∈ configFields, f.slot.Echoes longBits body f.key s) :
    configCandidate longBits body s = some s := by
  simp only [configFields, List.forall_mem_cons, Slot.Echoes] at h
  obtain ⟨h1, h2, h3, h4, h5, h6, h7, h8, ⟨hok, hmode⟩, h10, h11, h12, h13, h14, h15, h16, -⟩ := h
  refine configCandidate_eq_some.mpr ⟨fun hu => ?_, Or.inl (by rw [h1]), ?_⟩
  · have hnone := hu.2
    rw [readMode, hmode] at hnone
    cases hnone
  · simp only [newSettings, readMode, h1, h2, h3, h4, h5, h6, h7, h8, hok, hmode, h10, h11, h12, h13,
      h14, h15, h16, if_true, Option.getD_some]

/-- **Posting back what was read changes nothing.** The document fits its buffer, and applying it asks
for no reboot, runs no operation of the configuration, so writes nothing, and leaves the state as it
is. -/
theorem config_echo {w : World} {c : ConfigState} (hvalid : validateSettings c.settings = .ok)
    (hterm : SettingsTerminated c.settings) (htexts : ∀ t ∈ settingsTexts c.settings, Harmless t) :
    ∃ t, (∀ cap, respBufSize ≤ cap → buildConfigJson cap c = ⟨true, some t⟩) ∧
      t.length < respBufSize ∧ 0 ∉ t ∧ applyConfigJson w t c = (some false, c) ∧
      configOp w.longBits t c = none := by
  have hcand := configCandidate_of_echoes
    (echoes_configFields w.longBits_ge (validateSettings_ok_iff.mp hvalid) hterm htexts)
  refine ⟨_, fun cap hcap => buildConfigJson_built hcap hterm, configMembers_fits hterm,
    zero_notMem_rawObject configMembers_nulFree, applyConfigJson_of_same hcand, ?_⟩
  unfold configOp
  rw [hcand]
  exact if_pos rfl

/-- The defaults can be posted back. -/
theorem config_echo_fresh : ∃ t, (∀ cap, respBufSize ≤ cap →
      buildConfigJson cap freshApp.config = ⟨true, some t⟩) ∧
    t.length < respBufSize ∧ 0 ∉ t ∧
    applyConfigJson .good t freshApp.config = (some false, freshApp.config) ∧
    configOp World.good.longBits t freshApp.config = none := by
  have hterm : SettingsTerminated freshApp.config.settings := (settingsSound_default []).terminated
  exact config_echo (by decide) hterm (by decide)

end MqttFieldBridge.Http
