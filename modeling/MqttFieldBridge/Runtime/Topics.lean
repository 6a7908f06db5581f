import MqttFieldBridge.Config.Types

/-! # Topics

`product_topic_build`: the topic of a stream, unless it does not fit into `cap` bytes.
`product_topic_matches_prefix`: whether a topic lies under the configured prefix. The two undo each
other, and since a stream has no slash a topic names its prefix and its stream, although a prefix
may have slashes: `topicBuild_matches`. -/

namespace MqttFieldBridge.Runtime

open MqttFieldBridge.CLib MqttFieldBridge.Config

/-- The byte `/`. -/
abbrev slash : Byte := 47

def productTopicBuild (settings : FieldBridgeSettings) (stream : Text) (cap : ℤ) : Option Text :=
  if cap ≤ 0 ∨ settings.broker.topicPrefix.first = 0 ∨ stream = [] ∨ slash ∈ stream then none
  else
    let t := settings.broker.topicPrefix.text ++ slash :: stream
    if t.length ≥ cap then none else some t

/-- A topic is a C string, so `strncmp` stops with a difference if it ends within the prefix. -/
def productTopicMatchesPrefix (settings : FieldBridgeSettings) (topic : Text) : Bool :=
  if settings.broker.topicPrefix.first = 0 then false
  else if ¬ settings.broker.topicPrefix.text <+: topic then false
  else topic.getD settings.broker.topicPrefix.text.length 0 = slash

/-- What a topic has behind the configured prefix and the slash. -/
def topicStream (settings : FieldBridgeSettings) (topic : Text) : Text :=
  topic.drop (settings.broker.topicPrefix.text.length + 1)

theorem topicBuild_eq_some {settings : FieldBridgeSettings} {stream t : Text} {cap : ℤ} :
    productTopicBuild settings stream cap = some t ↔
      ¬ (cap ≤ 0 ∨ settings.broker.topicPrefix.first = 0 ∨ stream = [] ∨ slash ∈ stream) ∧
        t = settings.broker.topicPrefix.text ++ slash :: stream ∧ t.length < cap := by
  unfold productTopicBuild
  dsimp only
  split_ifs with h1 h2
  · exact ⟨nofun, fun h => absurd h1 h.1⟩
  · refine ⟨nofun, ?_⟩
    rintro ⟨-, rfl, hlen⟩
    omega
  · rw [Option.some.injEq]
    constructor
    · rintro rfl
      exact ⟨h1, rfl, by omega⟩
    · exact fun h => h.2.1.symm

/-- The topic that is built fits, with its NUL. -/
theorem length_topicBuild {settings : FieldBridgeSettings} {stream t : Text} {cap : ℤ}
    (h : productTopicBuild settings stream cap = some t) : t.length < cap :=
  (topicBuild_eq_some.mp h).2.2

/-- The topic of a stream is a C string. -/
theorem zero_notMem_topicBuild {settings : FieldBridgeSettings} {stream t : Text} {cap : ℤ}
    (h : productTopicBuild settings stream cap = some t) (hstream : 0 ∉ stream) : 0 ∉ t := by
  obtain ⟨-, rfl, -⟩ := topicBuild_eq_some.mp h
  have hprinted := settings.broker.topicPrefix.zero_notMem_text
  rw [List.mem_append, List.mem_cons, not_or, not_or]
  exact ⟨hprinted, by decide, hstream⟩

/-- A terminated prefix leaves the rest of the buffer to the stream. -/
theorem topicBuild_of_terminated {settings : FieldBridgeSettings} {stream : Text} {cap : ℤ}
    (h : settings.broker.topicPrefix.first ≠ 0) (hterm : settings.broker.topicPrefix.Terminated)
    (hne : stream ≠ []) (hslash : slash ∉ stream) (hcap : fieldBridgeTopicMax + stream.length < cap) :
    productTopicBuild settings stream cap =
      some (settings.broker.topicPrefix.text ++ slash :: stream) := by
  have hlen := CharArray.length_text_lt hterm
  refine topicBuild_eq_some.mpr ⟨?_, rfl, ?_⟩
  · rw [not_or, not_or, not_or]
    exact ⟨by omega, h, hne, hslash⟩
  · rw [List.length_append, List.length_cons]
    omega

/-- A topic is built from every prefix and stream that fit. -/
theorem isSome_topicBuild {settings : FieldBridgeSettings} {stream : Text} {cap : ℤ} :
    (productTopicBuild settings stream cap).isSome ↔
      settings.broker.topicPrefix.text ≠ [] ∧ stream ≠ [] ∧ slash ∉ stream ∧
        (settings.broker.topicPrefix.text.length + 1 + stream.length : ℤ) < cap := by
  have hlen : ((settings.broker.topicPrefix.text ++ slash :: stream).length : ℤ) =
      settings.broker.topicPrefix.text.length + 1 + stream.length := by
    rw [List.length_append, List.length_cons]
    push_cast
    omega
  have hfirst := CharArray.text_eq_nil_iff (a := settings.broker.topicPrefix)
  rw [Option.isSome_iff_exists]
  constructor
  · rintro ⟨t, h⟩
    obtain ⟨hok, rfl, hfits⟩ := topicBuild_eq_some.mp h
    rw [not_or, not_or, not_or] at hok
    obtain ⟨-, hp, hs, hslash⟩ := hok
    exact ⟨fun h0 => hp (hfirst.mp h0), hs, hslash, by omega⟩
  · rintro ⟨hp, hs, hslash, hfits⟩
    refine ⟨_, topicBuild_eq_some.mpr ⟨?_, rfl, by omega⟩⟩
    rw [not_or, not_or, not_or]
    exact ⟨by omega, fun h0 => hp (hfirst.mpr h0), hs, hslash⟩

/-- A topic matches if it is the prefix, a slash and a rest. -/
theorem matchesPrefix_iff {settings : FieldBridgeSettings} {topic : Text} :
    productTopicMatchesPrefix settings topic = true ↔
      settings.broker.topicPrefix.first ≠ 0 ∧
        topic = settings.broker.topicPrefix.text ++ slash :: topicStream settings topic := by
  unfold productTopicMatchesPrefix topicStream
  generalize settings.broker.topicPrefix.text = p
  by_cases hfirst : settings.broker.topicPrefix.first = 0
  · rw [if_pos hfirst]
    exact iff_of_false Bool.false_ne_true fun h => h.1 hfirst
  by_cases hpre : p <+: topic
  · rw [if_neg hfirst, if_neg (not_not.mpr hpre)]
    obtain ⟨r, rfl⟩ := hpre
    have hget : (p ++ r).getD p.length 0 = r.getD 0 0 := by
      rw [List.getD_eq_getElem?_getD, List.getElem?_append_right (by omega), Nat.sub_self,
        ← List.getD_eq_getElem?_getD]
    rw [hget, decide_eq_true_eq, List.drop_append, List.drop_of_length_le (by omega),
      List.nil_append, Nat.add_sub_cancel_left, List.append_cancel_left_eq]
    refine ⟨fun h => ⟨hfirst, ?_⟩, ?_⟩
    · rcases r with _ | ⟨b, r⟩
      · exact absurd h (by decide)
      · rw [List.getD_cons_zero] at h
        rw [h, List.drop_one, List.tail_cons]
    · rintro ⟨-, h⟩
      rw [h]
      rfl
  · rw [if_neg hfirst, if_pos hpre]
    refine iff_of_false Bool.false_ne_true fun h => hpre ?_
    rw [h.2]
    exact List.prefix_append p _

/-- **Building a topic and matching its prefix.** A topic is built exactly if the prefix and the
stream are there, the stream has no slash and all fits; what is built matches; a match whose rest is
a stream is built from this rest; and one topic has one prefix and one stream. -/
theorem topicBuild_matches (settings : FieldBridgeSettings) (stream : Text) (cap : ℤ)
    (hcap : 0 < cap) :
    ((productTopicBuild settings stream cap).isSome ↔
      settings.broker.topicPrefix.text ≠ [] ∧ stream ≠ [] ∧ slash ∉ stream ∧
        (settings.broker.topicPrefix.text.length + 1 + stream.length : ℤ) < cap) ∧
    (∀ t, productTopicBuild settings stream cap = some t →
      productTopicMatchesPrefix settings t = true) ∧
    (∀ t : Text, t.length < cap → productTopicMatchesPrefix settings t = true →
      topicStream settings t ≠ [] → slash ∉ topicStream settings t →
      productTopicBuild settings (topicStream settings t) cap = some t) ∧
    ∀ (settings' : FieldBridgeSettings) (stream' : Text) (cap' : ℤ) (t : Text),
      productTopicBuild settings stream cap = some t →
      productTopicBuild settings' stream' cap' = some t →
      settings.broker.topicPrefix.text = settings'.broker.topicPrefix.text ∧ stream = stream' := by
  refine ⟨isSome_topicBuild, fun t h => ?_, fun t hlen h hne hslash => ?_,
    fun settings' stream' cap' t h h' => ?_⟩
  · obtain ⟨hok, rfl, -⟩ := topicBuild_eq_some.mp h
    refine matchesPrefix_iff.mpr ⟨fun h0 => hok (Or.inr (Or.inl h0)), ?_⟩
    unfold topicStream
    rw [← List.drop_drop, List.drop_left]
    rfl
  · obtain ⟨hfirst, ht⟩ := matchesPrefix_iff.mp h
    refine topicBuild_eq_some.mpr ⟨?_, ht, hlen⟩
    rw [not_or, not_or, not_or]
    exact ⟨by omega, hfirst, hne, hslash⟩
  · obtain ⟨hok, ht, -⟩ := topicBuild_eq_some.mp h
    obtain ⟨hok', ht', -⟩ := topicBuild_eq_some.mp h'
    rw [not_or, not_or, not_or] at hok hok'
    -- the last slash of the topic is the one before the stream
    exact append_sep_inj hok.2.2.2 hok'.2.2.2 (ht.symm.trans ht')

/-- Settings with a prefix that has a slash of its own. -/
def siteSettings : FieldBridgeSettings where
  system := FieldBridgeSettings.zero.system
  network := FieldBridgeSettings.zero.network
  broker := { FieldBridgeSettings.zero.broker with topicPrefix := .ofBytes _ (str "site/field-a") }

theorem topicBuild_matches_status :
    productTopicBuild siteSettings (str "status") 128 = some (str "site/field-a/status") ∧
      productTopicMatchesPrefix siteSettings (str "site/field-a/status") = true :=
  have hbuilt : productTopicBuild siteSettings (str "status") 128 =
      some (str "site/field-a/status") := by decide
  ⟨hbuilt, (topicBuild_matches siteSettings (str "status") 128 (by decide)).2.1 _ hbuilt⟩

end MqttFieldBridge.Runtime
