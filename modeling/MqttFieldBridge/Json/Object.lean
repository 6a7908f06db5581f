import MqttFieldBridge.Json.ReadBack
import Mathlib.Data.Nat.Find

/-! # Objects that are read, changed and written again

A script gets a flat object from a text (`parseObject`), assigns to some of its members (`set`), and
writes it again. For objects that are printed as they are, with plain strings and natural numbers,
reading gives the members that were printed, in their order (`parseObject_rawObject`), assigning to
members that are there keeps the order (`members_assign`), and writing gives the text that a program
prints which escapes nothing (`stringify_ofRaw`). -/

namespace MqttFieldBridge.Json

open MqttFieldBridge.CLib

/-! ### Natural numbers -/

/-- How often ten divides `n`. -/
def tens (n : ℕ) : ℕ := Nat.findGreatest (fun e => 10 ^ e ∣ n) (decimal n).length

theorem pow_tens_dvd (n : ℕ) : 10 ^ tens n ∣ n :=
  @Nat.findGreatest_spec 0 (fun e => 10 ^ e ∣ n) _ _ (Nat.zero_le _) (by simp)

/-- Ten does not divide what is left. -/
theorem not_dvd_div_tens {n : ℕ} (hn : n ≠ 0) : ¬ 10 ∣ n / 10 ^ tens n := by
  intro h
  have hdvd : 10 ^ (tens n + 1) ∣ n := by
    have hmul := Nat.mul_dvd_mul_right h (10 ^ tens n)
    rwa [Nat.div_mul_cancel (pow_tens_dvd n), Nat.mul_comm, ← pow_succ] at hmul
  have hlt : n < 10 ^ (decimal n).length := by
    have hlen := (Nat.length_toDigits_le_iff (b := 10) (n := n) (by decide)
      (show 0 < (decimal n).length from ?_)).mp (by rw [decimal, List.length_map])
    · exact hlen
    · rw [decimal, List.length_map]
      exact Nat.length_toDigits_pos
  have hle : 10 ^ (tens n + 1) ≤ n := Nat.le_of_dvd (Nat.pos_of_ne_zero hn) hdvd
  have hbound : tens n + 1 ≤ (decimal n).length :=
    (Nat.pow_lt_pow_iff_right (by decide)).mp (hle.trans_lt hlt) |>.le
  exact absurd (Nat.le_findGreatest hbound hdvd) (by rw [← tens]; omega)

/-- The number `n`. -/
def JsonNumber.ofNat (n : ℕ) : JsonNumber where
  neg := false
  digits := if n = 0 then 0 else n / 10 ^ tens n
  exp := if n = 0 then 0 else tens n
  normal := by
    by_cases hn : n = 0
    · simp [hn]
    · have hpow : 0 < 10 ^ tens n := Nat.pow_pos (by decide)
      have hpos : n / 10 ^ tens n ≠ 0 :=
        (Nat.div_pos (Nat.le_of_dvd (Nat.pos_of_ne_zero hn) (pow_tens_dvd n)) hpow).ne'
      simp only [if_neg hn]
      rw [if_neg hpos]
      exact not_dvd_div_tens hn

theorem JsonNumber.value_ofNat (n : ℕ) : (JsonNumber.ofNat n).value = n := by
  by_cases hn : n = 0
  · simp [JsonNumber.value, JsonNumber.ofNat, hn]
  · have hmul : ((n / 10 ^ tens n : ℕ) : ℚ) * (10 ^ tens n : ℕ) = n := by
      exact_mod_cast Nat.div_mul_cancel (pow_tens_dvd n)
    simp only [JsonNumber.value, JsonNumber.ofNat, if_neg hn, Bool.false_eq_true, if_false, one_mul,
      zpow_natCast]
    rw [← hmul]
    push_cast
    rfl

theorem JsonNumber.text_ofNat {n : ℕ} (hn : n < 10 ^ 21) : (JsonNumber.ofNat n).text = decimal n :=
  text_of_value (value_ofNat n) hn

theorem JsonNumber.digits_ofNat {n : ℕ} : (JsonNumber.ofNat n).digits = 0 ↔ n = 0 := by
  refine ⟨fun h => ?_, fun h => if_pos h⟩
  have hvalue := value_ofNat n
  rw [JsonNumber.value, h] at hvalue
  simpa using hvalue.symm

/-! ### Members -/

namespace JsonObject

def keys (o : JsonObject) : List JsonString := o.members.map Prod.fst

def empty : JsonObject := ⟨[], List.nodup_nil⟩

/-- The value of a member, if there is one with this key. -/
def get? (o : JsonObject) (k : JsonString) : Option JsonValue :=
  (o.members.find? fun m => m.1 = k).map Prod.snd

theorem keys_replace (ms : List Member) (k : JsonString) (v : JsonValue) :
    (ms.map fun m => if m.1 = k then (k, v) else m).map Prod.fst = ms.map Prod.fst := by
  rw [List.map_map]
  refine List.map_congr_left fun m _ => ?_
  by_cases hm : m.1 = k
  · simp [hm]
  · simp [hm]

/-- An assignment to a member, which is put at the end if it is new. -/
def set (o : JsonObject) (k : JsonString) (v : JsonValue) : JsonObject where
  members :=
    if k ∈ o.keys then o.members.map fun m => if m.1 = k then (k, v) else m
    else o.members ++ [(k, v)]
  distinct := by
    split_ifs with h
    · rw [keys_replace]
      exact o.distinct
    · rw [List.map_append]
      refine List.nodup_append.mpr ⟨o.distinct, List.nodup_singleton k, fun a ha b hb hab => ?_⟩
      obtain rfl := List.mem_singleton.mp hb
      exact h (hab ▸ ha)

/-- Assignments, one after another. -/
def assign (o : JsonObject) (as : List Member) : JsonObject := as.foldl (fun o a => o.set a.1 a.2) o

/-- What the last assignment to `k` has left of the value `v`. -/
def latest (as : List Member) (k : JsonString) (v : JsonValue) : JsonValue :=
  as.foldl (fun v a => if a.1 = k then a.2 else v) v

variable {o : JsonObject} {k k' : JsonString} {v : JsonValue}

theorem members_set (h : k ∈ o.keys) :
    (o.set k v).members = o.members.map fun m => (m.1, if k = m.1 then v else m.2) := by
  refine (if_pos h).trans (List.map_congr_left fun m _ => ?_)
  by_cases hm : m.1 = k
  · rw [if_pos hm, if_pos hm.symm, hm]
  · rw [if_neg hm, if_neg (Ne.symm hm)]

theorem keys_set (h : k ∈ o.keys) : (o.set k v).keys = o.keys := by
  unfold keys
  rw [members_set h, List.map_map]
  rfl

/-- **Assignments to members that are there** change their values only. -/
theorem members_assign : ∀ (as : List Member) {o : JsonObject}, (∀ a ∈ as, a.1 ∈ o.keys) →
    (o.assign as).members = o.members.map fun m => (m.1, latest as m.1 m.2)
  | [], o, _ => (List.map_id _).symm
  | a :: as, o, h => by
    have ha := h a List.mem_cons_self
    have hrest : ∀ b ∈ as, b.1 ∈ (o.set a.1 a.2).keys := fun b hb => by
      rw [keys_set ha]
      exact h b (List.mem_cons_of_mem a hb)
    have ih := members_assign as hrest
    rw [members_set ha, List.map_map] at ih
    exact ih

theorem assign_append (o : JsonObject) (as bs : List Member) :
    o.assign (as ++ bs) = (o.assign as).assign bs := List.foldl_append

/-- A member that has just been assigned to. -/
theorem get?_set (o : JsonObject) (k : JsonString) (v : JsonValue) : (o.set k v).get? k = some v := by
  unfold get?
  by_cases h : k ∈ o.keys
  · obtain ⟨m, hm, rfl⟩ := List.mem_map.mp h
    have hin : (m.1, v) ∈ (o.set m.1 v).members := by
      rw [members_set h]
      refine List.mem_map.mpr ⟨m, hm, ?_⟩
      rw [if_pos rfl]
    rcases hf : (o.set m.1 v).members.find? fun m' => m'.1 = m.1 with _ | p
    · have hne := List.find?_eq_none.mp hf _ hin
      exact absurd (decide_eq_true rfl) hne
    · have hp : p.1 = m.1 := by simpa using List.find?_some hf
      have hmem := List.mem_of_find?_eq_some hf
      rw [members_set h] at hmem
      obtain ⟨q, -, hq⟩ := List.mem_map.mp hmem
      have hvalue : p.2 = v := by
        rw [← hq] at hp ⊢
        exact if_pos hp.symm
      rw [hf, Option.map_some, hvalue]
  · have hnone : o.members.find? (fun m => m.1 = k) = none :=
      List.find?_eq_none.mpr fun m hm hk => h (List.mem_map.mpr ⟨m, hm, by simpa using hk⟩)
    show ((if k ∈ o.keys then _ else o.members ++ [(k, v)]).find? _).map _ = _
    rw [if_neg h, List.find?_append, hnone]
    simp

theorem get?_set_of_ne (h : k ≠ k') : (o.set k v).get? k' = o.get? k' := by
  unfold get?
  by_cases hk : k ∈ o.keys
  · rw [members_set hk, List.find?_map, Option.map_map]
    show (o.members.find? fun m => m.1 = k').map _ = _
    rcases hf : o.members.find? fun m => m.1 = k' with _ | p
    · rw [hf]
      rfl
    · have hp : p.1 = k' := by simpa using List.find?_some hf
      rw [hf]
      show some (if k = p.1 then v else p.2) = some p.2
      rw [if_neg fun he => h (he.trans hp)]
  · show ((if k ∈ o.keys then _ else o.members ++ [(k, v)]).find? _).map _ = _
    rw [if_neg hk, List.find?_append]
    simp [h]

/-- A member after assignments: what the last one to it has left. -/
theorem get?_assign (k : JsonString) : ∀ (as : List Member) (o : JsonObject),
    (o.assign as).get? k = as.foldl (fun v a => if a.1 = k then some a.2 else v) (o.get? k)
  | [], _ => rfl
  | a :: as, o => by
    have ih := get?_assign k as (o.set a.1 a.2)
    have hset : (o.set a.1 a.2).get? k = if a.1 = k then some a.2 else o.get? k := by
      split_ifs with h
      · rw [← h]
        exact get?_set o a.1 a.2
      · exact get?_set_of_ne h
    rw [hset] at ih
    exact ih

theorem ext_members {o o' : JsonObject} (h : o.members = o'.members) : o = o' := by
  cases o
  cases o'
  exact (JsonObject.mk.injEq ..).mpr h

end JsonObject

/-! ### Objects that are printed as they are -/

theorem plain_injective : Function.Injective plain :=
  List.map_injective_iff.mpr fun _ _ => JsonChar.byte.inj

/-- The value that a printed value stands for. -/
def RawValue.value : RawValue → JsonValue
  | .string t => .string (plain t)
  | .number n => .number (.ofNat n)

def RawMember.member (m : RawMember) : Member := (plain m.1, m.2.value)

/-- The object with these members, of which later ones take the place of earlier ones. -/
def JsonObject.ofMembers (ms : List Member) : JsonObject := JsonObject.empty.assign ms

def JsonObject.ofRaw (ms : List RawMember) : JsonObject :=
  .ofMembers (ms.map RawMember.member)

theorem JsonObject.members_assign_new : ∀ (ms : List Member) {o : JsonObject},
    (o.keys ++ ms.map Prod.fst).Nodup → (o.assign ms).members = o.members ++ ms
  | [], o, _ => (List.append_nil _).symm
  | m :: ms, o, h => by
    have hm : m.1 ∉ o.keys := fun hin =>
      (List.nodup_append.mp h).2.2 m.1 hin m.1 List.mem_cons_self rfl
    have hset : (o.set m.1 m.2).members = o.members ++ [m] := if_neg hm
    have hkeys : (o.set m.1 m.2).keys = o.keys ++ [m.1] := by
      unfold JsonObject.keys
      rw [hset, List.map_append]
      rfl
    have ih := @members_assign_new ms (o.set m.1 m.2) (by
      rw [hkeys, List.append_assoc]
      exact h)
    rw [hset, List.append_assoc] at ih
    exact ih

variable {ms : List RawMember}

theorem keys_raw (ms : List RawMember) : (ms.map RawMember.member).map Prod.fst =
    (ms.map Prod.fst).map plain := by
  rw [List.map_map, List.map_map]
  rfl

theorem JsonObject.members_ofRaw (h : (ms.map Prod.fst).Nodup) :
    (JsonObject.ofRaw ms).members = ms.map RawMember.member := by
  refine JsonObject.members_assign_new _ ?_
  rw [keys_raw]
  exact h.map plain_injective

theorem JsonObject.get?_ofRaw (h : (ms.map Prod.fst).Nodup) {m : RawMember} (hm : m ∈ ms) :
    (JsonObject.ofRaw ms).get? (plain m.1) = some m.2.value := by
  have hkeys : ((ms.map RawMember.member).map Prod.fst).Nodup := by
    rw [keys_raw]
    exact h.map plain_injective
  have hin : m.member ∈ ms.map RawMember.member := List.mem_map_of_mem hm
  unfold JsonObject.get?
  rw [JsonObject.members_ofRaw h]
  rcases hf : (ms.map RawMember.member).find? fun a => a.1 = plain m.1 with _ | a
  · exact absurd (decide_eq_true rfl) (List.find?_eq_none.mp hf m.member hin)
  · have ha : a.1 = plain m.1 := by simpa using List.find?_some hf
    have hsame := List.inj_on_of_nodup_map hkeys (List.mem_of_find?_eq_some hf) hin ha
    rw [hf, Option.map_some, hsame]
    rfl

/-- A text that is written between quotes as it is. -/
structure Unquoted (t : Text) : Prop where
  above : Above 32 t
  quote : 34 ∉ t
  backslash : 92 ∉ t

theorem PlainText.unquoted {t : Text} (h : PlainText t) : Unquoted t :=
  ⟨h.bytes.2.2, h.bytes.1, h.bytes.2.1⟩

theorem escape_unquoted {t : Text} (h : Unquoted t) : escape (plain t) = t := by
  have hbyte : ∀ b ∈ t, escapeByte b = [b] := by
    intro b hb
    have hesc := escaped_escapeByte b
    have h32 := h.above b hb
    have hquote : b ≠ 34 := fun he => h.quote (he ▸ hb)
    have hback : b ≠ 92 := fun he => h.backslash (he ▸ hb)
    generalize escapeByte b = e at hesc
    cases hesc with
    | raw => rfl
    | quote => exact absurd rfl hquote
    | backslash => exact absurd rfl hback
    | coded hu =>
      have := hu b rfl
      omega
  unfold escape plain
  rw [List.flatMap_map]
  calc t.flatMap (fun b => escapeChar (.byte b)) = t.flatMap fun b => [b] :=
        List.flatMap_congr fun b hb => hbyte b hb
    _ = t := by simp

theorem quoted_unquoted {t : Text} (h : Unquoted t) : quoted (plain t) = 34 :: (t ++ [34]) := by
  unfold quoted
  rw [escape_unquoted h]
  rfl

/-- The members are written as they are printed. -/
structure Verbatim (ms : List RawMember) : Prop where
  keys : ∀ m ∈ ms, Unquoted m.1
  strings : ∀ m ∈ ms, ∀ t, m.2 = .string t → Unquoted t
  numbers : ∀ m ∈ ms, ∀ n, m.2 = .number n → n < 10 ^ 21

theorem Keyed.verbatim (h : Keyed ms) (hplain : ∀ m ∈ ms, PlainValue m.2)
    (hnumbers : ∀ m ∈ ms, ∀ n, m.2 = .number n → n < 10 ^ 21) : Verbatim ms :=
  ⟨fun m hm => (h.keys m hm).unquoted, fun m hm t ht => (hplain m hm t ht).unquoted, hnumbers⟩

theorem membersText_raw : ∀ {ms : List RawMember}, Verbatim ms →
    membersText (ms.map RawMember.member) = List.intercalate [44] (ms.map rawMemberText)
  | [], _ => rfl
  | m :: ms, h => by
    have hmember : memberText m.member = rawMemberText m := by
      have hvalue : valueText m.2.value = m.2.text := by
        rcases hv : m.2 with t | n
        · exact quoted_unquoted (h.strings m List.mem_cons_self t hv)
        · exact JsonNumber.text_ofNat (h.numbers m List.mem_cons_self n hv)
      unfold memberText rawMemberText RawMember.member
      rw [hvalue, quoted_unquoted (h.keys m List.mem_cons_self)]
    have ih := @membersText_raw ms
      ⟨fun m' hm => h.keys m' (List.mem_cons_of_mem m hm),
        fun m' hm => h.strings m' (List.mem_cons_of_mem m hm),
        fun m' hm => h.numbers m' (List.mem_cons_of_mem m hm)⟩
    cases ms with
    | nil =>
      rw [List.map_cons, List.map_nil, membersText, hmember, List.map_cons, List.map_nil,
        List.intercalate_singleton]
    | cons m' ms =>
      rw [List.map_cons, List.map_cons, membersText, hmember, List.map_cons, List.map_cons,
        List.intercalate_cons_cons]
      · rw [List.map_cons, List.map_cons] at ih
        rw [ih]
        simp
      · exact fun h => List.cons_ne_nil _ _ h

/-- **An object is written as a program prints it that escapes nothing.** -/
theorem stringify_ofRaw (hkeys : (ms.map Prod.fst).Nodup) (h : Verbatim ms) :
    stringify (.ofRaw ms) = rawObject ms := by
  unfold stringify rawObject
  rw [JsonObject.members_ofRaw hkeys, membersText_raw h]

/-! ### Reading -/

/-- A value that is no array and no object. Only natural numbers are read. -/
def scalar : JsonTree → Option JsonValue
  | .null => some .null
  | .bool b => some (.bool b)
  | .number x => if x.den = 1 ∧ 0 ≤ x.num then some (.number (.ofNat x.num.toNat)) else none
  | .string s => some (.string (plain (utf8 s)))
  | .array _ | .object _ => none

def treeMember (p : List Char × JsonTree) : Option Member :=
  (scalar p.2).map fun v => (plain (utf8 p.1), v)

/-- The flat object that a tree is, if it is one. -/
def flatObject : JsonTree → Option JsonObject
  | .object ps => (ps.mapM treeMember).map .ofMembers
  | _ => none

/-- What `JSON.parse` makes of the text of a flat object. -/
def parseObject (t : Text) : Option JsonObject := (parse t).bind flatObject

theorem scalar_of_raw {x : JsonTree} {v : RawValue} (h : Says x v) : scalar x = some v.value := by
  cases v with
  | string t =>
    cases x with
    | string s =>
      have hs : utf8 s = t := h
      rw [← hs]
      rfl
    | _ => exact h.elim
  | number n =>
    cases x with
    | number q =>
      have hq : q = n := h
      have hnat : q.den = 1 ∧ 0 ≤ q.num := by
        rw [hq]
        exact ⟨rfl, Int.natCast_nonneg n⟩
      rw [scalar, if_pos hnat, hq]
      rfl
    | _ => exact h.elim

theorem mapM_of_matches {o : List (List Char × JsonTree)} (h : List.Forall₂ Matches o ms) :
    o.mapM treeMember = some (ms.map RawMember.member) := by
  induction h with
  | nil => rfl
  | @cons p m o ms hp _ ih =>
    have hm : treeMember p = some m.member := by
      unfold treeMember RawMember.member
      rw [scalar_of_raw hp.2, hp.1]
      rfl
    rw [List.mapM_cons, hm, ih]
    rfl

/-- **An object that is printed is read as it is.** -/
theorem parseObject_rawObject (h : Keyed ms) (hplain : ∀ m ∈ ms, PlainValue m.2) :
    parseObject (rawObject ms) = some (.ofRaw ms) := by
  have hlen := length_lt_rawObject h.nonempty
  obtain ⟨o, hread, ho⟩ := @readMembers_raw ms (rawObject ms).length [] h.nonempty
    (fun m hm => ⟨h.keys m hm, hplain m hm⟩) (by omega)
  have hvalue := readValue_rawObject h.nonempty (rawObject ms).length []
  rw [List.append_nil, hread] at hvalue
  have hparse : parse (rawObject ms) = some (.object o) := by
    rw [parse, hvalue]
    rfl
  unfold parseObject
  rw [hparse, Option.bind_some]
  show (o.mapM treeMember).map _ = _
  rw [mapM_of_matches ho]
  rfl

end MqttFieldBridge.Json
