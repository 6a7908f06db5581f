import MqttFieldBridge.Http.Members

/-! # Strings that are read back

`json_get_string` stores into the caller's array byte by byte, under an index that it checks against
the capacity. Every store falls into the array (`jsonGetStringStores_eq`). A string that is written with
a backslash before each quote and each backslash is read back if it fits with its NUL, and refused if
it does not (`jsonGetString_encoded`). -/

namespace MqttFieldBridge.Http

open MqttFieldBridge.CLib MqttFieldBridge.Config MqttFieldBridge.Json

variable {cap : ℕ} {body key s ws rest : Text}

/-! ### Store by store -/

/-- `a[i] = b`, if the array has this index. -/
def store (a : List Byte) (i : ℕ) (b : Byte) : Option (List Byte) :=
  if i < a.length then some (a.set i b) else none

/-- The loop of `json_get_string` with `n` bytes stored: where it stops, how many are stored then, and
the array. -/
def storeLoop (cap : ℕ) (p : Text) (n : ℕ) (out : List Byte) : Option (Text × ℕ × List Byte) :=
  match p with
  | [] => some ([], n, out)
  | c :: cs =>
    if c ≠ quote ∧ n + 1 < cap then
      (store out n (nextByte c cs).1).bind (storeLoop cap (nextByte c cs).2 (n + 1))
    else some (c :: cs, n, out)
termination_by cap - n

/-- `json_get_string`, up to the first store that misses the array. -/
def jsonGetStringStores (cap : ℕ) (json key : Text) (out : List Byte) :
    Option (Rc × List Byte) :=
  match jsonFindKey json key with
  | none => some (.err, out)
  | some p =>
    if cap = 0 then some (.err, out)
    else
      match (afterChr p colon).map skipSpace with
      | some (c :: p) =>
        if c = quote then
          (storeLoop cap p 0 out).bind fun r =>
            (store r.2.2 r.2.1 0).map fun out =>
              (if r.1.head? = some quote then .ok else .err, out)
        else some (.err, out)
      | _ => some (.err, out)

/-- A store behind the bytes that are written writes one more. -/
theorem store_written {w a : List Byte} (h : w.length < a.length) (b : Byte) :
    store (w ++ a.drop w.length) w.length b =
      some ((w ++ [b]) ++ a.drop (w ++ [b]).length) := by
  have hlen : w.length < (w ++ a.drop w.length).length := by
    rw [List.length_append, List.length_drop]
    omega
  have hset : (w ++ a.drop w.length).set w.length b = w ++ b :: a.drop (w.length + 1) := by
    rw [List.set_append_right _ _ (Nat.le_refl _), Nat.sub_self, List.drop_eq_getElem_cons h,
      List.set_cons_zero]
  rw [store, if_pos hlen, hset, List.length_append, List.length_singleton, List.append_assoc,
    List.singleton_append]

/-- With room for so many bytes and a NUL the loop stores what it copies. -/
theorem storeLoop_eq {a : List Byte} : ∀ (room : ℕ) (p : Text) (w : List Byte),
    w.length + room + 1 = a.length →
      storeLoop a.length p w.length (w ++ a.drop w.length) =
        some ((copyLoop room p).2, (w ++ (copyLoop room p).1).length,
          (w ++ (copyLoop room p).1) ++ a.drop (w ++ (copyLoop room p).1).length)
  | room, [], w, h => by
    have hstop : copyLoop room [] = ([], []) := by cases room <;> rfl
    rw [storeLoop, hstop, List.append_nil]
  | 0, c :: cs, w, h => by
    have hfull : ¬ (c ≠ quote ∧ w.length + 1 < a.length) := fun hc => by omega
    rw [storeLoop, if_neg hfull, copyLoop, List.append_nil]
  | room + 1, c :: cs, w, h => by
    by_cases hc : c = quote
    · rw [storeLoop, if_neg (fun hr => hr.1 hc), copyLoop, if_pos hc, List.append_nil]
    · have hroom : w.length + 1 < a.length := by omega
      have hlen : (w ++ [(nextByte c cs).1]).length = w.length + 1 := by
        rw [List.length_append, List.length_singleton]
      have hrest := storeLoop_eq (a := a) room (nextByte c cs).2 (w ++ [(nextByte c cs).1])
        (by omega)
      have hstore := store_written (w := w) (a := a) (by omega) (nextByte c cs).1
      rw [storeLoop, if_pos ⟨hc, hroom⟩, hstore, Option.bind_some, ← hlen, hrest, copyLoop,
        if_neg hc]
      simp only [List.append_assoc, List.singleton_append]

/-- **No store misses the array**, whatever the text: what `json_get_string` leaves in it is what is
copied. -/
theorem jsonGetStringStores_eq (body key : Text) (out : CharArray cap) :
    jsonGetStringStores cap body key out.bytes =
      some ((jsonGetString body key out).1, (jsonGetString body key out).2.bytes) := by
  unfold jsonGetStringStores jsonGetString
  rcases jsonFindKey body key with _ | p
  · rfl
  by_cases hcap : cap = 0
  · simp only [if_pos hcap]
  simp only [if_neg hcap]
  rcases (afterChr p colon).map skipSpace with _ | (_ | ⟨c, p⟩)
  · rfl
  · rfl
  by_cases hc : c = quote
  · have hcopied := length_copyLoop (cap - 1) p
    have hlen := out.length_eq
    have hloop := @storeLoop_eq out.bytes (cap - 1) p [] (by rw [List.length_nil]; omega)
    rw [hlen, List.nil_append, List.length_nil, List.drop_zero, List.nil_append] at hloop
    have hwrite : (out.write ((copyLoop (cap - 1) p).1 ++ [0])).bytes = _ :=
      CharArray.bytes_write (by rw [List.length_append, List.length_singleton]; omega)
    simp only [if_pos hc]
    rw [hloop, Option.bind_some, store_written (by omega), Option.map_some, hwrite]
  · simp only [if_neg hc]

/-! ### The round trip -/

/-- The string between quotes, with a backslash before each quote and each backslash. -/
def jsonString (s : Text) : Text :=
  quote :: (s.flatMap fun b => if b = quote ∨ b = backslash then [backslash, b] else [b]) ++ [quote]

theorem escapeByte_of_ge {b : Byte} (h : 32 ≤ b.toNat) :
    escapeByte b = if b = quote ∨ b = backslash then [backslash, b] else [b] := by
  have hesc := escaped_escapeByte b
  generalize escapeByte b = e at hesc
  cases hesc with
  | raw hquote hback => rw [if_neg (not_or.mpr ⟨hquote, hback⟩)]
  | quote => rfl
  | backslash => rfl
  | coded hu =>
    have := hu b rfl
    omega

/-- A string without control characters is written with these escapes alone. -/
theorem quoted_plain (hs : Above 32 s) : quoted (plain s) = jsonString s := by
  have hescape : escape (plain s) =
      s.flatMap fun b => if b = quote ∨ b = backslash then [backslash, b] else [b] := by
    induction s with
    | nil => rfl
    | cons b s ih =>
      have hrest := ih fun c hc => hs c (List.mem_cons_of_mem b hc)
      have hb : escapeChar (.byte b) = _ := escapeByte_of_ge (hs b List.mem_cons_self)
      rw [escape_plain_cons, hrest, hb, List.flatMap_cons]
  rw [quoted, hescape, jsonString]

/-- What a string reader returns of a string without control characters: as much as there is room
for. -/
theorem jsonGetString_of_string {out : CharArray cap} (hcap : 0 < cap) (hs : Above 32 s)
    (hws : ∀ c ∈ ws, isspace c = true) (h : Found body key (ws ++ (jsonString s ++ rest))) :
    jsonGetString body key out =
      (if s.length < cap then .ok else .err, out.write (s.take (cap - 1) ++ [0])) := by
  have hskip : skipSpace (ws ++ (jsonString s ++ rest)) =
      quote :: (escape (plain s) ++ 34 :: rest) := by
    rw [skipSpace_blanks hws, ← quoted_plain hs, quoted_append]
    rfl
  rw [jsonGetString_of_found h hskip hcap, copyLoop_escape s (cap - 1) hs]
  by_cases hlen : s.length < cap
  · rw [if_pos hlen, List.drop_of_length_le (by omega)]
    rfl
  · rw [if_neg hlen]
    -- the loop stops before a byte of the string or the backslash of its escape
    have hne : s.drop (cap - 1) ≠ [] := by
      rw [ne_eq, List.drop_eq_nil_iff]
      omega
    obtain ⟨b, t, hdrop⟩ := List.exists_cons_of_ne_nil hne
    have hb : 32 ≤ b.toNat := hs b (List.mem_of_mem_drop (hdrop ▸ List.mem_cons_self))
    have hstop : (escape (plain (s.drop (cap - 1))) ++ 34 :: rest).head? ≠ some quote := by
      rw [hdrop, escape_plain_cons]
      have hesc : escapeChar (.byte b) = _ := escapeByte_of_ge hb
      rw [hesc]
      split_ifs with hquote
      · exact fun he => absurd (Option.some.inj he) (by decide)
      · exact fun he => hquote (Or.inl (Option.some.inj he))
    rw [if_neg hstop]

/-- **A string is read back if it fits**, and refused if it does not. Either way the array is left
terminated and no byte is stored outside it. -/
theorem jsonGetString_encoded (out : CharArray cap) (hkey : key.length ≤ 61) (hcolon : colon ∉ key)
    (hcap : 1 ≤ cap) (hs : Above 32 s) (hws : ∀ c ∈ ws, isspace c = true)
    (hfind : strstr body (quote :: (key ++ [quote])) =
      some (quote :: (key ++ [quote]) ++ colon :: (ws ++ (jsonString s ++ rest)))) :
    let r := jsonGetString body key out
    (s.length < cap → r.1 = .ok ∧ r.2.text = s) ∧ (cap ≤ s.length → r.1 = .err) ∧
      r.2.Terminated ∧ jsonGetStringStores cap body key out.bytes = some (r.1, r.2.bytes) := by
  have hread : jsonGetString body key out = _ :=
    jsonGetString_of_string hcap hs hws (found_of_strstr hcolon hkey hfind)
  refine ⟨fun hlen => ?_, fun hlen => ?_, ?_, jsonGetStringStores_eq body key out⟩
  · have h0 : (0 : Byte) ∉ s := fun h0 => absurd (hs 0 h0) (by decide)
    rw [hread, if_pos hlen, List.take_of_length_le (by omega)]
    exact ⟨rfl, CharArray.text_write h0 hlen⟩
  · rw [hread, if_neg (by omega)]
  · rw [hread]
    exact CharArray.terminated_write (by rw [List.length_take]; omega)

/-- The three bytes `a"b` need an array of four. -/
theorem jsonGetString_encoded_quote :
    let body := str "\x7b\"name\": \"a\\\"b\"\x7d"
    (jsonGetString body (str "name") (.zero 4)).2.text = str "a\"b" ∧
      (jsonGetString body (str "name") (.zero 3)).1 = .err := by
  have hfind : strstr (str "\x7b\"name\": \"a\\\"b\"\x7d") (quote :: (str "name" ++ [quote])) =
      some (quote :: (str "name" ++ [quote]) ++
        colon :: ([32] ++ (jsonString (str "a\"b") ++ str "\x7d"))) := by decide
  have hread := fun cap hcap out => @jsonGetString_encoded cap _ _ _ _ _ out (by decide)
    (by decide) hcap (by decide) (List.forall_mem_singleton.mpr rfl) hfind
  exact ⟨((hread 4 (by decide) (.zero 4)).1 (by decide)).2,
    (hread 3 (by decide) (.zero 3)).2.1 (by decide)⟩

end MqttFieldBridge.Http
