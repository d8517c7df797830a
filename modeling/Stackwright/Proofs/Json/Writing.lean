import Stackwright.Proofs.Json.Reading
import Stackwright.Value.Document

/-! # Documents are JSON

A document without floats is written as JSON text that a reader takes for what the document is: names and strings
are escaped so that no character of theirs is read as a part of the notation, and every list and record ends where
its last entry does. So different documents have different texts.

* **`Document.json?`** — the JSON value that a document stands for.
* **`Document.parse_render`** — the text of a document is read as that.
* **`Document.json_injective`** — different documents stand for different values. -/

namespace Stackwright

namespace Document

variable {floatText : (k : FloatKind) → BitVec k.bits → String} {c : Char} {s : String} {rest : List Char} {n : Nat}

/-! ## The value of a document -/

mutual

/-- The **JSON value** that a document stands for, if there is no float in it. -/
def json? : Document → Option Json
  | .null => some .null
  | .bool b => some (.bool b)
  | .int i => some (.number i 0)
  | .float .. => none
  | .text s => some (.string s)
  | .list items => (jsonAll? items).map .array
  | .record entries => (jsonEntries? entries).map .object

/-- The JSON values of several documents. -/
def jsonAll? : List Document → Option (List Json)
  | [] => some []
  | d :: ds => do
    let j ← json? d
    let js ← jsonAll? ds
    some (j :: js)

/-- The JSON values of named documents. -/
def jsonEntries? : List (String × Document) → Option (List (String × Json))
  | [] => some []
  | (name, d) :: ds => do
    let j ← json? d
    let js ← jsonEntries? ds
    some ((name, j) :: js)

end

theorem jsonAll?_cons {d : Document} {ds : List Document} {js : List Json} :
    jsonAll? (d :: ds) = some js ↔ ∃ j k, json? d = some j ∧ jsonAll? ds = some k ∧ js = j :: k := by
  rw [jsonAll?]
  cases json? d <;> cases jsonAll? ds <;> simp [eq_comm]

theorem jsonEntries?_cons {name : String} {d : Document} {ds : List (String × Document)}
    {js : List (String × Json)} :
    jsonEntries? ((name, d) :: ds) = some js ↔
      ∃ j k, json? d = some j ∧ jsonEntries? ds = some k ∧ js = (name, j) :: k := by
  rw [jsonEntries?]
  cases json? d <;> cases jsonEntries? ds <;> simp [eq_comm]

/-- What the documents are that stand for a value. -/
theorem json?_inv {d : Document} {j : Json} (hd : d.json? = some j) :
    match j with
    | .null => d = .null
    | .bool b => d = .bool b
    | .number m _ => d = .int m
    | .string s => d = .text s
    | .array js => ∃ items, d = .list items ∧ jsonAll? items = some js
    | .object js => ∃ entries, d = .record entries ∧ jsonEntries? entries = some js := by
  cases d with
  | float k x => cases hd
  | list items =>
    obtain ⟨js, hjs, rfl⟩ := Option.map_eq_some_iff.1 hd
    exact ⟨items, rfl, hjs⟩
  | record entries =>
    obtain ⟨js, hjs, rfl⟩ := Option.map_eq_some_iff.1 hd
    exact ⟨entries, rfl, hjs⟩
  | _ =>
    cases hd
    rfl

theorem jsonAll?_inv {ds : List Document} {js : List Json} (hds : jsonAll? ds = some js) :
    match js with
    | [] => ds = []
    | j :: js => ∃ d rest, ds = d :: rest ∧ json? d = some j ∧ jsonAll? rest = some js := by
  cases ds with
  | nil =>
    cases hds
    rfl
  | cons d ds =>
    obtain ⟨j, js, hj, hjs, rfl⟩ := jsonAll?_cons.1 hds
    exact ⟨d, ds, rfl, hj, hjs⟩

theorem jsonEntries?_inv {ds : List (String × Document)} {js : List (String × Json)}
    (hds : jsonEntries? ds = some js) :
    match js with
    | [] => ds = []
    | (name, j) :: js => ∃ d rest, ds = (name, d) :: rest ∧ json? d = some j ∧ jsonEntries? rest = some js := by
  cases ds with
  | nil =>
    cases hds
    rfl
  | cons d ds =>
    obtain ⟨j, js, hj, hjs, rfl⟩ := jsonEntries?_cons.1 hds
    exact ⟨d.2, ds, rfl, hj, hjs⟩

mutual

/-- **Different documents stand for different values.** -/
theorem json_injective : ∀ (j : Json) {d e : Document}, d.json? = some j → e.json? = some j → d = e
  | .null, _, _, hd, he => (json?_inv hd).trans (json?_inv he).symm
  | .bool _, _, _, hd, he => (json?_inv hd).trans (json?_inv he).symm
  | .number .., _, _, hd, he => (json?_inv hd).trans (json?_inv he).symm
  | .string _, _, _, hd, he => (json?_inv hd).trans (json?_inv he).symm
  | .array js, _, _, hd, he => by
    obtain ⟨items, rfl, hitems⟩ := json?_inv hd
    obtain ⟨items', rfl, hitems'⟩ := json?_inv he
    rw [jsonAll_injective js hitems hitems']
  | .object js, _, _, hd, he => by
    obtain ⟨entries, rfl, hentries⟩ := json?_inv hd
    obtain ⟨entries', rfl, hentries'⟩ := json?_inv he
    rw [jsonEntries_injective js hentries hentries']

theorem jsonAll_injective : ∀ (js : List Json) {ds es : List Document},
    jsonAll? ds = some js → jsonAll? es = some js → ds = es
  | [], _, _, hd, he => (jsonAll?_inv hd).trans (jsonAll?_inv he).symm
  | j :: js, _, _, hd, he => by
    obtain ⟨d, ds, rfl, hj, hjs⟩ := jsonAll?_inv hd
    obtain ⟨e, es, rfl, hj', hjs'⟩ := jsonAll?_inv he
    rw [json_injective j hj hj', jsonAll_injective js hjs hjs']

theorem jsonEntries_injective : ∀ (js : List (String × Json)) {ds es : List (String × Document)},
    jsonEntries? ds = some js → jsonEntries? es = some js → ds = es
  | [], _, _, hd, he => (jsonEntries?_inv hd).trans (jsonEntries?_inv he).symm
  | (_, j) :: js, _, _, hd, he => by
    obtain ⟨d, ds, rfl, hj, hjs⟩ := jsonEntries?_inv hd
    obtain ⟨e, es, rfl, hj', hjs'⟩ := jsonEntries?_inv he
    rw [json_injective j hj hj', jsonEntries_injective js hjs hjs']

end

/-! ## Strings -/

/-- The digits of a number below sixteen are read back. -/
theorem hexValue_hexDigit : ∀ n < 16, Json.hexValue? (hexDigit n) = some n := by decide

/-- Every character is **escaped so that it is read back**. -/
theorem writes_escapeChar (c : Char) : Json.Writes (escapeChar c) c := by
  unfold escapeChar
  split
  · exact ⟨⟨_, _, rfl, by decide⟩, fun rest => rfl⟩
  · exact ⟨⟨_, _, rfl, by decide⟩, fun rest => rfl⟩
  · exact ⟨⟨_, _, rfl, by decide⟩, fun rest => rfl⟩
  · exact ⟨⟨_, _, rfl, by decide⟩, fun rest => rfl⟩
  · exact ⟨⟨_, _, rfl, by decide⟩, fun rest => rfl⟩
  · exact ⟨⟨_, _, rfl, by decide⟩, fun rest => rfl⟩
  · exact ⟨⟨_, _, rfl, by decide⟩, fun rest => rfl⟩
  · rename_i hquote hslash _ _ _ _ _
    split
    · rename_i hcontrol
      have hhigh := hexValue_hexDigit (c.toNat / 16) (by omega)
      have hlow := hexValue_hexDigit (c.toNat % 16) (by omega)
      have hzero : Json.hexValue? '0' = some 0 := rfl
      have hchar : c.toNat / 16 * 16 + c.toNat % 16 = c.toNat := by omega
      refine ⟨⟨_, _, rfl, by decide⟩, fun rest => ?_⟩
      simp [Json.readCharacter, Json.readEscape, Json.readCode, Json.readUnit, hhigh, hlow, hzero, hchar]
      omega
    · rename_i hcontrol
      refine ⟨⟨c, [], rfl, hquote⟩, fun rest => ?_⟩
      rw [List.cons_append, Json.readCharacter, if_neg hslash, if_neg hcontrol]
      rfl

theorem toList_quote (s : String) : (quote s).toList = '\x22' :: (s.toList.flatMap escapeChar ++ ['\x22']) := by
  simp [quote]

/-- A string in quotes is read back. -/
theorem readString_quote (s : String) (rest : List Char) :
    Json.readString (s.toList.flatMap escapeChar ++ '\x22' :: rest) = some (s, rest) :=
  Json.readString_flatMap writes_escapeChar s rest

/-! ## Documents -/

/-- The characters of a document. -/
def chars (floatText : (k : FloatKind) → BitVec k.bits → String) (d : Document) : List Char :=
  (d.render floatText).toList

/-- The characters of several texts with commas between them. -/
def commas (texts : List String) : List Char := (",".intercalate texts).toList

theorem commas_singleton (t : String) : commas [t] = t.toList := by
  rw [commas, String.intercalate_singleton]

theorem commas_cons (t u : String) (texts : List String) :
    commas (t :: u :: texts) = t.toList ++ ',' :: commas (u :: texts) := by
  rw [commas, String.intercalate_cons_cons, String.toList_append, String.toList_append, List.append_assoc]
  rfl

attribute [local simp] render renderAll renderEntries

theorem chars_null : chars floatText .null = ['n', 'u', 'l', 'l'] := by
  simp [chars]

theorem chars_bool (b : Bool) :
    chars floatText (.bool b) = if b then ['t', 'r', 'u', 'e'] else ['f', 'a', 'l', 's', 'e'] := by
  cases b <;> simp [chars]

theorem chars_int (i : Int) : chars floatText (.int i) = (toString i).toList := by
  simp [chars]

theorem chars_text (s : String) :
    chars floatText (.text s) = '\x22' :: (s.toList.flatMap escapeChar ++ ['\x22']) := by
  simp [chars, toList_quote]

theorem chars_list (items : List Document) :
    chars floatText (.list items) = '[' :: (commas (renderAll floatText items) ++ [']']) := by
  simp [chars, commas]

theorem chars_record (entries : List (String × Document)) :
    chars floatText (.record entries) = '\x7b' :: (commas (renderEntries floatText entries) ++ ['\x7d']) := by
  simp [chars, commas]

/-- A named document is its name, a colon and the document. -/
theorem toList_entry (name : String) (d : Document) :
    (quote name ++ ":" ++ d.render floatText).toList =
      '\x22' :: (name.toList.flatMap escapeChar ++ '\x22' :: ':' :: chars floatText d) := by
  simp [chars, toList_quote]

variable (floatText) in
/-- The text of a document begins with no blank and no closing bracket. -/
theorem exists_chars {d : Document} {j : Json} (hd : d.json? = some j) :
    ∃ c tail, chars floatText d = c :: tail ∧ Json.isBlank c = false ∧ c ≠ ']' := by
  cases d with
  | null => exact ⟨'n', _, chars_null, rfl, by decide⟩
  | bool b =>
    rw [chars_bool]
    cases b
    · exact ⟨'f', _, rfl, rfl, by decide⟩
    · exact ⟨'t', _, rfl, rfl, by decide⟩
  | int i =>
    obtain ⟨c, tail, htext, hc⟩ := Json.exists_toString i
    exact ⟨c, tail, chars_int i ▸ htext, Json.not_blank_of_number hc, Json.ne_of_number hc (by decide) rfl⟩
  | float k x => cases hd
  | text s => exact ⟨'\x22', _, chars_text s, rfl, by decide⟩
  | list items => exact ⟨'[', _, chars_list items, rfl, by decide⟩
  | record entries => exact ⟨'\x7b', _, chars_record entries, rfl, by decide⟩

variable (floatText) in
/-- So does the text of a list's items. -/
theorem exists_items {d : Document} (ds : List Document) {j : Json} (hd : d.json? = some j) :
    ∃ c tail, commas (renderAll floatText (d :: ds)) = c :: tail ∧ Json.isBlank c = false ∧ c ≠ ']' := by
  obtain ⟨c, tail, htext, hc⟩ := exists_chars floatText hd
  cases ds with
  | nil => exact ⟨c, tail, (commas_singleton _).trans htext, hc⟩
  | cons e ds =>
    refine ⟨c, tail ++ ',' :: commas (renderAll floatText (e :: ds)), ?_, hc⟩
    rw [renderAll, renderAll, commas_cons, ← chars, htext]
    rfl

variable (floatText) in
/-- The text of an entry begins with the quote before its name. -/
theorem exists_entries (name : String) (d : Document) (ds : List (String × Document)) :
    ∃ tail, commas (renderEntries floatText ((name, d) :: ds)) = '\x22' :: tail := by
  cases ds with
  | nil => exact ⟨_, (commas_singleton _).trans (toList_entry name d)⟩
  | cons p ds =>
    have htext : commas (renderEntries floatText ((name, d) :: p :: ds)) =
        (quote name ++ ":" ++ d.render floatText).toList ++ ',' :: commas (renderEntries floatText (p :: ds)) :=
      commas_cons _ _ _
    rw [htext, toList_entry]
    exact ⟨_, rfl⟩

/-- A document is **read back** as a value, and what follows it is left, if it may follow a value. -/
def Reads (floatText : (k : FloatKind) → BitVec k.bits → String) (d : Document) (j : Json) : Prop :=
  ∀ (n : Nat) (rest : List Char), Json.Ends rest → (chars floatText d).length ≤ n →
    Json.readValue (n + 1) (chars floatText d ++ rest) = some (j, rest)

/-- A list is read back **item by item**. -/
theorem readItems_chars {ds : List Document} {js : List Json} (hne : ds ≠ []) (hds : jsonAll? ds = some js)
    (hread : ∀ d ∈ ds, ∀ j, json? d = some j → Reads floatText d j)
    (hn : (commas (renderAll floatText ds)).length < n) (rest : List Char) :
    Json.readItems (n + 1) (commas (renderAll floatText ds) ++ ']' :: rest) = some (js, rest) := by
  -- the last item is followed by the closing bracket, any other by a comma and the rest of the items
  induction ds generalizing js n with
  | nil => exact absurd rfl hne
  | cons d ds ih =>
    obtain ⟨j, js, hj, hjs, rfl⟩ := jsonAll?_cons.1 hds
    obtain ⟨n, rfl⟩ := Nat.exists_eq_add_of_le' (Nat.one_le_of_lt hn)
    have hitem := hread d List.mem_cons_self j hj
    cases ds with
    | nil =>
      cases hjs
      have htext : commas (renderAll floatText [d]) = chars floatText d := commas_singleton _
      rw [htext] at hn ⊢
      exact Json.readItems_last (hitem n _ (by simp [Json.Ends]) (Nat.le_of_lt_succ hn))
    | cons e ds =>
      have htext : commas (renderAll floatText (d :: e :: ds)) =
          chars floatText d ++ ',' :: commas (renderAll floatText (e :: ds)) := commas_cons _ _ _
      rw [htext, List.length_append, List.length_cons] at hn
      rw [htext, List.append_assoc, List.cons_append]
      refine Json.readItems_more (hitem n _ (by simp [Json.Ends]) (by omega)) ?_
      exact ih (by simp) hjs (fun d hd => hread d (List.mem_cons_of_mem _ hd)) (by omega)

/-- A record is read back **entry by entry**. -/
theorem readMembers_chars {ds : List (String × Document)} {js : List (String × Json)} (hne : ds ≠ [])
    (hds : jsonEntries? ds = some js) (hread : ∀ p ∈ ds, ∀ j, json? p.2 = some j → Reads floatText p.2 j)
    (hn : (commas (renderEntries floatText ds)).length < n) (rest : List Char) :
    Json.readMembers (n + 1) (commas (renderEntries floatText ds) ++ '\x7d' :: rest) = some (js, rest) := by
  induction ds generalizing js n with
  | nil => exact absurd rfl hne
  | cons p ds ih =>
    obtain ⟨name, d⟩ := p
    obtain ⟨j, js, hj, hjs, rfl⟩ := jsonEntries?_cons.1 hds
    obtain ⟨n, rfl⟩ := Nat.exists_eq_add_of_le' (Nat.one_le_of_lt hn)
    have hvalue : Reads floatText d j := hread _ List.mem_cons_self j hj
    cases ds with
    | nil =>
      cases hjs
      have htext : commas (renderEntries floatText [(name, d)]) = _ :=
        (commas_singleton _).trans (toList_entry name d)
      rw [htext] at hn ⊢
      simp only [List.length_cons, List.length_append] at hn
      rw [List.cons_append, List.append_assoc]
      exact Json.readMembers_last (readString_quote name _) (hvalue n _ (by simp [Json.Ends]) (by omega))
    | cons q ds =>
      have htext : commas (renderEntries floatText ((name, d) :: q :: ds)) =
          (quote name ++ ":" ++ d.render floatText).toList ++ ',' :: commas (renderEntries floatText (q :: ds)) :=
        commas_cons _ _ _
      rw [htext, toList_entry] at hn ⊢
      simp only [List.length_cons, List.length_append] at hn
      rw [List.append_assoc, List.cons_append, List.append_assoc]
      refine Json.readMembers_more (readString_quote name _) (hvalue n _ (by simp [Json.Ends]) (by omega)) ?_
      exact ih (by simp) hjs (fun p hp => hread p (List.mem_cons_of_mem _ hp)) (by omega)

/-- Every document without floats is **read back**. -/
theorem reads_of_json {d : Document} {j : Json} (hd : d.json? = some j) : Reads floatText d j := by
  -- by the size of the document: what is in it is smaller
  induction hsize : sizeOf d using Nat.strong_induction_on generalizing d j with
  | _ size ih =>
    intro n rest hrest hn
    cases d with
    | null =>
      cases hd
      rw [chars_null]
      exact Json.readValue_null
    | bool b =>
      cases hd
      rw [chars_bool]
      cases b
      · exact Json.readValue_false
      · exact Json.readValue_true
    | int i =>
      cases hd
      obtain ⟨c, tail, htext, hc⟩ := Json.exists_toString i
      have hread := Json.readNumber_toString i hrest
      rw [htext] at hread
      rw [chars_int, htext]
      exact (Json.readValue_number hc).trans hread
    | float k x => cases hd
    | text s =>
      cases hd
      rw [chars_text, List.cons_append, List.append_assoc]
      exact Json.readValue_string (readString_quote s rest)
    | list items =>
      obtain ⟨js, hjs, rfl⟩ := Option.map_eq_some_iff.1 hd
      have hsmaller : ∀ d ∈ items, ∀ j, json? d = some j → Reads floatText d j := by
        intro d hmem j hj
        have := List.sizeOf_lt_of_mem hmem
        simp only [list.sizeOf_spec] at hsize
        exact ih (sizeOf d) (by omega) hj rfl
      rw [chars_list] at hn ⊢
      simp only [List.length_cons, List.length_append] at hn
      rw [List.cons_append, List.append_assoc]
      cases items with
      | nil =>
        cases hjs
        exact Json.readValue_array_nil
      | cons d ds =>
        obtain ⟨n, rfl⟩ := Nat.exists_eq_add_of_le' (Nat.one_le_of_lt hn)
        have hsmall : (commas (renderAll floatText (d :: ds))).length < n := by omega
        have hitems := readItems_chars (List.cons_ne_nil d ds) hjs hsmaller hsmall rest
        obtain ⟨j, -, hj, -, -⟩ := jsonAll?_cons.1 hjs
        obtain ⟨c, tail, htext, hblank, hopen⟩ := exists_items floatText ds hj
        rw [htext] at hitems ⊢
        exact Json.readValue_array hblank hopen hitems
    | record entries =>
      obtain ⟨js, hjs, rfl⟩ := Option.map_eq_some_iff.1 hd
      have hsmaller : ∀ p ∈ entries, ∀ j, json? p.2 = some j → Reads floatText p.2 j := by
        rintro ⟨name, d⟩ hmem j hj
        have := List.sizeOf_lt_of_mem hmem
        simp only [Prod.mk.sizeOf_spec] at this
        simp only [record.sizeOf_spec] at hsize
        exact ih (sizeOf d) (by omega) hj rfl
      rw [chars_record] at hn ⊢
      simp only [List.length_cons, List.length_append] at hn
      rw [List.cons_append, List.append_assoc]
      cases entries with
      | nil =>
        cases hjs
        exact Json.readValue_object_nil
      | cons p ds =>
        obtain ⟨n, rfl⟩ := Nat.exists_eq_add_of_le' (Nat.one_le_of_lt hn)
        have hsmall : (commas (renderEntries floatText (p :: ds))).length < n := by omega
        have hmembers := readMembers_chars (List.cons_ne_nil p ds) hjs hsmaller hsmall rest
        obtain ⟨tail, htext⟩ := exists_entries floatText p.1 p.2 ds
        rw [htext] at hmembers ⊢
        exact Json.readValue_object hmembers

variable (floatText) in
/-- The text of a document without floats is **JSON**, and reads as the value that the document stands for. -/
theorem parse_render {d : Document} {j : Json} (hd : d.json? = some j) :
    Json.parse (d.render floatText) = some j := by
  have hread : Reads floatText d j := reads_of_json hd
  have hlength : (chars floatText d).length ≤ (d.render floatText).length := by
    rw [chars, String.length_toList]
  have hend : Json.Ends [] := nofun
  have htext := hread _ [] hend hlength
  rw [List.append_nil, chars] at htext
  rw [Json.parse, htext]
  rfl

/-- Documents without floats have **the same text** exactly if they stand for the same value. -/
theorem render_eq_iff {d e : Document} {i j : Json} (hd : d.json? = some i) (he : e.json? = some j) :
    d.render floatText = e.render floatText ↔ i = j := by
  constructor
  · intro htext
    have hread := parse_render floatText hd
    rw [htext, parse_render floatText he] at hread
    exact (Option.some_inj.1 hread).symm
  · rintro rfl
    rw [json_injective i hd he]

end Document

end Stackwright
