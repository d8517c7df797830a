import Mathlib.Algebra.Group.Nat.Defs
import Mathlib.Data.List.DropRight
import Stackwright.Builtin

/-! # Templates piece by piece

What a format string may be, told without a scan: a row of **pieces**, each of them a character that is
no brace, a brace written twice, or an item. The scan reads exactly these rows.

* **`Template.Names`** — how the body of an item names an index: blanks, perhaps a plus sign, decimal
  digits, blanks, and nothing more before the end or the first comma or colon. `bodyIndex?_eq_some`
  says that the scan finds exactly these indices.
* **`Piece`** — the pieces, with what makes them well formed. `Stuck` is a text at which no piece
  begins.
* **`exists_reach`** — from the left every text is a row of pieces whose items have values, and then
  nothing, an item without a value, or a stuck text. `format_written` and its two companions give
  the result in each case.
* **`format_reads`** — the result of a format string over the displayed values, success and fault,
  and that doubling the braces of a text protects it anywhere between items. -/

namespace Stackwright

namespace Template

/-! ## Indices in the bodies of items -/

/-- A text **ends an index**: it is empty or starts with a comma or a colon. -/
def EndsIndex : List Char → Prop
  | [] => True
  | c :: _ => c = ',' ∨ c = ':'

/-- An item body **names** an index: between blanks, an unsigned decimal number below `2 ^ 64`, with a
plus sign or without, before the end or the first comma or colon. -/
def Names (body : List Char) (index : Nat) : Prop :=
  ∃ before sign digits behind tail,
    body = before ++ (sign ++ digits) ++ behind ++ tail ∧
    (∀ c ∈ before, isBlank c) ∧ (∀ c ∈ behind, isBlank c) ∧ EndsIndex tail ∧
    (sign = [] ∨ sign = ['+']) ∧ digits ≠ [] ∧ (∀ c ∈ digits, c.isDigit) ∧
    Nat.ofDigitChars 10 digits 0 = index ∧ index < 2 ^ 64

/-- A fold over digits alone gives the number they write. -/
theorem foldlM_digits (s : List Char) (n m : Nat) :
    s.foldlM (fun n c => if c.isDigit then some (10 * n + (c.toNat - '0'.toNat)) else none) n = some m ↔
      (∀ c ∈ s, c.isDigit) ∧ Nat.ofDigitChars 10 s n = m := by
  induction s generalizing n with
  | nil => simp [Nat.ofDigitChars, pure]
  | cons c rest ih =>
    by_cases hc : c.isDigit
    · simp only [List.foldlM_cons, hc, if_true, Option.bind_eq_bind, Option.bind_some, ih,
        Nat.ofDigitChars, List.foldl_cons, List.forall_mem_cons, true_and]
    · simp [List.foldlM_cons, hc]

theorem digits?_eq_some (s : List Char) (n : Nat) :
    digits? s = some n ↔ s ≠ [] ∧ (∀ c ∈ s, c.isDigit) ∧ Nat.ofDigitChars 10 s 0 = n := by
  cases s with
  | nil => simp [digits?]
  | cons c rest => rw [digits?, foldlM_digits]; simp

/-- Digits below the bound write an index. -/
theorem bounded_eq_some (s : List Char) (i : Nat) :
    (match digits? s with
      | some n => if n < 1 <<< 64 then some n else none
      | none => none) = some i ↔
      s ≠ [] ∧ (∀ c ∈ s, c.isDigit) ∧ Nat.ofDigitChars 10 s 0 = i ∧ i < 2 ^ 64 := by
  have bound : (1 <<< 64 : Nat) = 2 ^ 64 := by decide
  rw [bound]
  constructor
  · intro found
    split at found
    · next n h =>
      obtain ⟨filled, all, value⟩ := (digits?_eq_some s n).mp h
      split_ifs at found with small
      obtain rfl := Option.some.inj found
      exact ⟨filled, all, value, small⟩
    · exact absurd found.symm (Option.some_ne_none i)
  · rintro ⟨filled, all, value, small⟩
    rw [(digits?_eq_some s i).mpr ⟨filled, all, value⟩]
    exact if_pos small

/-- An index is its digits, perhaps behind a plus sign. -/
theorem index?_eq_some (s : List Char) (i : Nat) :
    index? s = some i ↔ ∃ sign digits, s = sign ++ digits ∧ (sign = [] ∨ sign = ['+']) ∧
      digits ≠ [] ∧ (∀ c ∈ digits, c.isDigit) ∧ Nat.ofDigitChars 10 digits 0 = i ∧ i < 2 ^ 64 := by
  by_cases plus : ∃ rest, s = '+' :: rest
  · obtain ⟨rest, rfl⟩ := plus
    refine (bounded_eq_some rest i).trans ⟨fun found => ⟨['+'], rest, rfl, .inr rfl, found⟩, ?_⟩
    rintro ⟨sign, digits, split, rfl | rfl, filled, all, found⟩
    · obtain rfl : '+' :: rest = digits := split
      exact absurd (all '+' (List.mem_cons_self ..)) (by decide)
    · obtain rfl := (List.cons.inj split).2
      exact ⟨filled, all, found⟩
  · have signless : index? s = match digits? s with
        | some n => if n < 1 <<< 64 then some n else none
        | none => none := by
      unfold index?
      congr 2
      split
      · next rest => exact absurd ⟨rest, rfl⟩ plus
      · rfl
    rw [signless]
    refine (bounded_eq_some s i).trans ⟨fun found => ⟨[], s, rfl, .inl rfl, found⟩, ?_⟩
    rintro ⟨sign, digits, split, rfl | rfl, found⟩
    · obtain rfl : s = digits := split
      exact found
    · exact absurd ⟨digits, split⟩ plus

theorem trimBlanks_eq (s : List Char) : trimBlanks s = (s.dropWhile isBlank).rdropWhile isBlank := rfl

/-- A text is its trimmed self between blanks. -/
theorem eq_trimBlanks (s : List Char) :
    ∃ before behind, s = before ++ trimBlanks s ++ behind ∧
      (∀ c ∈ before, isBlank c) ∧ (∀ c ∈ behind, isBlank c) := by
  refine ⟨s.takeWhile isBlank, (s.dropWhile isBlank).rtakeWhile isBlank, ?_, ?_, ?_⟩
  · rw [trimBlanks_eq, List.append_assoc]
    simp [List.rdropWhile, List.rtakeWhile, ← List.reverse_append]
  · exact fun c hc => List.mem_takeWhile_imp hc
  · exact fun c hc => List.mem_rtakeWhile_imp hc

/-- Blanks around a text that neither starts nor ends with one are all that trimming takes. -/
theorem trimBlanks_append {before s behind : List Char} (hb : ∀ c ∈ before, isBlank c)
    (ha : ∀ c ∈ behind, isBlank c) (hs : s ≠ []) (inner : ∀ c ∈ s, isBlank c = false) :
    trimBlanks (before ++ s ++ behind) = s := by
  have front : (before ++ s ++ behind).dropWhile isBlank = s ++ behind := by
    obtain ⟨c, rest, rfl⟩ := List.exists_cons_of_ne_nil hs
    rw [List.append_assoc, List.dropWhile_append_of_pos hb]
    simp [inner c (by simp)]
  rw [trimBlanks_eq, front, List.rdropWhile, List.reverse_append,
    List.dropWhile_append_of_pos (by simpa using ha)]
  obtain ⟨c, rest, h⟩ := List.exists_cons_of_ne_nil (by simpa using hs : s.reverse ≠ [])
  have hc : isBlank c = false := inner c (by
    rw [← List.mem_reverse, h]
    exact List.mem_cons_self ..)
  rw [h, List.dropWhile_cons_of_neg (by simp [hc]), ← h, List.reverse_reverse]

/-- Blanks, digits and a plus sign are neither comma nor colon. -/
theorem not_separator {c : Char} (h : isBlank c ∨ c.isDigit ∨ c = '+') :
    (c != ',' && c != ':') = true := by
  have : c ≠ ',' ∧ c ≠ ':' := by
    constructor <;> (rintro rfl; revert h; decide)
  simp [this]

/-- No blank is a digit. -/
theorem isBlank_eq_false {c : Char} (h : c.isDigit ∨ c = '+') : isBlank c = false := by
  rcases h with h | rfl
  · have hn : 48 ≤ c.toNat ∧ c.toNat ≤ 57 := by
      simpa [Char.isDigit, Char.le_def, UInt32.le_iff_toNat_le] using h
    have : ∀ n, 48 ≤ n → n ≤ 57 → isBlank (Char.ofNat n) = false := by decide
    simpa using this c.toNat hn.1 hn.2
  · decide

/-- **The scan finds the index an item body names**, and no other. -/
theorem bodyIndex?_eq_some (body : List Char) (i : Nat) : bodyIndex? body = some i ↔ Names body i := by
  have cut : ∀ {front tail : List Char}, (∀ c ∈ front, (c != ',' && c != ':') = true) → EndsIndex tail →
      (front ++ tail).takeWhile (fun c => c != ',' && c != ':') = front := by
    intro front tail inner ends
    rw [List.takeWhile_append_of_pos inner]
    cases tail with
    | nil => simp
    | cons c rest =>
      rcases ends with rfl | rfl <;> simp
  unfold bodyIndex?
  constructor
  · intro found
    obtain ⟨sign, digits, split, hsign, filled, all, value, small⟩ := (index?_eq_some _ i).mp found
    obtain ⟨before, behind, whole, hb, ha⟩ :=
      eq_trimBlanks (body.takeWhile fun c => c != ',' && c != ':')
    refine ⟨before, sign, digits, behind, body.dropWhile fun c => c != ',' && c != ':',
      ?_, hb, ha, ?_, hsign, filled, all, value, small⟩
    · rw [← split, ← whole, List.takeWhile_append_dropWhile]
    · cases rest : body.dropWhile fun c => c != ',' && c != ':' with
      | nil => exact trivial
      | cons c more =>
        have := List.head_dropWhile_not (fun c => c != ',' && c != ':') (l := body) (by simp [rest])
        simp only [rest, List.head_cons] at this
        simpa [EndsIndex, or_iff_not_imp_left] using this
  · rintro ⟨before, sign, digits, behind, tail, rfl, hb, ha, ends, hsign, filled, all, value, small⟩
    have number : ∀ c ∈ sign ++ digits, c.isDigit ∨ c = '+' := by
      intro c hc
      rcases List.mem_append.mp hc with hc | hc
      · rcases hsign with rfl | rfl
        · simp at hc
        · exact .inr (List.mem_singleton.mp hc)
      · exact .inl (all c hc)
    rw [cut (fun c hc => ?_) ends, trimBlanks_append hb ha (by simp [filled])
      (fun c hc => isBlank_eq_false (number c hc)), index?_eq_some]
    · exact ⟨sign, digits, rfl, hsign, filled, all, value, small⟩
    · simp only [List.mem_append] at hc number
      rcases hc with (hc | hc) | hc
      · exact not_separator (.inl (hb c hc))
      · exact not_separator (.inr (number c hc))
      · exact not_separator (.inl (ha c hc))

end Template

/-! ## Pieces -/

/-- An **item**: a body in braces that names an index. It has no closing brace and does not start with
an opening one. -/
structure Item where
  body : List Char
  index : Nat
  closed : '\x7d' ∉ body
  single : body.head? ≠ some '\x7b'
  named : Template.Names body index

/-- An item as it is written. -/
def Item.text (item : Item) : List Char := '\x7b' :: (item.body ++ ['\x7d'])

/-- A **piece** of a template. -/
inductive Piece
  /-- A character that is no brace. -/
  | literal (char : Char) (plain : char ≠ '\x7b' ∧ char ≠ '\x7d')
  /-- An opening brace, written twice. -/
  | opening
  /-- A closing brace, written twice. -/
  | closing
  /-- An item. -/
  | item (item : Item)

namespace Piece

/-- A piece as it is written. -/
def text : Piece → List Char
  | .literal c _ => [c]
  | .opening => ['\x7b', '\x7b']
  | .closing => ['\x7d', '\x7d']
  | .item found => found.text

/-- What a piece stands for over the displayed values. -/
def shown (values : List String) : Piece → List Char
  | .literal c _ => [c]
  | .opening => ['\x7b']
  | .closing => ['\x7d']
  | .item found => (values.getD found.index "").toList

/-- A piece has what it needs among a number of values. -/
def Within (count : Nat) : Piece → Prop
  | .item found => found.index < count
  | _ => True

/-- The template that starts with a piece. -/
def scanned : Piece → Template → Template
  | .literal c _ => .literal c
  | .opening => .literal '\x7b'
  | .closing => .literal '\x7d'
  | .item found => .item found.index

/-- The piece that stands for a character. -/
def ofChar (c : Char) : Piece :=
  if opens : c = '\x7b' then opening
  else if closes : c = '\x7d' then closing
  else literal c ⟨opens, closes⟩

theorem ofChar_shown (values : List String) (c : Char) : (ofChar c).shown values = [c] := by
  unfold ofChar
  split_ifs with opens closes
  · exact congrArg ([·]) opens.symm
  · exact congrArg ([·]) closes.symm
  · rfl

theorem ofChar_within (count : Nat) (c : Char) : (ofChar c).Within count := by
  unfold ofChar
  split_ifs <;> trivial

end Piece

namespace Template

/-- A row of pieces as it is written. -/
def written (pieces : List Piece) : List Char := pieces.flatMap Piece.text

/-- What a row of pieces stands for over the displayed values. -/
def shown (values : List String) (pieces : List Piece) : List Char := pieces.flatMap (Piece.shown values)

/-- A text with every brace written twice. -/
def doubled (s : List Char) : List Char :=
  s.flatMap fun c => if c = '\x7b' ∨ c = '\x7d' then [c, c] else [c]

/-- A text is **stuck** when something is left of it and no piece begins there. -/
def Stuck (s : List Char) : Prop := s ≠ [] ∧ ¬∃ (piece : Piece) (rest : List Char), s = piece.text ++ rest

/-- A doubled text is a row of pieces that stand for its characters. -/
theorem doubled_eq_written (s : List Char) : doubled s = written (s.map Piece.ofChar) := by
  unfold doubled written
  rw [List.flatMap_map]
  congr 1
  funext c
  unfold Piece.ofChar
  split_ifs with brace opens closes opens closes
  · rw [opens]; rfl
  · rw [closes]; rfl
  · exact absurd brace (by simp [opens, closes])
  · exact absurd (.inl opens) brace
  · exact absurd (.inr closes) brace
  · rfl

theorem shown_ofChar (values : List String) (s : List Char) : shown values (s.map Piece.ofChar) = s := by
  simp only [shown, List.flatMap_map, Piece.ofChar_shown, List.flatMap_singleton']

/-- An item stands before the first closing brace. -/
theorem cut_item (found : Item) (rest : List Char) :
    (found.body ++ '\x7d' :: rest).takeWhile (· != '\x7d') = found.body ∧
      (found.body ++ '\x7d' :: rest).dropWhile (· != '\x7d') = '\x7d' :: rest := by
  have inner : ∀ c ∈ found.body, (c != '\x7d') = true := by
    rintro c hc
    exact bne_iff_ne.mpr fun brace => found.closed (brace ▸ hc)
  constructor
  · rw [List.takeWhile_append_of_pos inner]
    simp
  · rw [List.dropWhile_append_of_pos inner]
    simp

/-- A single opening brace starts an item, if it closes and its body names an index. -/
theorem scan_brace {rest : List Char} (single : rest.head? ≠ some '\x7b') :
    scan ('\x7b' :: rest) = match rest.dropWhile (· != '\x7d') with
      | [] => .malformed
      | _ :: after => match bodyIndex? (rest.takeWhile (· != '\x7d')) with
        | none => .malformed
        | some i => .item i (scan after) := by
  rw [scan.eq_def]
  split
  · next h => simp at h
  · next h => simp_all
  · next h => simp_all
  · next r _ h =>
    obtain rfl := (List.cons.inj h).2
    split
    · next h => rw [h]
    · next brace after h =>
      generalize rest.dropWhile (· != '\x7d') = closed at h ⊢
      subst h
      rfl
  · next h => simp at h
  · next opens _ h => exact absurd (List.cons.inj h).1.symm opens

/-- **The scan takes a piece off** the front of a text. -/
theorem scan_piece (piece : Piece) (rest : List Char) :
    scan (piece.text ++ rest) = piece.scanned (scan rest) := by
  cases piece with
  | literal c plain =>
    obtain ⟨notOpen, notClose⟩ := plain
    rw [Piece.text, List.singleton_append, scan.eq_def]
    split
    all_goals simp_all [Piece.scanned]
  | opening => rw [Piece.text]; simp [scan, Piece.scanned]
  | closing => rw [Piece.text]; simp [scan, Piece.scanned]
  | item found =>
    obtain ⟨body, behind⟩ := cut_item found rest
    have whole : (Piece.item found).text ++ rest = '\x7b' :: (found.body ++ '\x7d' :: rest) := by
      simp [Piece.text, Item.text]
    have single : (found.body ++ '\x7d' :: rest).head? ≠ some '\x7b' := by
      have := found.single
      cases h : found.body <;> simp_all
    rw [whole, scan_brace single, body, behind]
    simp only [(bodyIndex?_eq_some _ _).mpr found.named, Piece.scanned]

/-- **The scan stops** where no piece begins. -/
theorem scan_stuck {s : List Char} (h : Stuck s) : scan s = .malformed := by
  obtain ⟨filled, none⟩ := h
  cases s with
  | nil => exact absurd rfl filled
  | cons c rest =>
    by_cases opens : c = '\x7b'
    · subst opens
      have single : rest.head? ≠ some '\x7b' := by
        intro second
        obtain ⟨more, rfl⟩ := List.head?_eq_some_iff.mp second
        exact none ⟨.opening, more, rfl⟩
      rw [scan_brace single]
      split
      · rfl
      · next brace after h =>
        split
        · rfl
        · next i names =>
          have brace : brace = '\x7d' := by
            have := List.head_dropWhile_not (· != '\x7d') (l := rest) (by simp [h])
            simpa [h] using this
          have whole := List.takeWhile_append_dropWhile (p := (· != '\x7d')) (l := rest)
          rw [h, brace] at whole
          refine absurd ⟨.item ⟨rest.takeWhile (· != '\x7d'), i, ?_, ?_, ?_⟩, after, ?_⟩ none
          · intro inside
            simpa using List.mem_takeWhile_imp inside
          · intro second
            rw [← whole] at single
            cases front : rest.takeWhile (· != '\x7d') <;> simp_all
          · exact (bodyIndex?_eq_some _ _).mp names
          · simp only [Piece.text, Item.text, List.cons_append, List.append_assoc, List.nil_append,
              whole]
    · by_cases closes : c = '\x7d'
      · subst closes
        rw [scan.eq_def]
        split
        · next h => simp at h
        · next h => simp at h
        · next more h =>
          obtain rfl := (List.cons.inj h).2
          exact absurd ⟨.closing, more, rfl⟩ none
        · next h => simp at h
        · rfl
        · next _ closes h => exact absurd (List.cons.inj h).1.symm closes
      · exact absurd ⟨.literal c ⟨opens, closes⟩, rest, rfl⟩ none

/-! ## What a format string gives -/

variable {whole : String} {values : List String}

/-- **A row of pieces that have their values** puts what it stands for before the rest. -/
theorem fill_written {pieces : List Piece} (within : ∀ piece ∈ pieces, piece.Within values.length)
    (rest : List Char) :
    (scan (written pieces ++ rest)).fill whole values =
      (shown values pieces ++ ·) <$> (scan rest).fill whole values := by
  induction pieces with
  | nil => simp [written, shown]
  | cons piece pieces ih =>
    obtain ⟨here, later⟩ := List.forall_mem_cons.mp within
    have front : ∀ t : Template, (piece.scanned t).fill whole values =
        (piece.shown values ++ ·) <$> t.fill whole values := by
      intro t
      cases piece with
      | item found =>
        have hv : values[found.index]? = some values[found.index] := List.getElem?_eq_getElem here
        simp [Piece.scanned, Piece.shown, fill, hv]
      | _ => rfl
    simp only [written, shown, List.flatMap_cons, List.append_assoc] at ih ⊢
    rw [scan_piece, front, ih later]
    cases (scan rest).fill whole values <;> simp

/-- How a text ends, behind a row of pieces that have their values. -/
inductive Ending (count : Nat) : List Char → Prop
  /-- Nothing is left. -/
  | finished : Ending count []
  /-- An item has no value. -/
  | lacking (found : Item) (rest : List Char) (outside : count ≤ found.index) :
    Ending count (found.text ++ rest)
  /-- No piece begins. -/
  | stuck {rest : List Char} (h : Stuck rest) : Ending count rest

/-- **Every text is a row of pieces that have their values**, up to its end, to an item without a
value, or to where no piece begins. -/
theorem exists_reach (count : Nat) (s : List Char) :
    ∃ pieces rest, s = written pieces ++ rest ∧ (∀ piece ∈ pieces, piece.Within count) ∧
      Ending count rest := by
  induction size : s.length using Nat.strongRecOn generalizing s with | ind n ih => ?_
  by_cases empty : s = []
  · exact ⟨[], s, rfl, by simp, empty ▸ .finished⟩
  by_cases begins : ∃ (piece : Piece) (rest : List Char), s = piece.text ++ rest
  · obtain ⟨piece, rest, rfl⟩ := begins
    by_cases here : piece.Within count
    · have shorter : rest.length < n := by
        have : 0 < piece.text.length := by cases piece <;> simp [Piece.text, Item.text]
        rw [← size, List.length_append]
        omega
      obtain ⟨pieces, behind, rfl, within, ending⟩ := ih _ shorter rest rfl
      exact ⟨piece :: pieces, behind, by simp [written], by simpa using ⟨here, within⟩, ending⟩
    · cases piece with
      | item found => exact ⟨[], _, rfl, by simp, .lacking found rest (Nat.le_of_not_lt here)⟩
      | _ => exact absurd trivial here
  · exact ⟨[], s, rfl, by simp, .stuck ⟨empty, begins⟩⟩

/-- **A row of pieces that have their values is a format string**: its text is what they stand for. -/
theorem format_written {s : String} {pieces : List Piece}
    (within : ∀ piece ∈ pieces, piece.Within values.length) (hs : s.toList = written pieces) :
    format s values = .ok (String.ofList (shown values pieces)) := by
  have filled : (scan (written pieces ++ [])).fill s values = _ := fill_written within []
  rw [List.append_nil, ← hs] at filled
  simp [format, filled, scan, fill]

/-- An item without a value is the fault of a text, when no piece before it is. -/
theorem format_lacking {s : String} {pieces : List Piece} {found : Item} {after : List Char}
    (within : ∀ piece ∈ pieces, piece.Within values.length)
    (hs : s.toList = written pieces ++ (found.text ++ after)) (outside : values.length ≤ found.index) :
    format s values = .error (.outside found.index values.length) := by
  have missing : values[found.index]? = none := List.getElem?_eq_none outside
  have item : scan (found.text ++ after) = .item found.index (scan after) :=
    scan_piece (.item found) after
  simp [format, hs, fill_written within, item, fill, missing]

/-- A text that gets stuck is malformed, when no piece before that is at fault. -/
theorem format_stuck {s : String} {pieces : List Piece} {rest : List Char}
    (within : ∀ piece ∈ pieces, piece.Within values.length)
    (hs : s.toList = written pieces ++ rest) (stuck : Stuck rest) :
    format s values = .error (.host ("invalid format string `" ++ s ++ "`")) := by
  simp [format, hs, fill_written within, scan_stuck stuck, fill]

/-- A text in which doubled texts stand between items is a row of pieces. -/
theorem parts_written (parts : List (List Char ⊕ Item)) :
    ∃ pieces, parts.flatMap (Sum.elim doubled Item.text) = written pieces ∧
      parts.flatMap (Sum.elim id fun found => Piece.shown values (.item found)) = shown values pieces ∧
      ∀ count, (∀ found, .inr found ∈ parts → found.index < count) →
        ∀ piece ∈ pieces, piece.Within count := by
  induction parts with
  | nil => exact ⟨[], rfl, rfl, fun _ _ => by simp⟩
  | cons part parts ih =>
    obtain ⟨pieces, asWritten, asShown, within⟩ := ih
    cases part with
    | inl text =>
      refine ⟨text.map Piece.ofChar ++ pieces, ?_, ?_, fun count bounded piece hp => ?_⟩
      · rw [List.flatMap_cons, asWritten, Sum.elim_inl, doubled_eq_written]
        simp [written]
      · rw [List.flatMap_cons, asShown, Sum.elim_inl, id]
        conv_lhs => rw [← shown_ofChar values text]
        simp only [shown, List.flatMap_append]
      · rcases List.mem_append.mp hp with hp | hp
        · obtain ⟨c, _, rfl⟩ := List.mem_map.mp hp
          exact Piece.ofChar_within count c
        · exact within count (fun found hf => bounded found (.tail _ hf)) piece hp
    | inr found =>
      refine ⟨.item found :: pieces, ?_, ?_, fun count bounded piece hp => ?_⟩
      · rw [List.flatMap_cons, asWritten]
        rfl
      · rw [List.flatMap_cons, asShown]
        rfl
      · rcases List.mem_cons.mp hp with rfl | hp
        · exact bounded found (List.mem_cons_self ..)
        · exact within count (fun found hf => bounded found (.tail _ hf)) piece hp

/-- **What a format string gives.** It succeeds exactly when it is a row of pieces whose items all have
values, and then gives what the pieces stand for. It fails exactly with the first thing from the left
that is in the way: an item whose index has no value, or a place where no piece begins. Texts with
their braces doubled come back as they were, wherever they stand among items. -/
theorem format_reads (h : Heap) (s : String) (values : List Value) :
    (∀ text, format s (values.map h.display) = .ok text ↔
      ∃ pieces, s.toList = written pieces ∧ (∀ piece ∈ pieces, piece.Within values.length) ∧
        text.toList = shown (values.map h.display) pieces) ∧
    (∀ fault, format s (values.map h.display) = .error fault ↔
      ∃ pieces rest, s.toList = written pieces ++ rest ∧
        (∀ piece ∈ pieces, piece.Within values.length) ∧
        ((∃ found after, rest = Item.text found ++ after ∧ values.length ≤ found.index ∧
            fault = .indexOutOfRange (BitVec.ofNat 64 found.index).toInt values.length) ∨
          Stuck rest ∧ fault = .host ("invalid format string `" ++ s ++ "`"))) ∧
    ∀ parts : List (List Char ⊕ Item), (∀ found, .inr found ∈ parts → found.index < values.length) →
      format (String.ofList (parts.flatMap (Sum.elim doubled Item.text))) (values.map h.display) =
        .ok (String.ofList (parts.flatMap
          (Sum.elim id fun found => Piece.shown (values.map h.display) (.item found)))) := by
  have count : (values.map h.display).length = values.length := List.length_map ..
  generalize values.map h.display = shows at count ⊢
  rw [← count]
  obtain ⟨pieces, rest, hs, within, ending⟩ := exists_reach shows.length s.toList
  refine ⟨fun text => ⟨fun ok => ?_, ?_⟩, fun fault => ⟨fun failed => ?_, ?_⟩, fun parts bounded => ?_⟩
  · cases ending with
    | finished =>
      rw [List.append_nil] at hs
      rw [format_written within hs] at ok
      cases ok
      exact ⟨pieces, hs, within, String.toList_ofList⟩
    | lacking found after outside => cases (format_lacking within hs outside).symm.trans ok
    | stuck h => cases (format_stuck within hs h).symm.trans ok
  · rintro ⟨pieces, hs, within, ht⟩
    rw [format_written within hs, ← ht, String.ofList_toList]
  · cases ending with
    | finished =>
      rw [List.append_nil] at hs
      cases (format_written within hs).symm.trans failed
    | lacking found after outside =>
      cases (format_lacking within hs outside).symm.trans failed
      exact ⟨pieces, _, hs, within, .inl ⟨found, after, rfl, outside, rfl⟩⟩
    | stuck h =>
      cases (format_stuck within hs h).symm.trans failed
      exact ⟨pieces, rest, hs, within, .inr ⟨h, rfl⟩⟩
  · rintro ⟨pieces, rest, hs, within, ⟨found, after, rfl, outside, rfl⟩ | ⟨stuck, rfl⟩⟩
    · exact format_lacking within hs outside
    · exact format_stuck within hs stuck
  · obtain ⟨pieces, asWritten, asShown, within⟩ := @parts_written shows parts
    rw [asWritten, asShown]
    exact format_written (within _ bounded) String.toList_ofList

/-- The second value, the first, and a word in braces. -/
theorem format_reads_reordered :
    format "\x7b1\x7d=\x7b0:D2\x7d \x7b\x7bok\x7d\x7d" (([.text "a", .text "b"] : List Value).map
      ({} : Heap).display) = .ok "b=a \x7bok\x7d" := by
  have reordered := (format_reads {} "" [.text "a", .text "b"]).2.2
    [.inr ⟨['1'], 1, by decide, by decide, (bodyIndex?_eq_some _ _).mp (by decide)⟩,
      .inl ['='],
      .inr ⟨['0', ':', 'D', '2'], 0, by decide, by decide, (bodyIndex?_eq_some _ _).mp (by decide)⟩,
      .inl [' ', '\x7b', 'o', 'k', '\x7d']]
    (by simp)
  simpa [doubled, Item.text, Piece.shown] using reordered

end Template

end Stackwright
