import Mathlib.Data.Nat.Digits.Defs

/-! # Reading JSON

What a text is worth is what a reader makes of it. The **reader** takes the whole of JSON: blanks between tokens,
every escape, pairs of units for characters above the basic plane, fractions and exponents, and members of one name
more than once, which it keeps in their order. It refuses what is not JSON, a zero before other digits, a control
character in a string or a lone half of a pair among it.

* **`Json`** — a JSON value.
* **`Json.readValue`** — reads a value from the front of a text.
* **`Json.parse`** — reads a text that is one value.
* **`Json.readString_flatMap`** — a string that is escaped character by character is read back. -/

namespace Stackwright

/-- A **JSON value**. -/
inductive Json where
  /-- No value. -/
  | null
  /-- A truth value. -/
  | bool (value : Bool)
  /-- A number: a whole number times a power of ten. -/
  | number (mantissa exponent : Int)
  /-- A string. -/
  | string (value : String)
  /-- A list of values. -/
  | array (items : List Json)
  /-- Named values in order; a name may occur more than once. -/
  | object (members : List (String × Json))

namespace Json

variable {c : Char} {cs rest : List Char} {n : Nat}

/-! ## Tokens -/

/-- The characters that may stand between tokens. -/
def isBlank (c : Char) : Bool := c == ' ' || c == '\t' || c == '\n' || c == '\r'

/-- What follows the blanks. -/
def skip (cs : List Char) : List Char := cs.dropWhile isBlank

/-- The first character that is not blank, and what follows it. -/
def token (cs : List Char) : Option (Char × List Char) :=
  match skip cs with
  | [] => none
  | c :: rest => some (c, rest)

/-- What follows a word, if a text begins with it. -/
def word (w cs : List Char) : Option (List Char) := if w.isPrefixOf cs then some (cs.drop w.length) else none

theorem token_cons (hc : isBlank c = false) : token (c :: rest) = some (c, rest) := by
  simp [token, skip, hc]

/-! ## Strings -/

/-- What a hexadecimal digit stands for. -/
def hexValue? (c : Char) : Option Nat :=
  if '0' ≤ c ∧ c ≤ '9' then some (c.toNat - '0'.toNat)
  else if 'a' ≤ c ∧ c ≤ 'f' then some (c.toNat - 'a'.toNat + 10)
  else if 'A' ≤ c ∧ c ≤ 'F' then some (c.toNat - 'A'.toNat + 10)
  else none

/-- A unit of four hexadecimal digits. -/
def readUnit : List Char → Option (Nat × List Char)
  | c₃ :: c₂ :: c₁ :: c₀ :: rest => do
    let d₃ ← hexValue? c₃
    let d₂ ← hexValue? c₂
    let d₁ ← hexValue? c₁
    let d₀ ← hexValue? c₀
    some (d₃ * 4096 + d₂ * 256 + d₁ * 16 + d₀, rest)
  | _ => none

/-- A character by its unit, or by the two units of a pair. -/
def readCode (cs : List Char) : Option (Char × List Char) := do
  let (high, rest) ← readUnit cs
  if high < 0xD800 ∨ 0xE000 ≤ high then some (Char.ofNat high, rest) else
  let rest ← word ['\\', 'u'] rest
  let (low, rest) ← readUnit rest
  if high < 0xDC00 ∧ 0xDC00 ≤ low ∧ low < 0xE000 then
    some (Char.ofNat (0x10000 + (high - 0xD800) * 0x400 + (low - 0xDC00)), rest)
  else none

/-- The character that a backslash and a letter stand for. -/
def escaped? (c : Char) : Option Char :=
  if c = '\x22' ∨ c = '\\' ∨ c = '/' then some c
  else if c = 'b' then some '\x08'
  else if c = 'f' then some '\x0c'
  else if c = 'n' then some '\n'
  else if c = 'r' then some '\r'
  else if c = 't' then some '\t'
  else none

/-- The character that stands behind a backslash. -/
def readEscape : List Char → Option (Char × List Char)
  | [] => none
  | c :: rest => if c = 'u' then readCode rest else (escaped? c).map fun c => (c, rest)

/-- One character of a string. -/
def readCharacter : List Char → Option (Char × List Char)
  | [] => none
  | c :: rest =>
    if c = '\\' then readEscape rest
    else if c.toNat < 0x20 then none
    else some (c, rest)

/-- The characters up to the closing quote, at most a number of them. -/
def readCharacters : Nat → List Char → Option (List Char × List Char)
  | 0, _ => none
  | n + 1, cs =>
    if cs.head? = some '\x22' then some ([], cs.tail) else do
    let (c, rest) ← readCharacter cs
    let (cs, rest) ← readCharacters n rest
    some (c :: cs, rest)

/-- A string, after its opening quote. -/
def readString (cs : List Char) : Option (String × List Char) := do
  let (s, rest) ← readCharacters cs.length cs
  some (String.ofList s, rest)

/-- A character is **written** by a text if it is read back from it, and the text does not close a string. -/
structure Writes (text : List Char) (c : Char) : Prop where
  /-- The text is not empty and begins with no quote. -/
  opens : ∃ d tail, text = d :: tail ∧ d ≠ '\x22'
  /-- What it reads as. -/
  reads : ∀ rest, readCharacter (text ++ rest) = some (c, rest)

theorem readCharacters_flatMap {write : Char → List Char} (hwrite : ∀ c, Writes (write c) c) (s rest : List Char)
    (hn : (s.flatMap write).length < n) :
    readCharacters n (s.flatMap write ++ '\x22' :: rest) = some (s, rest) := by
  induction s generalizing n with
  | nil =>
    obtain ⟨n, rfl⟩ := Nat.exists_eq_add_of_lt hn
    simp [readCharacters]
  | cons c s ih =>
    obtain ⟨n, rfl⟩ : ∃ k, n = k + 1 := Nat.exists_eq_add_of_le' (Nat.one_le_of_lt hn)
    obtain ⟨d, tail, htext, hd⟩ := (hwrite c).opens
    have hreads := (hwrite c).reads (s.flatMap write ++ '\x22' :: rest)
    rw [List.flatMap_cons, List.append_assoc]
    have hopen : (write c ++ (s.flatMap write ++ '\x22' :: rest)).head? ≠ some '\x22' := by
      rw [htext]
      simpa using hd
    have hless : (s.flatMap write).length < n := by
      rw [List.flatMap_cons, htext] at hn
      simp only [List.cons_append, List.length_cons, List.length_append] at hn
      omega
    rw [readCharacters, if_neg hopen, hreads]
    simp only [Option.bind_eq_bind, Option.bind_some, ih hless]

/-- A string that is written **character by character** is read back. -/
theorem readString_flatMap {write : Char → List Char} (hwrite : ∀ c, Writes (write c) c) (s : String)
    (rest : List Char) : readString (s.toList.flatMap write ++ '\x22' :: rest) = some (s, rest) := by
  rw [readString, readCharacters_flatMap hwrite s.toList rest (by simp)]
  simp

/-- A character above the basic plane may stand as a pair of units. -/
example : readCharacter ['\\', 'u', 'd', '8', '3', 'd', '\\', 'u', 'd', 'e', '0', '0'] =
    some ('😀', []) := by decide +kernel

/-! ## Numbers -/

/-- A whole number without a sign. It does not begin with a zero, unless it is zero. -/
def readNatural : List Char → Option (Nat × List Char)
  | [] => none
  | c :: rest =>
    if c = '0' then some (0, rest)
    else if c.isDigit then
      some (Nat.ofDigitChars 10 ((c :: rest).takeWhile Char.isDigit) 0, (c :: rest).dropWhile Char.isDigit)
    else none

/-- A number and the digits behind a point, with their count, if there is a point. -/
def readFraction (n : Nat) (cs : List Char) : Option (Nat × Nat × List Char) :=
  if cs.head? = some '.' then
    let digits := cs.tail.takeWhile Char.isDigit
    if digits = [] then none
    else some (Nat.ofDigitChars 10 digits n, digits.length, cs.tail.dropWhile Char.isDigit)
  else some (n, 0, cs)

/-- An exponent, if there is one. -/
def readExponent (cs : List Char) : Option (Int × List Char) :=
  if cs.head? = some 'e' ∨ cs.head? = some 'E' then
    let signed := if cs.tail.head? = some '+' ∨ cs.tail.head? = some '-' then cs.tail.tail else cs.tail
    let digits := signed.takeWhile Char.isDigit
    let size : Int := Nat.ofDigitChars 10 digits 0
    if digits = [] then none
    else some (if cs.tail.head? = some '-' then -size else size, signed.dropWhile Char.isDigit)
  else some (0, cs)

/-- A number. -/
def readNumber (cs : List Char) : Option (Json × List Char) := do
  let negative := cs.head? = some '-'
  let (n, rest) ← readNatural (if negative then cs.tail else cs)
  let (n, places, rest) ← readFraction n rest
  let (exponent, rest) ← readExponent rest
  some (.number (if negative then -n else n) (exponent - places), rest)

/-- A text **ends a value** if it is empty or goes on with a comma or a closing bracket. -/
def Ends (cs : List Char) : Prop := ∀ c, cs.head? = some c → c = ',' ∨ c = ']' ∨ c = '\x7d'

/-- No number goes on where a value ends. -/
theorem Ends.no_number (hrest : Ends rest) :
    rest.takeWhile Char.isDigit = [] ∧ rest.dropWhile Char.isDigit = rest ∧ rest.head? ≠ some '.' ∧
      rest.head? ≠ some 'e' ∧ rest.head? ≠ some 'E' := by
  cases rest with
  | nil => exact ⟨rfl, rfl, nofun, nofun, nofun⟩
  | cons c tail =>
    rcases hrest c rfl with rfl | rfl | rfl <;> exact ⟨rfl, rfl, by simp, by simp, by simp⟩

/-- A number has a first digit. -/
theorem exists_toDigits (n : Nat) : ∃ c tail, Nat.toDigits 10 n = c :: tail ∧ c.isDigit = true := by
  cases htext : Nat.toDigits 10 n with
  | nil => exact absurd htext Nat.toDigits_ne_nil
  | cons c tail =>
    have hmem : c ∈ Nat.toDigits 10 n := htext ▸ List.mem_cons_self
    exact ⟨c, tail, rfl, Nat.isDigit_of_mem_toDigits (by omega) (by omega) hmem⟩

/-- The digits of a positive number begin with no zero. -/
theorem head_toDigits (hn : 0 < n) : (Nat.toDigits 10 n).head? ≠ some '0' := by
  induction n using Nat.strong_induction_on with
  | _ n ih =>
    rcases Nat.lt_or_ge n 10 with hsmall | hlarge
    · have hone : ∀ k < 10, 0 < k → [Nat.digitChar k].head? ≠ some '0' := by decide
      rw [Nat.toDigits_of_lt_base hsmall]
      exact hone n hsmall hn
    · -- the last digit comes behind those of a tenth
      have hfirst := ih (n / 10) (by omega) (by omega)
      obtain ⟨c, tail, htext, -⟩ := exists_toDigits (n / 10)
      rw [Nat.toDigits_of_base_le (by omega) hlarge]
      rw [htext] at hfirst ⊢
      exact hfirst

theorem readNatural_toDigits (n : Nat) (hrest : Ends rest) :
    readNatural (Nat.toDigits 10 n ++ rest) = some (n, rest) := by
  rcases Nat.eq_zero_or_pos n with rfl | hn
  · simp [readNatural]
  · have hdigits : ∀ c ∈ Nat.toDigits 10 n, c.isDigit = true :=
      fun c hc => Nat.isDigit_of_mem_toDigits (by omega) (by omega) hc
    have hhead := head_toDigits hn
    have hvalue : Nat.ofDigitChars 10 (Nat.toDigits 10 n) 0 = n := Nat.ofDigitChars_ten_toDigits
    obtain ⟨htake, hdrop, -⟩ := hrest.no_number
    obtain ⟨c, tail, htext, hdigit⟩ := exists_toDigits n
    rw [htext] at hdigits hhead hvalue ⊢
    have hzero : c ≠ '0' := by simpa using hhead
    have hread : (c :: tail ++ rest).takeWhile Char.isDigit = c :: tail ++ rest.takeWhile Char.isDigit :=
      List.takeWhile_append_of_pos hdigits
    have hleft : (c :: tail ++ rest).dropWhile Char.isDigit = rest.dropWhile Char.isDigit :=
      List.dropWhile_append_of_pos hdigits
    rw [List.cons_append, readNatural, if_neg hzero, if_pos hdigit, ← List.cons_append, hread, hleft, htake, hdrop,
      List.append_nil, hvalue]

/-- The decimal text of an integer is **read back**. -/
theorem readNumber_toString (i : Int) (hrest : Ends rest) :
    readNumber ((toString i).toList ++ rest) = some (.number i 0, rest) := by
  obtain ⟨-, -, hpoint, hexponent, hexponent'⟩ := hrest.no_number
  have hafter : ∀ n, readFraction n rest = some (n, 0, rest) := fun n => if_neg hpoint
  have hlast : readExponent rest = some (0, rest) := if_neg (by simp [hexponent, hexponent'])
  cases i with
  | ofNat n =>
    have htext : (toString (Int.ofNat n)).toList = Nat.toDigits 10 n := Nat.toList_repr
    have hnumber := readNatural_toDigits n hrest
    obtain ⟨c, tail, hdigits, hdigit⟩ := exists_toDigits n
    have hsign : c ≠ '-' := by
      rintro rfl
      cases hdigit
    rw [hdigits, List.cons_append] at hnumber
    rw [htext, hdigits]
    simp [readNumber, hsign, hnumber, hafter, hlast]
  | negSucc n =>
    have htext : (toString (Int.negSucc n)).toList = '-' :: Nat.toDigits 10 (n + 1) := by
      rw [Int.toString_eq_repr, Int.repr, String.toList_append, Nat.toList_repr]
      rfl
    have hnumber := readNatural_toDigits (n + 1) hrest
    rw [htext]
    simp [readNumber, hnumber, hafter, hlast, Int.negSucc_eq]

/-- Other notations of numbers are read as well. -/
example : readNumber ['-', '2', '.', '5', '0', 'e', '3', ','] = some (.number (-250) 1, [',']) := by rfl

/-- The text of an integer begins with a sign or a digit. -/
theorem exists_toString (i : Int) : ∃ c tail, (toString i).toList = c :: tail ∧ (c = '-' ∨ c.isDigit = true) := by
  cases i with
  | ofNat n =>
    have htext : (toString (Int.ofNat n)).toList = Nat.toDigits 10 n := Nat.toList_repr
    obtain ⟨c, tail, hdigits, hdigit⟩ := exists_toDigits n
    exact ⟨c, tail, htext.trans hdigits, .inr hdigit⟩
  | negSucc n =>
    refine ⟨'-', (Nat.repr (n + 1)).toList, ?_, .inl rfl⟩
    rw [Int.toString_eq_repr, Int.repr, String.toList_append]
    rfl

/-! ## Values -/

mutual

/-- A **value** at the front of a text, and what follows it; values lie in each other to at most some depth. -/
def readValue : Nat → List Char → Option (Json × List Char)
  | 0, _ => none
  | n + 1, cs => do
    let (c, rest) ← token cs
    if c = '\x22' then
      let (s, rest) ← readString rest
      some (.string s, rest)
    else if c = '[' then
      let (d, after) ← token rest
      if d = ']' then some (.array [], after) else
      let (items, rest) ← readItems n rest
      some (.array items, rest)
    else if c = '\x7b' then
      let (d, after) ← token rest
      if d = '\x7d' then some (.object [], after) else
      let (members, rest) ← readMembers n rest
      some (.object members, rest)
    else if c = 'n' then
      let rest ← word ['u', 'l', 'l'] rest
      some (.null, rest)
    else if c = 't' then
      let rest ← word ['r', 'u', 'e'] rest
      some (.bool true, rest)
    else if c = 'f' then
      let rest ← word ['a', 'l', 's', 'e'] rest
      some (.bool false, rest)
    else readNumber (c :: rest)

/-- The items of an array up to its closing bracket. -/
def readItems : Nat → List Char → Option (List Json × List Char)
  | 0, _ => none
  | n + 1, cs => do
    let (item, rest) ← readValue n cs
    let (c, rest) ← token rest
    if c = ']' then some ([item], rest)
    else if c = ',' then
      let (items, rest) ← readItems n rest
      some (item :: items, rest)
    else none

/-- The members of an object up to its closing brace. -/
def readMembers : Nat → List Char → Option (List (String × Json) × List Char)
  | 0, _ => none
  | n + 1, cs => do
    let (c, rest) ← token cs
    if c ≠ '\x22' then none else
    let (name, rest) ← readString rest
    let (c, rest) ← token rest
    if c ≠ ':' then none else
    let (value, rest) ← readValue n rest
    let (c, rest) ← token rest
    if c = '\x7d' then some ([(name, value)], rest)
    else if c = ',' then
      let (members, rest) ← readMembers n rest
      some ((name, value) :: members, rest)
    else none

end

variable {items : List Json} {members : List (String × Json)} {s : String} {j : Json} {more : List Char}

attribute [local simp] readValue readItems readMembers

theorem readValue_null : readValue (n + 1) ('n' :: 'u' :: 'l' :: 'l' :: rest) = some (.null, rest) := by
  simp [token, skip, isBlank, word]

theorem readValue_true : readValue (n + 1) ('t' :: 'r' :: 'u' :: 'e' :: rest) = some (.bool true, rest) := by
  simp [token, skip, isBlank, word]

theorem readValue_false : readValue (n + 1) ('f' :: 'a' :: 'l' :: 's' :: 'e' :: rest) = some (.bool false, rest) := by
  simp [token, skip, isBlank, word]

/-- What begins with a sign or a digit begins with nothing else. -/
theorem ne_of_number {d : Char} (hc : c = '-' ∨ c.isDigit = true) (hsign : d ≠ '-') (hdigit : d.isDigit = false) :
    c ≠ d := by
  rintro rfl
  rcases hc with rfl | hc
  · exact hsign rfl
  · rw [hc] at hdigit
    cases hdigit

theorem not_blank_of_number (hc : c = '-' ∨ c.isDigit = true) : isBlank c = false := by
  have hother : ∀ d, d ≠ '-' → d.isDigit = false → c ≠ d := fun _ => ne_of_number hc
  simp [isBlank, hother ' ' (by decide) rfl, hother '\t' (by decide) rfl, hother '\n' (by decide) rfl,
    hother '\r' (by decide) rfl]

theorem readValue_number (hc : c = '-' ∨ c.isDigit = true) :
    readValue (n + 1) (c :: rest) = readNumber (c :: rest) := by
  have hother : ∀ d, d ≠ '-' → d.isDigit = false → c ≠ d := fun _ => ne_of_number hc
  simp [token_cons (not_blank_of_number hc), hother '\x22' (by decide) rfl, hother '[' (by decide) rfl,
    hother '\x7b' (by decide) rfl, hother 'n' (by decide) rfl, hother 't' (by decide) rfl,
    hother 'f' (by decide) rfl]

theorem readValue_string (hs : readString cs = some (s, rest)) :
    readValue (n + 1) ('\x22' :: cs) = some (.string s, rest) := by
  simp [token, skip, isBlank, hs]

theorem readValue_array_nil : readValue (n + 1) ('[' :: ']' :: rest) = some (.array [], rest) := by
  simp [token, skip, isBlank]

/-- An array that is not closed at once is read item by item. -/
theorem readValue_array (hc : isBlank c = false) (hopen : c ≠ ']')
    (hitems : readItems n (c :: cs) = some (items, rest)) :
    readValue (n + 1) ('[' :: c :: cs) = some (.array items, rest) := by
  simp [token_cons (c := '[') rfl, token_cons hc, hopen, hitems]

theorem readValue_object_nil : readValue (n + 1) ('\x7b' :: '\x7d' :: rest) = some (.object [], rest) := by
  simp [token, skip, isBlank]

theorem readValue_object (hmembers : readMembers n ('\x22' :: cs) = some (members, rest)) :
    readValue (n + 1) ('\x7b' :: '\x22' :: cs) = some (.object members, rest) := by
  simp [token, skip, isBlank, hmembers]

theorem readItems_last (hitem : readValue n cs = some (j, ']' :: rest)) :
    readItems (n + 1) cs = some ([j], rest) := by
  simp [hitem, token, skip, isBlank]

theorem readItems_more (hitem : readValue n cs = some (j, ',' :: more))
    (hitems : readItems n more = some (items, rest)) : readItems (n + 1) cs = some (j :: items, rest) := by
  simp [hitem, token, skip, isBlank, hitems]

theorem readMembers_last {after : List Char} (hname : readString cs = some (s, ':' :: after))
    (hvalue : readValue n after = some (j, '\x7d' :: rest)) :
    readMembers (n + 1) ('\x22' :: cs) = some ([(s, j)], rest) := by
  simp [hname, token, skip, isBlank, hvalue]

theorem readMembers_more {after : List Char} (hname : readString cs = some (s, ':' :: after))
    (hvalue : readValue n after = some (j, ',' :: more)) (hmembers : readMembers n more = some (members, rest)) :
    readMembers (n + 1) ('\x22' :: cs) = some ((s, j) :: members, rest) := by
  simp [hname, token, skip, isBlank, hvalue, hmembers]

/-- Blanks are skipped, and members kept in order. -/
example : readValue 9 ['[', ' ', '1', ',', '\x7b', '\x22', 'a', '\x22', ':', 'n', 'u', 'l', 'l', '\x7d', ']'] =
    some (.array [.number 1 0, .object [("a", .null)]], []) := by rfl

/-- The value that a **text** is. Its values lie no deeper in each other than the text is long. -/
def parse (text : String) : Option Json := do
  let (value, rest) ← readValue (text.length + 1) text.toList
  if (skip rest).isEmpty then some value else none

end Json

end Stackwright
