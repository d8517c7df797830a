/-! # Format templates

A **template** is text with numbered items in braces. Outside an item a brace is written twice. An item
names the value it stands for by an unsigned decimal index, which may be surrounded by blanks and
followed, after a comma or a colon, by anything but a closing brace. Scanning goes from left to right
and stops at the first piece that is none of these. -/

namespace Stackwright

/-- A **template**, piece by piece. -/
inductive Template
  /-- Nothing more. -/
  | done
  /-- A character that stands for itself, then the rest. -/
  | literal (char : Char) (rest : Template)
  /-- The value of an index, then the rest. -/
  | item (index : Nat) (rest : Template)
  /-- Something that is no piece of a template. -/
  | malformed

namespace Template

/-- The blank characters that may surround an index. -/
def isBlank (c : Char) : Bool :=
  let n := c.toNat
  (0x09 ≤ n && n ≤ 0x0d) || n == 0x20 || n == 0x85 || n == 0xa0 || n == 0x1680 ||
    (0x2000 ≤ n && n ≤ 0x200a) || n == 0x2028 || n == 0x2029 || n == 0x202f || n == 0x205f ||
    n == 0x3000

/-- Every blank of the core library is a blank here. -/
theorem isBlank_of_isWhitespace {c : Char} (h : c.isWhitespace) : isBlank c := by
  simp only [Char.isWhitespace, Bool.or_eq_true, decide_eq_true_eq] at h
  rcases h with ((rfl | rfl) | rfl) | rfl <;> decide

/-- A text without the blanks around it. -/
def trimBlanks (s : List Char) : List Char :=
  ((s.dropWhile isBlank).reverse.dropWhile isBlank).reverse

/-- The number that decimal digits stand for; nothing stands for no number. -/
def digits? : List Char → Option Nat
  | [] => none
  | c :: rest => (c :: rest).foldlM (fun n c =>
      if c.isDigit then some (10 * n + (c.toNat - '0'.toNat)) else none) 0

/-- An unsigned index below `2 ^ 64`, which may have a plus sign. -/
def index? (s : List Char) : Option Nat :=
  match digits? (match s with
    | '+' :: rest => rest
    | s => s) with
  | some n => if n < 1 <<< 64 then some n else none
  | none => none

/-- The index an item body names: what precedes the first comma or colon, without blanks. -/
def bodyIndex? (body : List Char) : Option Nat :=
  index? (trimBlanks (body.takeWhile fun c => c != ',' && c != ':'))

/-- The pieces of a text. -/
def scan : List Char → Template
  | [] => .done
  | '\x7b' :: '\x7b' :: rest => .literal '\x7b' (scan rest)
  | '\x7d' :: '\x7d' :: rest => .literal '\x7d' (scan rest)
  | '\x7b' :: rest =>
    match _ : rest.dropWhile (· != '\x7d') with
    | [] => .malformed
    | _ :: after =>
      match bodyIndex? (rest.takeWhile (· != '\x7d')) with
      | none => .malformed
      | some i => .item i (scan after)
  | '\x7d' :: _ => .malformed
  | c :: rest => .literal c (scan rest)
termination_by s => s.length
decreasing_by
  all_goals simp only [List.length_cons]
  · omega
  · omega
  · have := (List.dropWhile_sublist (l := rest) (· != '\x7d')).length_le
    simp_all only [List.length_cons]
    omega
  · omega

end Template

end Stackwright
