import Mathlib.Data.List.Basic
import Stackwright.Emission.Operation

/-! # Brackets

Calls that open and close constructs are **brackets**, and the calls of a client are nested properly when
they are a word of a bracket grammar. The grammar knows that a while loop has two parts, its condition and
its body, although a session keeps records of the same kinds for both.

* **`Nested k os`** — the grammar: what may stand directly in a construct of kind `k`, or in none.
* **`opened os st`** — a stack machine: the constructs that are open behind calls, as a client sees them.
* **`opened_eq_nil_iff`** — the machine accepts what the grammar generates.
* **`Bracket.shift`** — the kinds of the records that a session keeps behind a bracket.
* **`Bracket.shift_eq_none`** — a session refuses what breaks the nesting, but for two **slips**. -/

namespace Stackwright

/-- What a call does to the **nesting** of constructs. -/
inductive Bracket
  /-- Nothing. -/
  | plain
  /-- It opens a construct. -/
  | opens (kind : ConstructKind)
  /-- It goes on to another alternative of a conditional. -/
  | alternative
  /-- It ends a section of a switch, or begins the default one. -/
  | part
  /-- It ends the condition of a while loop and begins the body. -/
  | body
  /-- It closes a construct. -/
  | closes (kind : ConstructKind)
  deriving DecidableEq

/-- The **bracket** that a call is. -/
def Operation.bracket : Operation → Bracket
  | .openIfTrue | .openIfFalse | .openIf _ | .openIfCompared .. | .openIfNotZero _ | .openIfNotEmpty _ =>
    .opens .conditional
  | .openElse | .openElseIf .. | .openElseIfEmpty _ => .alternative
  | .closeIf => .closes .conditional
  | .openFor .. => .opens .counted
  | .closeFor => .closes .counted
  | .openEach .. => .opens .enumerated
  | .closeEach _ => .closes .enumerated
  | .openSwitch _ => .opens .switch
  | .closeCase | .openDefault => .part
  | .closeSwitch => .closes .switch
  | .openWhile => .opens .whileLoop
  | .openWhileBody _ => .body
  | .closeWhile => .closes .whileLoop
  | _ => .plain

/-- Brackets that may **stand** directly in a construct of a kind, or in none, and neither open a construct
nor end one. -/
def Bracket.stands : Bracket → Option ConstructKind → Bool
  | .plain, _ => true
  | .alternative, some .conditional => true
  | .part, some .switch => true
  | _, _ => false

/-! ## The grammar -/

/-- Calls that are **properly nested** and may stand directly in a construct of a kind, or in none. Each
closing call closes the construct that was opened last, by its own kind of call, and a while loop is closed
behind its condition and one body. -/
inductive Nested : Option ConstructKind → List Operation → Prop
  /-- No calls. -/
  | nil (k : Option ConstructKind) : Nested k []
  /-- A call that neither opens a construct nor ends one. -/
  | stands {k : Option ConstructKind} {o : Operation} {os : List Operation}
      (ho : o.bracket.stands k) (h : Nested k os) : Nested k (o :: os)
  /-- A construct other than a while loop. -/
  | construct {k : Option ConstructKind} {c : ConstructKind} {o o' : Operation}
      {inner os : List Operation} (hc : c ≠ .whileLoop) (ho : o.bracket = .opens c)
      (hin : Nested (some c) inner) (ho' : o'.bracket = .closes c) (h : Nested k os) :
      Nested k (o :: (inner ++ o' :: os))
  /-- A while loop: a condition, and one body. -/
  | whileLoop {k : Option ConstructKind} {o b o' : Operation} {test inner os : List Operation}
      (ho : o.bracket = .opens .whileLoop) (htest : Nested none test) (hb : b.bracket = .body)
      (hin : Nested none inner) (ho' : o'.bracket = .closes .whileLoop) (h : Nested k os) :
      Nested k (o :: (test ++ b :: (inner ++ o' :: os)))

/-! ## The machine -/

/-- A construct that is open, as its client sees it. -/
inductive Opened
  /-- A construct of a kind; a while loop is in its condition. -/
  | construct (kind : ConstructKind)
  /-- A while loop in its body. -/
  | whileBody
  deriving DecidableEq

namespace Opened

/-- What may stand directly in the innermost construct. -/
def inside : List Opened → Option ConstructKind
  | [] | .construct .whileLoop :: _ | .whileBody :: _ => none
  | .construct k :: _ => some k

/-- The bracket that ends a construct, or the part of it that it is in. -/
def exit : Opened → Bracket
  | .construct .whileLoop => .body
  | .construct k => .closes k
  | .whileBody => .closes .whileLoop

/-- What the end of a construct opens in its place. -/
def behind : Opened → List Opened
  | .construct .whileLoop => [.whileBody]
  | _ => []

end Opened

/-- The constructs that are open behind a bracket, innermost first, unless it breaks the nesting. -/
def Bracket.step (b : Bracket) (st : List Opened) : Option (List Opened) :=
  if b.stands (Opened.inside st) then some st
  else
    match b, st with
    | .opens k, st => some (.construct k :: st)
    | b, x :: st => if b = x.exit then some (x.behind ++ st) else none
    | _, [] => none

/-- The constructs that are open behind a row of calls, unless one of them breaks the nesting. -/
def opened : List Operation → List Opened → Option (List Opened)
  | [], st => some st
  | o :: os, st => (o.bracket.step st).bind (opened os)

variable {b : Bracket} {o : Operation} {os : List Operation} {x : Opened} {st st' : List Opened}

theorem opened_cons (o : Operation) (os : List Operation) (st : List Opened) :
    opened (o :: os) st = (o.bracket.step st).bind (opened os) := rfl

theorem opened_append (os os' : List Operation) (st : List Opened) :
    opened (os ++ os') st = (opened os st).bind (opened os') := by
  induction os generalizing st with
  | nil => rfl
  | cons o os ih =>
    rw [List.cons_append, opened_cons, opened_cons, Option.bind_assoc]
    exact Option.bind_congr fun st' _ => ih st'

namespace Bracket

/-- What may stand in no construct may stand in each. -/
theorem stands_of_none {k : Option ConstructKind} (h : b.stands none) : b.stands k := by
  cases b with
  | plain => cases k <;> rfl
  | _ => cases h

/-- What may stand in the innermost construct leaves the constructs as they are. -/
theorem step_stands (h : b.stands (Opened.inside st)) : b.step st = some st := if_pos h

/-- An opening call opens a construct. -/
theorem step_opens (k : ConstructKind) (st : List Opened) :
    (opens k).step st = some (.construct k :: st) := if_neg nofun

/-- The end of the innermost construct leaves those around it. -/
theorem step_exit (x : Opened) (st : List Opened) : x.exit.step (x :: st) = some (x.behind ++ st) := by
  cases x with
  | construct k => cases k <;> rfl
  | whileBody => rfl

/-- A bracket that does not break the nesting stands where it is, or opens a construct, or ends the
innermost one. -/
theorem step_cases (h : b.step st = some st') :
    (b.stands (Opened.inside st) ∧ st' = st) ∨ (∃ k, b = .opens k ∧ st' = .construct k :: st) ∨
      ∃ x st₀, st = x :: st₀ ∧ b = x.exit ∧ st' = x.behind ++ st₀ := by
  unfold step at h
  split at h
  · rename_i hstands
    exact .inl ⟨hstands, (Option.some.inj h).symm⟩
  · split at h
    · exact .inr (.inl ⟨_, rfl, (Option.some.inj h).symm⟩)
    · rw [Option.ite_none_right_eq_some] at h
      exact .inr (.inr ⟨_, _, rfl, h.1, (Option.some.inj h.2).symm⟩)
    · cases h

end Bracket

/-- Where calls of a kind may stand, a construct of that kind is innermost. -/
theorem Opened.eq_construct {k : ConstructKind} (h : Opened.inside st = some k) :
    ∃ st₀, st = .construct k :: st₀ := by
  unfold inside at h
  split at h
  · cases h
  · cases h
  · cases h
  · rename_i k' st₀ _
    exact ⟨st₀, by rw [Option.some.inj h]⟩

/-! ## The machine and the grammar -/

/-- A construct other than a while loop ends by its closing call, and other calls may stand in it. -/
theorem Opened.exit_construct {k : ConstructKind} (hk : k ≠ .whileLoop) (st : List Opened) :
    (Opened.construct k).exit = .closes k ∧ (Opened.construct k).behind = [] ∧
      Opened.inside (.construct k :: st) = some k := by
  cases k with
  | whileLoop => exact absurd rfl hk
  | _ => exact ⟨rfl, rfl, rfl⟩

/-- What is properly nested in the innermost construct leaves the open constructs as they are. -/
theorem Nested.opened {k : Option ConstructKind} (h : Nested k os)
    (hk : k = none ∨ k = Opened.inside st) : opened os st = some st := by
  -- the induction is on the grammar; what is open behind a construct is what was open before it
  induction h generalizing st with
  | nil k => rfl
  | @stands k o os ho _ ih =>
    have hstands : o.bracket.stands (Opened.inside st) := by
      rcases hk with rfl | rfl
      · exact Bracket.stands_of_none ho
      · exact ho
    rw [opened_cons, Bracket.step_stands hstands]
    exact ih hk
  | @construct k c o o' inner os hc ho _ ho' _ ihin ih =>
    obtain ⟨hexit, hbehind, hinside⟩ := Opened.exit_construct hc st
    rw [opened_cons, ho, Bracket.step_opens, Option.bind_some, opened_append,
      ihin (.inr hinside.symm), Option.bind_some, opened_cons, ho', ← hexit, Bracket.step_exit, hbehind]
    exact ih hk
  | @whileLoop k o b o' test inner os ho _ hb _ ho' _ ihtest ihin ih =>
    have htest : Bracket.body.step (.construct .whileLoop :: st) = some (.whileBody :: st) :=
      Bracket.step_exit (.construct .whileLoop) st
    have hbody : (Bracket.closes .whileLoop).step (.whileBody :: st) = some st :=
      Bracket.step_exit .whileBody st
    rw [opened_cons, ho, Bracket.step_opens, Option.bind_some, opened_append, ihtest (.inl rfl),
      Option.bind_some, opened_cons, hb, htest, Option.bind_some, opened_append, ihin (.inl rfl),
      Option.bind_some, opened_cons, ho', hbody]
    exact ih hk

/-- Calls behind which nothing is open, **read back** into the grammar: those before the first end of the
innermost construct may stand in it, and those behind it close the others. -/
def ReadBack (os : List Operation) : List Opened → Prop
  | [] => Nested none os
  | x :: st => ∃ inner o rest, os = inner ++ o :: rest ∧ Nested (Opened.inside (x :: st)) inner ∧
      o.bracket = x.exit ∧ opened rest (x.behind ++ st) = some []

/-- What may stand in front of calls is read back with them. -/
theorem ReadBack.append {before : List Operation} (h : ReadBack os st)
    (hb : ∀ os, Nested (Opened.inside st) os → Nested (Opened.inside st) (before ++ os)) :
    ReadBack (before ++ os) st := by
  cases st with
  | nil => exact hb os h
  | cons x st =>
    obtain ⟨inner, o, rest, rfl, hinner, ho, hrest⟩ := h
    exact ⟨before ++ inner, o, rest, (List.append_assoc ..).symm, hb inner hinner, ho, hrest⟩

theorem readBack_of_opened (h : opened os st = some []) : ReadBack os st := by
  -- what is behind the end of a construct is read back in turn, so the induction is on the number of calls
  induction hn : os.length using Nat.strongRecOn generalizing os st with
  | _ n ih =>
  subst hn
  cases os with
  | nil =>
    obtain rfl := Option.some.inj h
    exact .nil none
  | cons o os =>
    have hread : ∀ {rest st}, rest.length ≤ os.length → opened rest st = some [] → ReadBack rest st :=
      fun hlen hrest => ih _ (Nat.lt_succ_of_le hlen) hrest rfl
    rw [opened_cons] at h
    obtain ⟨st₁, hstep, h⟩ := Option.bind_eq_some_iff.1 h
    have hos : ReadBack os st₁ := hread (Nat.le_refl _) h
    rcases Bracket.step_cases hstep with ⟨hstands, rfl⟩ | ⟨k, ho, rfl⟩ | ⟨x, st₀, rfl, ho, rfl⟩
    case inl =>
      have happend : ReadBack ([o] ++ os) st₁ := hos.append fun os => .stands hstands
      exact happend
    case inr.inr => exact ⟨[], o, os, rfl, .nil _, ho, h⟩
    case inr.inl =>
      obtain ⟨inner, o', rest, rfl, hinner, ho', hbehind⟩ := hos
      have hrest : ReadBack rest ((Opened.construct k).behind ++ st) := by
        refine hread ?_ hbehind
        rw [List.length_append, List.length_cons]
        omega
      by_cases hk : k = .whileLoop
      · -- the condition is read back; next comes the body
        subst hk
        obtain ⟨body, o'', rest', rfl, hbody, ho'', hbehind'⟩ := hrest
        have hrest' : ReadBack rest' st := by
          refine hread ?_ hbehind'
          simp only [List.length_append, List.length_cons]
          omega
        have happend : ReadBack ((o :: (inner ++ o' :: (body ++ [o'']))) ++ rest') st :=
          hrest'.append fun os hos => by simpa using Nested.whileLoop ho hinner ho' hbody ho'' hos
        simpa using happend
      · obtain ⟨hexit, hnone, hinside⟩ := Opened.exit_construct hk st
        rw [hnone] at hrest
        rw [hinside] at hinner
        have happend : ReadBack ((o :: (inner ++ [o'])) ++ rest) st :=
          hrest.append fun os hos => by simpa using Nested.construct hk ho hinner (ho'.trans hexit) hos
        simpa using happend

/-- The machine **accepts** exactly the calls that are properly nested. -/
theorem opened_eq_nil_iff : opened os [] = some [] ↔ Nested none os :=
  ⟨fun h => readBack_of_opened h, fun h => h.opened (.inl rfl)⟩

/-! ## The records of a session -/

/-- The records that a session keeps for a kind of construct when it may be closed: for a while loop, also
the conditional around its body. -/
def ConstructKind.closing : ConstructKind → List ConstructKind
  | .whileLoop => [.whileLoop, .conditional]
  | k => [k]

/-- The records that a session keeps for an open construct. -/
def Opened.records : Opened → List ConstructKind
  | .construct k => [k]
  | .whileBody => [.whileLoop, .conditional]

/-- The **records** that a session keeps behind a bracket, by their kinds, unless it refuses the call. It
sees that a while loop is innermost, but not whether its body was begun. -/
def Bracket.shift : Bracket → List ConstructKind → Option (List ConstructKind)
  | .plain, ks => some ks
  | .opens k, ks => some (k :: ks)
  | .alternative, .conditional :: ks => some (.conditional :: ks)
  | .part, .switch :: ks => some (.switch :: ks)
  | .body, .whileLoop :: ks => some (.whileLoop :: .conditional :: ks)
  | .closes k, ks => if k.closing <+: ks then some (ks.drop k.closing.length) else none
  | _, _ => none

/-- A **slip**: the session takes the call although it breaks the nesting. Either the condition of a while
loop directly in a conditional is closed as if it were a body, which also closes the conditional, or a
body is begun a second time. -/
def Bracket.slips : Bracket → List Opened → Bool
  | .closes .whileLoop, .construct .whileLoop :: .construct .conditional :: _ => true
  | .body, .whileBody :: _ => true
  | _, _ => false

/-- Where the records are those of a construct that may be closed, it is innermost, or the condition of a
while loop stands directly in a conditional. -/
theorem ConstructKind.closing_prefix {k : ConstructKind} (h : k.closing <+: st.flatMap Opened.records) :
    (∃ x st₀, st = x :: st₀ ∧ x.exit = .closes k) ∨
      (k = .whileLoop ∧ ∃ st₀, st = .construct .whileLoop :: .construct .conditional :: st₀) := by
  cases st with
  | nil => cases k <;> simp [closing] at h
  | cons x st =>
    cases x with
    | whileBody =>
      have hk : k = .whileLoop := by
        cases k <;> simp_all [closing, Opened.records]
      exact .inl ⟨_, st, rfl, by rw [hk]; rfl⟩
    | construct k' =>
      have hk : k' = k := by
        cases k <;> simp_all [closing, Opened.records]
      subst hk
      by_cases hwhile : k' = .whileLoop
      · subst hwhile
        -- the record behind that of the condition is the conditional of another construct
        have hrest : [ConstructKind.conditional] <+: st.flatMap Opened.records := by
          simpa [closing, Opened.records] using h
        cases st with
        | nil => simp at hrest
        | cons y st =>
          cases y with
          | whileBody => simp [Opened.records] at hrest
          | construct k =>
            have hk : k = .conditional := by
              simpa [Opened.records, eq_comm] using hrest
            exact .inr ⟨rfl, st, by rw [hk]⟩
      · exact .inl ⟨_, st, rfl, (Opened.exit_construct hwhile st).1⟩

namespace Bracket

/-- What does not break the nesting is taken, and the session keeps the records of what is then open. -/
theorem shift_of_step (h : b.step st = some st') :
    b.shift (st.flatMap Opened.records) = some (st'.flatMap Opened.records) := by
  rcases step_cases h with ⟨hstands, rfl⟩ | ⟨k, rfl, rfl⟩ | ⟨x, st₀, rfl, rfl, rfl⟩
  · unfold stands at hstands
    split at hstands
    · rfl
    · rename_i hinside
      obtain ⟨st₀, rfl⟩ := Opened.eq_construct hinside
      rfl
    · rename_i hinside
      obtain ⟨st₀, rfl⟩ := Opened.eq_construct hinside
      rfl
    · cases hstands
  · rfl
  · cases x with
    | construct k => cases k <;> rfl
    | whileBody => rfl

/-- What breaks the nesting is **refused**, unless it is a slip. -/
theorem shift_eq_none (h : b.step st = none) (hslip : ¬ b.slips st) :
    b.shift (st.flatMap Opened.records) = none := by
  cases b with
  | plain => cases h
  | opens k => cases h
  | alternative =>
    cases st with
    | nil => rfl
    | cons x st =>
      cases x with
      | construct k => cases k <;> first | rfl | cases h
      | whileBody => rfl
  | part =>
    cases st with
    | nil => rfl
    | cons x st =>
      cases x with
      | construct k => cases k <;> first | rfl | cases h
      | whileBody => rfl
  | body =>
    cases st with
    | nil => rfl
    | cons x st =>
      cases x with
      | construct k => cases k <;> first | rfl | cases h
      | whileBody => exact absurd rfl hslip
  | closes k =>
    -- constructs that an end fits are the innermost ones, or it is the slip
    have hprefix : ¬ k.closing <+: st.flatMap Opened.records := by
      intro hprefix
      rcases ConstructKind.closing_prefix hprefix with ⟨x, st₀, rfl, hexit⟩ | ⟨rfl, st₀, rfl⟩
      · rw [← hexit, step_exit] at h
        cases h
      · exact hslip rfl
    rw [shift, if_neg hprefix]

/-- A slip breaks the nesting. -/
theorem step_of_slips (h : b.slips st) : b.step st = none := by
  unfold slips at h
  split at h
  · rfl
  · rfl
  · cases h

end Bracket

end Stackwright
