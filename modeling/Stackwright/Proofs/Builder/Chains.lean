import Stackwright.Proofs.Builder.Conditions
import Stackwright.Proofs.Builder.Parts

/-! # Chains of alternatives

A conditional is a chain of alternatives. Each has a condition, except the last one if it is an `else`. A
condition that fails goes to a label that is marked where the next alternative begins, behind the jump that
leaves the alternative before it; the jump goes to the end of the chain. In an `else` both labels are that of
the end.

* **`Chain`** — the alternatives of a conditional, with their bodies.
* **`Procedure.Selects`** — a run tries the conditions of a chain up to the first one that holds.
* **`Builder.chain_selects`** — a chain runs the body of the first alternative of which the condition holds. -/

namespace Stackwright

/-! ## Alternatives -/

namespace Opener

/-- The condition of the first alternative. -/
def condition : Opener → Condition
  | .ifTrue => .truth true
  | .ifFalse => .truth false
  | .compared c => .compared c
  | .operands a c b => .operands a c b
  | .notZero o => .notZero o
  | .notEmpty l => .emptiness l false

open Emit in
/-- A chain begins with its condition. -/
theorem perform_operation (o : Opener) : o.operation.perform = Operation.perform.done (do
    o.condition.prepare
    let finish ← newLabel
    let otherwise ← o.condition.test.skip
    openConstruct (.conditional otherwise finish)) := by
  cases o with
  | notZero o =>
    cases ht : o.type.isStruct <;>
      simp [operation, condition, Condition.prepare, Condition.test, Test.skip, Operation.perform, openIfNotZero,
        openIf, openIfFalse, ht]
  | _ =>
    simp [operation, condition, Condition.prepare, Condition.test, Test.skip, Operation.perform, openIfTrue,
      openIfFalse, openIf, openIfCompared, openIfNotEmpty]

end Opener

/-- How a chain **goes on** with a condition. -/
inductive Arm
  /-- With a comparison of two operands. -/
  | compared (left : Operand) (comparison : Comparison) (right : Operand)
  /-- With a string local that is empty. -/
  | empty (slot : Local)

namespace Arm

/-- The call that begins the alternative. -/
def operation : Arm → Operation
  | .compared a c b => .openElseIf a c b
  | .empty l => .openElseIfEmpty l

/-- Its condition. -/
def condition : Arm → Condition
  | .compared a c b => .operands a c b
  | .empty l => .emptiness l true

theorem taken_condition (arm : Arm) : arm.condition.taken = 0 := by
  cases arm <;> rfl

open Emit in
/-- An alternative begins behind the one before it. -/
theorem perform_operation (arm : Arm) : arm.operation.perform = Operation.perform.done (do
    let finish ← nextAlternative
    arm.condition.prepare
    let otherwise ← arm.condition.test.skip
    openConstruct (.conditional otherwise finish)) := by
  cases arm <;>
    simp [operation, condition, Condition.prepare, Condition.test, Test.skip, Operation.perform, openElseIf,
      openElseIfEmpty]

end Arm

/-- A **chain** of alternatives. -/
structure Chain where
  /-- How it begins. -/
  opener : Opener
  /-- The body of the first alternative. -/
  body : List Call
  /-- The alternatives with a condition that follow, with their bodies. -/
  arms : List (Arm × List Call)
  /-- The body of the `else`, if there is one. -/
  last : Option (List Call)

namespace Chain

/-- The parts of a chain behind the first one. -/
def others (arms : List (Arm × List Call)) (last : Option (List Call)) : List Part :=
  arms.map (fun arm => ⟨arm.1.operation, arm.2, []⟩) ++ last.toList.map fun body => ⟨.openElse, body, []⟩

/-- The parts of a chain. -/
def parts (chain : Chain) : List Part := ⟨chain.opener.operation, chain.body, []⟩ :: others chain.arms chain.last

/-- The conditions of a chain. -/
def conditions (chain : Chain) : List Condition :=
  chain.opener.condition :: chain.arms.map fun arm => arm.1.condition

/-- The calls of a chain. -/
def calls (chain : Chain) : List Call := chain.parts.flatMap Part.calls ++ [.perform .closeIf]

end Chain

/-! ## Trials -/

/-- Where a condition is **tried**. -/
structure Trial where
  /-- The condition. -/
  condition : Condition
  /-- The first position of its code. -/
  first : Nat
  /-- The position behind its code. -/
  last : Nat

/-- The positions of the code of a trial. -/
def Trial.code (t : Trial) : Nat → Prop := Procedure.Stretch t.first t.last

/-- Trials **stand** between bodies: the code of each is right before its own body, and behind the body before. -/
inductive Trial.Stand : Nat → List Trial → List (Builder × Builder) → Prop
  /-- There are none. -/
  | nil (n : Nat) (bodies : List (Builder × Builder)) : Stand n [] bodies
  /-- One trial, and the others. -/
  | cons {n : Nat} {t : Trial} {ts : List Trial} {x y : Builder} {bodies : List (Builder × Builder)}
      (hn : n ≤ t.first) (hfirst : t.first ≤ t.last) (hlast : t.last = x.position)
      (hrest : Stand y.position ts bodies) : Stand n (t :: ts) ((x, y) :: bodies)

/-- A run **selects** an alternative. It tries conditions one after the other, and stops trying at the first one
that holds; if none does, it gets elsewhere along idle positions. -/
inductive Procedure.Selects (p : Procedure) (idle : Nat → Prop) : List Trial → Nat → Machine → Nat → Nat → Machine → Prop
  /-- The condition holds, and its code leads to the body. -/
  | holds {t : Trial} {ts : List Trial} {m e : Machine} (htells : t.condition.Tells m true)
      (h : p.Along t.code t.first m t.last e) : Selects p idle (t :: ts) t.first m 0 t.last e
  /-- The condition does not hold, and its code leads to the next one. -/
  | fails {t : Trial} {ts : List Trial} {m e e' : Machine} {n n' i : Nat} (htells : t.condition.Tells m false)
      (h : p.Along t.code t.first m n e) (hrest : Selects p idle ts n e i n' e') :
      Selects p idle (t :: ts) t.first m (i + 1) n' e'
  /-- There is no condition left. -/
  | none {n n' : Nat} {m e : Machine} (h : p.Along idle n m n' e) : Selects p idle [] n m 0 n' e

namespace Procedure

variable {p : Procedure} {f : Session} {P idle idle' : Nat → Prop} {S : Prop} {n i n' : Nat} {m e : Machine}
  {R G : Nat → Machine → Prop} {trials : List Trial} {c : Condition} {k k' first last : Nat} {otherwise : Label}

theorem Selects.imp (h : p.Selects idle trials n m i n' e) (hidle : ∀ i, idle i → idle' i) :
    p.Selects idle' trials n m i n' e := by
  induction h with
  | holds htells h => exact .holds htells h
  | fails htells h _ ih => exact .fails htells h ih
  | none h => exact .none (h.imp hidle)

/-- What is attained is attained along the positions. -/
theorem Attains.traced (h : p.Attains P S n m R) :
    p.Attains P S n m fun n' m' => R n' m' ∧ p.Along P n m n' m' := by
  rcases h with ⟨n', m', halong, hr⟩ | hstop
  · exact .inl ⟨n', m', halong, hr, halong⟩
  · exact .inr hstop

theorem Asks.fewer (h : p.Asks f c k' otherwise first last) (hk : k ≤ k') : p.Asks f c k otherwise first last := by
  intro m
  refine (h m).imp (fun _ h => h) id ?_
  rintro n e ⟨r, htells, hgoes, haside, hstack⟩
  exact ⟨r, htells, hgoes, haside.fewer hk, hstack⟩

/-- **A run selects** among the conditions from one on, if it selects among those behind it from where that one
goes to. -/
theorem Asks.selects {Goal : Nat → Nat → Prop} (hasks : p.Asks f c k otherwise first last)
    (hcode : ∀ i, first ≤ i → i < last → P i) (hgoal : Goal 0 last)
    (hrest : ∀ q, f.labels.MarkedAt otherwise q → ∀ m, p.Attains P False q m fun n e => ∃ i,
      p.Selects idle trials q m i n e ∧ Goal (i + 1) n ∧ m.Aside k e ∧ e.frame.stack = m.frame.stack) (m : Machine) :
    p.Attains P False first m fun n e => ∃ i, p.Selects idle (⟨c, first, last⟩ :: trials) first m i n e ∧
      Goal i n ∧ m.Aside k e ∧ e.frame.stack = m.frame.stack.drop c.taken := by
  refine ((hasks m).traced.imp (fun i hi => hcode i hi.1 hi.2) id fun _ _ h => h).bind ?_
  rintro n e ⟨⟨r, htells, hgoes, haside, hstack⟩, halong⟩
  cases r with
  | true =>
    obtain rfl : n = last := hgoes
    exact .here ⟨0, .holds (t := ⟨c, first, n⟩) htells halong, hgoal, haside, hstack⟩
  | false =>
    refine (hrest n hgoes e).imp (fun _ h => h) id ?_
    rintro n' e' ⟨i, hselects, hgoal', haside', hstack'⟩
    exact ⟨i + 1, .fails (t := ⟨c, first, last⟩) htells halong hselects, hgoal', haside.trans haside',
      hstack'.trans hstack⟩

end Procedure

/-! ## What the calls record -/

open Builder (Takes Accepts Laid Clear)

/-- An innermost conditional is known by the outline. -/
theorem Session.constructs_of_conditional {s : Session} {otherwise finish : Label} {rest : List Construct}
    (h : s.outline = .conditional otherwise finish :: rest) :
    ∃ cs, s.constructs = .conditional otherwise finish :: cs ∧ cs.map Construct.bare = rest := by
  obtain ⟨c, cs, hcs, hc, hrest⟩ := List.map_eq_cons_iff.1 h
  exact ⟨cs, by rw [hcs, Construct.bare_eq_conditional.1 hc], hrest⟩

namespace Emit

variable {t : Tracer} {s s' : Session} {l otherwise finish : Label} {cs : List Construct}

/-- An alternative ends with a jump to the end of its chain, and the next one begins behind that. -/
theorem jumped_of_nextAlternative (hs : s.constructs = .conditional otherwise finish :: cs)
    (h : (nextAlternative.run t).run s = .ok l s') : l = finish ∧ ∃ s₁, (s.withConstructs cs).Tells s₁ ∧
      (s₁.jumped (.always finish)).Tells s' ∧ s'.labels.MarkedAt otherwise (s₁.code.size + 1) := by
  obtain ⟨⟨o, l'⟩, s₀, htake, h⟩ := run_bind_eq_ok.1 h
  rw [run_takeConditional _ _ hs] at htake
  cases htake
  obtain ⟨u, s₂, hjump, h⟩ := run_bind_eq_ok.1 h
  obtain ⟨u, s₃, hmark, hdone⟩ := run_bind_eq_ok.1 h
  cases hdone
  obtain ⟨s₁, hline, -, rfl⟩ := tells_jump hjump
  obtain ⟨hlast, hat⟩ := tells_markHere hmark
  exact ⟨rfl, s₁, hline, hlast, by simpa using hat⟩

/-- A chain ends where the label of its end is marked; if its last condition jumps to a label of its own, that
one is marked there, too. -/
theorem tells_closeIf (hs : s.constructs = .conditional otherwise finish :: cs)
    (h : (closeIf.run t).run s = .ok () s') : ∃ s₁, (s.withConstructs cs).Tells s₁ ∧ s₁.Tells s' ∧
      s'.labels.MarkedAt finish s₁.code.size ∧ s'.labels.MarkedAt otherwise s.code.size := by
  obtain ⟨⟨o, l'⟩, s₀, htake, h⟩ := run_bind_eq_ok.1 h
  rw [run_takeConditional _ _ hs] at htake
  cases htake
  dsimp only at h
  split at h
  · rename_i hsame
    subst hsame
    obtain ⟨htells, hat⟩ := tells_markHere h
    exact ⟨_, .refl _, htells, hat, hat⟩
  · obtain ⟨u, s₁, hfirst, hlast⟩ := run_bind_eq_ok.1 h
    obtain ⟨hfirst, hat⟩ := tells_markHere hfirst
    obtain ⟨hlast, hat'⟩ := tells_markHere hlast
    exact ⟨s₁, hfirst, hlast, hat', hlast.further.marks _ _ hat⟩

end Emit

/-! ## Where a run through a chain gets -/

namespace Chain

open Emit Procedure

variable {p : Procedure} {f a x y z s' : Session} {level : TraceDetail} {k first : Nat}
  {otherwise otherwise' finish : Label} {rest : List Construct}

/-- An alternative is **left**, behind its body, by a jump to the end of the chain, and the next one begins behind
the jump. -/
structure Exits (p : Procedure) (f : Session) (otherwise finish : Label) (y : Session) (first : Nat) : Prop where
  /-- Nothing but reports is before the jump. -/
  jumps : ∃ n q, y.code.size ≤ n ∧ first = n + 1 ∧ p.Slides y.code.size n ∧ f.labels.MarkedAt finish q ∧
    p.code[n]? = some (.jump (.always q))
  /-- The condition of the alternative goes behind it if it fails. -/
  marked : f.labels.MarkedAt otherwise first

/-- A chain is **closed** behind its last body: nothing but reports is there, and both labels. -/
structure Closes (p : Procedure) (f : Session) (otherwise finish : Label) (y s' : Session) : Prop where
  /-- There may be reports. -/
  slides : p.Slides y.code.size s'.code.size
  /-- The label of the end is there. -/
  finish : ∃ q, y.code.size ≤ q ∧ f.labels.MarkedAt finish q ∧ p.Slides q s'.code.size
  /-- The label that the last condition goes to is there. -/
  otherwise : f.labels.MarkedAt otherwise y.code.size

/-- What is recorded at the beginning of a chain: what prepares the condition, and a jump on the opposite of its
test, to a label that is yet to be marked. -/
theorem jumped_of_opener {o : Opener} (h : Takes level [.perform o.operation] a x) :
    ∃ s₁ s₂ otherwise finish, (o.condition.prepare.run (.ofLevel level)).run a = .ok () s₁ ∧ s₁.Tells s₂ ∧
      ¬ x.labels.Marked otherwise ∧ x = { (s₂.jumped (o.condition.test.jump otherwise)).withConstructs
        (.conditional otherwise finish :: s₂.constructs) with notices := #[] } := by
  obtain ⟨x₁, hrun, rfl⟩ := h.done o.perform_operation
  obtain ⟨u, s₁, hprepare, hrun⟩ := run_bind_eq_ok.1 hrun
  obtain ⟨finish, s₂, hnew, hrun⟩ := run_bind_eq_ok.1 hrun
  obtain ⟨otherwise, s₃, hskip, hopen⟩ := run_bind_eq_ok.1 hrun
  cases hopen
  have hahead := ahead_of_skip hskip
  obtain ⟨s₃, hline, rfl⟩ := jumped_of_skip hskip
  exact ⟨s₁, s₃, otherwise, finish, hprepare, (tells_newLabel hnew).trans hline, hahead, rfl⟩

/-- How a chain begins. -/
theorem asks_of_opener {o : Opener} (hp : p.Fits f) (hlabels : 0 < a.labels.entries.size)
    (howns : ∀ l ∈ o.condition.locals, a.Owns l) (h : Takes level [.perform o.operation] a x) (hx : x.Extends f) :
    ∃ otherwise finish, x.outline = .conditional otherwise finish :: a.outline ∧
      p.Asks f o.condition a.locals.size otherwise a.code.size x.code.size := by
  obtain ⟨s₁, s₂, otherwise, finish, hprepare, hline, -, rfl⟩ := jumped_of_opener h
  have hprepares := goes_prepare howns hlabels hprepare
  have hjump : (s₂.jumped (o.condition.test.jump otherwise)).Extends f :=
    (Session.extends_withConstructs _ _).trans ((Session.tells_delivered _).further.trans hx)
  have hsame : s₂.constructs = a.constructs := hline.constructs.trans hprepares.constructs
  have hasks := hp.asks (Session.Tells.refl a) hprepares hline hjump
  have hsize : (s₂.jumped (o.condition.test.jump otherwise)).code.size = s₂.code.size + 1 := by simp
  refine ⟨otherwise, finish, ?_, ?_⟩
  · rw [Session.outline, Session.outline, ← hsame]
    rfl
  · rw [← hsize] at hasks
    exact hasks

/-- What leaves an alternative. -/
theorem exits_of_jumped {cs : List Construct} {s₁ s₂ : Session} (hp : p.Fits f) (hline : (y.withConstructs cs).Tells s₁)
    (hlast : (s₁.jumped (.always finish)).Tells s₂) (hat : s₂.labels.MarkedAt otherwise (s₁.code.size + 1))
    (hf : s₂.Extends f) : Exits p f otherwise finish y (s₁.code.size + 1) := by
  obtain ⟨q, hq, hcode⟩ := hp.always (hlast.further.trans hf)
  have hslides := hline.slides hp ((s₁.extends_jumped _).trans (hlast.further.trans hf))
  exact ⟨⟨s₁.code.size, q, hline.further.size, rfl, hslides, hq, hcode⟩, hf.marks _ _ hat⟩

/-- How a chain goes on with a condition. -/
theorem asks_of_arm {arm : Arm} (hp : p.Fits f) (hy : y.outline = .conditional otherwise finish :: rest)
    (hlabels : 0 < y.labels.entries.size) (howns : ∀ l ∈ arm.condition.locals, y.Owns l)
    (h : Takes level [.perform arm.operation] y x) (hx : x.Extends f) :
    ∃ otherwise' first, x.outline = .conditional otherwise' finish :: rest ∧ Exits p f otherwise finish y first ∧
      first ≤ x.code.size ∧ p.Asks f arm.condition y.locals.size otherwise' first x.code.size := by
  obtain ⟨cs, hcs, rfl⟩ := Session.constructs_of_conditional hy
  obtain ⟨x₁, hrun, rfl⟩ := h.done arm.perform_operation
  obtain ⟨l, s₂, hnext, hrun⟩ := run_bind_eq_ok.1 hrun
  obtain ⟨u, s₃, hprepare, hrun⟩ := run_bind_eq_ok.1 hrun
  obtain ⟨otherwise', s₄, hskip, hopen⟩ := run_bind_eq_ok.1 hrun
  cases hopen
  obtain ⟨rfl, s₁, hline, hlast, hat⟩ := jumped_of_nextAlternative hcs hnext
  obtain ⟨s₄, hline', rfl⟩ := jumped_of_skip hskip
  -- the locals are those of before
  have hlocals : s₂.locals = y.locals := hlast.locals.trans hline.locals
  have howns : ∀ l ∈ arm.condition.locals, s₂.Owns l := fun l hl => by
    rw [Session.Owns, hlocals]
    exact howns l hl
  have hprepares := goes_prepare howns
    (Nat.lt_of_lt_of_le hlabels (Nat.le_trans hline.labels (Nat.le_trans (by simp) hlast.labels))) hprepare
  have hjump : (s₄.jumped (arm.condition.test.jump otherwise')).Extends f :=
    (Session.extends_withConstructs _ _).trans ((Session.tells_delivered _).further.trans hx)
  have hbehind : s₂.Extends f :=
    hprepares.further.trans (hline'.further.trans ((s₄.extends_jumped _).trans hjump))
  have hasks := hp.asks hlast hprepares hline' hjump
  have hsame : s₄.constructs = cs := hline'.constructs.trans (hprepares.constructs.trans
    (hlast.constructs.trans hline.constructs))
  have hfirst : (s₁.jumped (.always l)).code.size = s₁.code.size + 1 := by simp
  have hsize : (s₄.jumped (arm.condition.test.jump otherwise')).code.size = s₄.code.size + 1 := by simp
  refine ⟨otherwise', s₁.code.size + 1, ?_, exits_of_jumped hp hline hlast hat hbehind, ?_, ?_⟩
  · rw [← hsame]
    rfl
  · rw [← hfirst]
    exact (hlast.further.trans (hprepares.further.trans (hline'.further.trans (s₄.extends_jumped _)))).size
  · rw [← hsize, hfirst, hlocals] at hasks
    exact hasks

/-- How a chain goes on without a condition. -/
theorem slides_of_else (hp : p.Fits f) (hy : y.outline = .conditional otherwise finish :: rest)
    (h : Takes level [.perform .openElse] y x) (hx : x.Extends f) :
    ∃ first, x.outline = .conditional finish finish :: rest ∧ Exits p f otherwise finish y first ∧
      first ≤ x.code.size ∧ p.Slides first x.code.size := by
  obtain ⟨cs, hcs, rfl⟩ := Session.constructs_of_conditional hy
  obtain ⟨x₁, hrun, rfl⟩ := h.done rfl
  obtain ⟨l, s₂, hnext, hopen⟩ := run_bind_eq_ok.1 hrun
  cases hopen
  obtain ⟨rfl, s₁, hline, hlast, hat⟩ := jumped_of_nextAlternative hcs hnext
  have hbehind : s₂.Extends f :=
    (Session.extends_withConstructs _ _).trans ((Session.tells_delivered _).further.trans hx)
  have hsame : s₂.constructs = cs := hlast.constructs.trans hline.constructs
  have hfirst : (s₁.jumped (.always l)).code.size = s₁.code.size + 1 := by simp
  refine ⟨s₁.code.size + 1, ?_, exits_of_jumped hp hline hlast hat hbehind, ?_, ?_⟩
  · rw [← hsame]
    rfl
  · rw [← hfirst]
    exact hlast.further.size
  · rw [← hfirst]
    exact hlast.slides hp hbehind

/-- How a chain ends. -/
theorem closes_of_closeIf (hp : p.Fits f) (hy : y.outline = .conditional otherwise finish :: rest)
    (h : Takes level [.perform .closeIf] y s') (hs' : s'.Extends f) :
    s'.outline = rest ∧ Closes p f otherwise finish y s' := by
  obtain ⟨cs, hcs, rfl⟩ := Session.constructs_of_conditional hy
  obtain ⟨s₂, hrun, rfl⟩ := h.done rfl
  obtain ⟨s₁, hfirst, hlast, hat, hat'⟩ := tells_closeIf hcs hrun
  have hlast := hlast.trans s₂.tells_delivered
  have hall := hfirst.trans hlast
  have hmarks := s₂.tells_delivered.further.trans hs'
  refine ⟨?_, hall.slides hp hs', ⟨_, hfirst.further.size, hmarks.marks _ _ hat, hlast.slides hp hs'⟩,
    hmarks.marks _ _ hat'⟩
  rw [Session.outline, hall.constructs]
  rfl

/-- **Links** of a chain, from behind a body on: the alternatives that follow, with the sessions around their bodies
and where their conditions are tried, and the end. -/
inductive Links (p : Procedure) (f : Session) (k : Nat) (finish : Label) (s' : Session) :
    Label → Session → List (Session × Session) → List Trial → Prop
  /-- The end follows. -/
  | close {otherwise : Label} {y : Session} (h : Closes p f otherwise finish y s') (hlast : y.code.size ≤ s'.code.size) :
      Links p f k finish s' otherwise y [] []
  /-- An alternative without a condition follows, and then the end. -/
  | other {otherwise : Label} {y x z : Session} {first : Nat} (hexits : Exits p f otherwise finish y first)
      (hfirst : first ≤ x.code.size) (hslides : p.Slides first x.code.size) (hbody : x.code.size ≤ z.code.size)
      (h : Closes p f finish finish z s') (hlast : z.code.size ≤ s'.code.size) :
      Links p f k finish s' otherwise y [(x, z)] []
  /-- An alternative with a condition follows, and then others. -/
  | arm {otherwise otherwise' : Label} {y x z : Session} {first : Nat} {c : Condition}
      {places : List (Session × Session)} {trials : List Trial} (hexits : Exits p f otherwise finish y first)
      (hfirst : first ≤ x.code.size) (hasks : p.Asks f c k otherwise' first x.code.size) (htaken : c.taken = 0)
      (hbody : x.code.size ≤ z.code.size) (hrest : Links p f k finish s' otherwise' z places trials) :
      Links p f k finish s' otherwise y ((x, z) :: places) (⟨c, first, x.code.size⟩ :: trials)

/-- A position between two sessions is **idle**: it is of no body and of no condition. -/
structure Idle (y s' : Session) (places : List (Session × Session)) (trials : List Trial) (i : Nat) : Prop where
  /-- It is behind the first one. -/
  first : y.code.size ≤ i
  /-- It is before the last one. -/
  last : i < s'.code.size
  /-- It is of no body. -/
  clear : Clear places i
  /-- It is of no condition. -/
  untried : ∀ t ∈ trials, ¬ t.code i

/-- What an alternative goes to: its body, if there is one, or else the end of the chain. -/
structure Goal (s' : Session) (places : List (Session × Session)) (i n : Nat) : Prop where
  /-- There is a body. -/
  body : ∀ place, places[i]? = some place → n = place.1.code.size
  /-- There is none. -/
  «end» : places[i]? = none → n = s'.code.size

variable {places : List (Session × Session)} {trials : List Trial} {i n : Nat}

theorem goal_first (places : List (Session × Session)) : Goal s' ((x, z) :: places) 0 x.code.size where
  body place hplace := by
    cases hplace
    rfl
  «end» hnone := by cases hnone

theorem goal_end : Goal s' [] i s'.code.size where
  body place hplace := by cases hplace
  «end» _ := rfl

theorem Exits.lt (h : Exits p f otherwise finish y first) : y.code.size < first := by
  obtain ⟨n, q, hn, rfl, -⟩ := h.jumps
  omega

/-- What is idle behind a body is idle before it. -/
theorem Idle.widen (earlier : List Trial) (h : Idle z s' places trials i) (hz : y.code.size ≤ z.code.size)
    (hearlier : ∀ t ∈ earlier, t.last ≤ z.code.size) : Idle y s' ((x, z) :: places) (earlier ++ trials) i where
  first := Nat.le_trans hz h.first
  last := h.last
  clear := List.forall_mem_cons.2 ⟨fun hin => absurd hin.2 (Nat.not_lt.2 h.first), h.clear⟩
  untried := List.forall_mem_append.2 ⟨fun t ht hin =>
    absurd (Nat.lt_of_lt_of_le hin.2 (hearlier t ht)) (Nat.not_lt.2 h.first), h.untried⟩

namespace Links

/-- Bodies and conditions are in order, between the ends. -/
theorem bounds (h : Links p f k finish s' otherwise y places trials) : y.code.size ≤ s'.code.size ∧
    (∀ place ∈ places, y.code.size < place.1.code.size) ∧ ∀ t ∈ trials, y.code.size < t.first := by
  induction h with
  | close h hlast => exact ⟨hlast, List.forall_mem_nil _, List.forall_mem_nil _⟩
  | other hexits hfirst hslides hbody h hlast =>
    have hlt := hexits.lt
    exact ⟨by omega, List.forall_mem_singleton.2 (Nat.lt_of_lt_of_le hlt hfirst),
      List.forall_mem_nil _⟩
  | arm hexits hfirst hasks htaken hbody hrest ih =>
    have hlt := hexits.lt
    obtain ⟨hlast, hplaces, htrials⟩ := ih
    refine ⟨by omega, List.forall_mem_cons.2 ⟨Nat.lt_of_lt_of_le hlt hfirst, fun place hplace => ?_⟩,
      List.forall_mem_cons.2 ⟨hlt, fun t ht => ?_⟩⟩
    · have := hplaces place hplace
      omega
    · have := htrials t ht
      omega

/-- What is before all bodies and conditions is idle. -/
theorem idle_before (hfirst : y.code.size ≤ i) (hlast : i < s'.code.size)
    (hplaces : ∀ place ∈ places, i < place.1.code.size) (htrials : ∀ t ∈ trials, i < t.first) :
    Idle y s' places trials i where
  first := hfirst
  last := hlast
  clear place hplace hin := absurd hin.1 (Nat.not_le.2 (hplaces place hplace))
  untried t ht hin := absurd hin.1 (Nat.not_le.2 (htrials t ht))

/-- Where nothing follows, all is idle. -/
theorem idle_end (hfirst : y.code.size ≤ i) (hlast : i < s'.code.size) : Idle y s' [] [] i :=
  idle_before hfirst hlast (List.forall_mem_nil _) (List.forall_mem_nil _)

/-- From the label of the end a run gets to the end, past all bodies and conditions. -/
theorem finishes (h : Links p f k finish s' otherwise y places trials) :
    ∃ q, f.labels.MarkedAt finish q ∧
      ∀ e, ∃ m, p.Along (Idle y s' places trials) q e s'.code.size m ∧ e.Alike m := by
  -- behind the last body there is no body and no condition
  have hclose : ∀ {o : Label} {z : Session}, Closes p f o finish z s' → ∃ q, f.labels.MarkedAt finish q ∧
      ∀ e, ∃ m, p.Along (Idle z s' [] []) q e s'.code.size m ∧ e.Alike m := by
    intro o z h
    obtain ⟨q, hq, hat, hslides⟩ := h.finish
    exact ⟨q, hat, hslides.along fun i hi hi' => idle_end (Nat.le_trans hq hi) hi'⟩
  induction h with
  | close h hlast => exact hclose h
  | other hexits hfirst hslides hbody h hlast =>
    have hlt := hexits.lt
    obtain ⟨q, hat, hrun⟩ := hclose h
    refine ⟨q, hat, fun e => ?_⟩
    obtain ⟨m, halong, halike⟩ := hrun e
    exact ⟨m, halong.imp fun i hi => hi.widen [] (by omega) (List.forall_mem_nil _), halike⟩
  | arm hexits hfirst hasks htaken hbody hrest ih =>
    have hlt := hexits.lt
    obtain ⟨q, hat, hrun⟩ := ih
    refine ⟨q, hat, fun e => ?_⟩
    obtain ⟨m, halong, halike⟩ := hrun e
    exact ⟨m, halong.imp fun i hi => hi.widen [_] (by omega) (List.forall_mem_singleton.2 hbody), halike⟩

/-- **From the end of a body** a run gets to the end of the chain, past all other bodies and conditions. -/
theorem leaves (h : Links p f k finish s' otherwise y places trials) (e : Machine) :
    ∃ m, p.Along (Idle y s' places trials) y.code.size e s'.code.size m ∧ e.Alike m := by
  obtain ⟨hbefore, hplaces, htrials⟩ := h.bounds
  obtain ⟨q, hat, hfinish⟩ := h.finishes
  -- a jump leaves the alternative unless it is the last one
  have hexit : ∀ {first : Nat}, Exits p f otherwise finish y first → first ≤ s'.code.size →
      (∀ place ∈ places, first ≤ place.1.code.size) → (∀ t ∈ trials, first ≤ t.first) →
      ∃ m, p.Along (Idle y s' places trials) y.code.size e s'.code.size m ∧ e.Alike m := by
    intro first hexits hlast hplaces htrials
    obtain ⟨n, q', hn, rfl, hslides, hat', hjump⟩ := hexits.jumps
    cases hat.unique hat'
    have hidle : ∀ i, y.code.size ≤ i → i < n + 1 → Idle y s' places trials i := fun i hi hi' =>
      idle_before hi (Nat.lt_of_lt_of_le hi' hlast) (fun place hplace => Nat.lt_of_lt_of_le hi' (hplaces place hplace))
        fun t ht => Nat.lt_of_lt_of_le hi' (htrials t ht)
    obtain ⟨m₁, hfirst, halike⟩ := hslides.along (fun i hi hi' => hidle i hi (by omega)) e
    obtain ⟨m, hsecond, halike'⟩ := hfinish m₁
    exact ⟨m, hfirst.trans (.always (hidle n hn (Nat.lt_succ_self n)) hjump hsecond), halike.trans halike'⟩
  cases h with
  | close h hlast =>
    exact h.slides.along (fun i hi hi' => idle_end hi hi') e
  | other hexits hfirst hslides hbody h hlast =>
    exact hexit hexits (by omega) (List.forall_mem_singleton.2 hfirst) (List.forall_mem_nil _)
  | arm hexits hfirst hasks htaken hbody hrest =>
    obtain ⟨hlast, hplaces', htrials'⟩ := hrest.bounds
    refine hexit hexits (by omega) (List.forall_mem_cons.2 ⟨hfirst, fun place hplace => ?_⟩)
      (List.forall_mem_cons.2 ⟨Nat.le_refl _, fun t ht => ?_⟩)
    · have := hplaces' place hplace
      omega
    · have := htrials' t ht
      omega

/-- So it does from the end of each body that follows. -/
theorem leaves_of_mem (h : Links p f k finish s' otherwise y places trials) {place : Session × Session}
    (hplace : place ∈ (x, y) :: places) (e : Machine) :
    ∃ m, p.Along (Idle y s' places trials) place.2.code.size e s'.code.size m ∧ e.Alike m := by
  induction h generalizing x with
  | close h hlast =>
    obtain rfl := List.mem_singleton.1 hplace
    exact (Links.close (k := k) h hlast).leaves e
  | other hexits hfirst hslides hbody h hlast =>
    have hlt := hexits.lt
    rcases List.mem_cons.1 hplace with rfl | hplace
    · exact (Links.other (k := k) hexits hfirst hslides hbody h hlast).leaves e
    · obtain rfl := List.mem_singleton.1 hplace
      obtain ⟨m, halong, halike⟩ := (Links.close (k := k) h hlast).leaves e
      exact ⟨m, halong.imp fun i hi => hi.widen [] (by omega) (List.forall_mem_nil _), halike⟩
  | arm hexits hfirst hasks htaken hbody hrest ih =>
    have hlt := hexits.lt
    rcases List.mem_cons.1 hplace with rfl | hplace
    · exact (Links.arm hexits hfirst hasks htaken hbody hrest).leaves e
    · obtain ⟨m, halong, halike⟩ := ih hplace
      exact ⟨m, halong.imp fun i hi => hi.widen [_] (by omega) (List.forall_mem_singleton.2 hbody), halike⟩

/-- The trials stand between the bodies. -/
theorem stand (h : Links p f k finish s' otherwise y places trials) (sink : Sink) :
    Trial.Stand y.code.size trials
      (places.map fun place => (Builder.taking sink level place.1, Builder.taking sink level place.2)) := by
  induction h with
  | close => exact .nil _ _
  | other => exact .nil _ _
  | arm hexits hfirst hasks htaken hbody hrest ih => exact .cons (Nat.le_of_lt hexits.lt) hfirst rfl ih

/-- From a condition a run selects among it and those behind it, if it does so among those behind it. -/
theorem selects_first {c : Condition} (hrest : Links p f k finish s' otherwise z places trials)
    (hasks : p.Asks f c k otherwise first x.code.size) (hy : y.code.size ≤ first) (hfirst : first ≤ x.code.size)
    (hbody : x.code.size ≤ z.code.size)
    (hmore : ∃ q, f.labels.MarkedAt otherwise q ∧ ∀ m, p.Attains (Idle z s' places []) False q m fun n e => ∃ i,
      p.Selects (Idle z s' places trials) trials q m i n e ∧ Goal s' places i n ∧ m.Aside k e ∧
        e.frame.stack = m.frame.stack) (m : Machine) :
    p.Attains (Idle y s' ((x, z) :: places) []) False first m fun n e => ∃ i,
      p.Selects (Idle y s' ((x, z) :: places) (⟨c, first, x.code.size⟩ :: trials)) (⟨c, first, x.code.size⟩ :: trials)
        first m i n e ∧ Goal s' ((x, z) :: places) i n ∧ m.Aside k e ∧
          e.frame.stack = m.frame.stack.drop c.taken := by
  obtain ⟨hlast, hplaces, -⟩ := hrest.bounds
  obtain ⟨q, hat, hmore⟩ := hmore
  refine hasks.selects (fun i hi hi' => ?_) (goal_first places) (fun q' hq' m' => ?_) m
  · refine idle_before (by omega) (by omega) (List.forall_mem_cons.2 ⟨hi', fun place hplace => ?_⟩)
      (List.forall_mem_nil _)
    have := hplaces place hplace
    omega
  · cases hat.unique hq'
    refine (hmore m').imp (fun i hi => hi.widen [] (by omega) (List.forall_mem_nil _)) id ?_
    rintro n e ⟨i, hselects, hgoal, haside, hstack⟩
    refine ⟨i, hselects.imp fun i hi => ?_, ⟨hgoal.body, hgoal.end⟩, haside, hstack⟩
    exact hi.widen [_] (by omega) (List.forall_mem_singleton.2 hbody)

/-- **Trials.** From the label that a condition goes to when it fails, a run selects among the conditions that
follow, and gets to the body of the one that it selects, or it stops on the way. -/
theorem selects (h : Links p f k finish s' otherwise y places trials) :
    ∃ q, f.labels.MarkedAt otherwise q ∧ ∀ m, p.Attains (Idle y s' places []) False q m fun n e => ∃ i,
      p.Selects (Idle y s' places trials) trials q m i n e ∧ Goal s' places i n ∧ m.Aside k e ∧
        e.frame.stack = m.frame.stack := by
  induction h with
  | @close o y h hlast =>
    refine ⟨_, h.otherwise, fun m => ?_⟩
    obtain ⟨e, halong, halike⟩ := h.slides.along (fun i hi hi' => idle_end hi hi') m
    exact halong.attains (.here ⟨0, .none halong, goal_end, .of_alike k halike, halike.stack⟩)
  | @other o y x z first hexits hfirst hslides hbody h hlast =>
    have hlt := hexits.lt
    refine ⟨first, hexits.marked, fun m => ?_⟩
    have hidle : ∀ i, first ≤ i → i < x.code.size → Idle y s' [(x, z)] [] i := fun i hi hi' =>
      idle_before (by omega) (by omega) (List.forall_mem_singleton.2 hi') (List.forall_mem_nil _)
    obtain ⟨e, halong, halike⟩ := hslides.along hidle m
    exact halong.attains (.here ⟨0, .none halong, goal_first [], .of_alike k halike, halike.stack⟩)
  | arm hexits hfirst hasks htaken hbody hrest ih =>
    refine ⟨_, hexits.marked, fun m => ?_⟩
    -- nothing is taken from the stack behind the first condition of a chain
    have hselects := hrest.selects_first hasks (Nat.le_of_lt hexits.lt) hfirst hbody ih m
    rwa [htaken] at hselects

end Links

/-- The alternatives that follow a body link it to the end of the chain. -/
theorem links_of_laid {arms : List (Arm × List Call)} {last : Option (List Call)} {c : Session} (sink : Sink)
    (hp : p.Fits f) (hlaid : Laid level (others arms last) y c places)
    (hy : y.outline = .conditional otherwise finish :: rest) (hlabels : 0 < y.labels.entries.size)
    (hk : k ≤ y.locals.size)
    (howns : ∀ i condition, (arms.map fun arm => arm.1.condition)[i]? = some condition →
      ∀ s, ((Builder.taking sink level y).after (((others arms last).take i).flatMap Part.calls)).state = .building s →
        ∀ l ∈ condition.locals, s.Owns l)
    (hbalanced : ∀ place ∈ places, place.2.outline = place.1.outline)
    (hcloses : Takes level [.perform .closeIf] c s') (hcs : c.Extends s') (hs' : s'.Extends f) :
    s'.outline = rest ∧ ∃ trials, trials.map Trial.condition = arms.map (fun arm => arm.1.condition) ∧
      Links p f k finish s' otherwise y places trials := by
  induction arms generalizing y otherwise places with
  | nil =>
    cases last with
    | none =>
      cases hlaid
      obtain ⟨hclosed, hcloses⟩ := closes_of_closeIf hp hy hcloses hs'
      exact ⟨hclosed, [], rfl, .close hcloses hcs.size⟩
    | some body =>
      have hparts : others [] (some body) = [⟨.openElse, body, []⟩] := rfl
      rw [hparts] at hlaid
      cases hlaid with
      | @cons _ _ _ x z _ _ places hone hrest =>
        have hempty : Takes level [] z _ := hone.closes
        cases hempty
        cases hrest
        obtain ⟨first, hx, hexits, hfirst, hslides⟩ :=
          slides_of_else hp hy hone.opens (hone.extends_closing.trans (hcs.trans hs'))
        have hz : c.outline = .conditional finish finish :: rest :=
          (hbalanced _ List.mem_cons_self).trans hx
        obtain ⟨hclosed, hcloses⟩ := closes_of_closeIf hp hz hcloses hs'
        exact ⟨hclosed, [], rfl, .other hexits hfirst hslides hone.extends_closing.size hcloses hcs.size⟩
  | cons arm arms ih =>
    have hparts : others (arm :: arms) last = ⟨arm.1.operation, arm.2, []⟩ :: others arms last := rfl
    rw [hparts] at hlaid howns
    cases hlaid with
    | @cons _ _ _ x z _ _ places hone hrest =>
      have hempty : Takes level [] z _ := hone.closes
      cases hempty
      obtain ⟨hbody, hmore⟩ := List.forall_mem_cons.1 hbalanced
      have hbehind := hrest.extends.trans (hcs.trans hs')
      obtain ⟨otherwise', first, hx, hexits, hfirst, hasks⟩ :=
        asks_of_arm hp hy hlabels (howns 0 _ rfl y rfl) hone.opens (hone.extends_closing.trans hbehind)
      -- the other alternatives follow the body of this one
      have hgrows := hone.grows_body.trans hone.grows_closing
      obtain ⟨hclosed, trials, htrials, hlinks⟩ := ih hrest (hbody.trans hx)
        (Nat.lt_of_lt_of_le hlabels hgrows.labels_size) (Nat.le_trans hk hgrows.locals_size)
        (fun i condition hi s hs => howns (i + 1) condition hi s (by
          rwa [List.take_succ_cons, List.flatMap_cons, Builder.after_append, hone.taking])) hmore
      exact ⟨hclosed, ⟨arm.1.condition, first, x.code.size⟩ :: trials, congrArg (_ :: ·) htrials,
        .arm hexits hfirst (hasks.fewer hk) arm.1.taken_condition hone.extends_closing.size hlinks⟩

/-- A chain as it is **built**. -/
structure Built (p : Procedure) (c : Condition) (s s' : Session) (places : List (Session × Session))
    (trials : List Trial) : Prop where
  /-- The trials stand between the bodies. -/
  stand : ∀ (sink : Sink) (level : TraceDetail), Trial.Stand s.code.size trials
    (places.map fun place => (Builder.taking sink level place.1, Builder.taking sink level place.2))
  /-- A run selects an alternative, or it stops on the way. -/
  selects : ∀ m : Machine, p.Attains (Idle s s' places []) False s.code.size m fun n e => ∃ i,
    p.Selects (Idle s s' places trials) trials s.code.size m i n e ∧ Goal s' places i n ∧ m.Aside s.locals.size e ∧
      e.frame.stack = m.frame.stack.drop c.taken
  /-- From the end of each body a run gets to the end of the chain. -/
  leaves : ∀ place ∈ places, ∀ e : Machine,
    ∃ m, p.Along (Idle s s' places trials) place.2.code.size e s'.code.size m ∧ e.Alike m

/-- An accepted chain with balanced bodies is built. -/
theorem built_of_laid {chain : Chain} {s c : Session} (sink : Sink) (hp : p.Fits f) (hlabels : 0 < s.labels.entries.size)
    (hlaid : Laid level chain.parts s c places)
    (howns : ∀ i condition, chain.conditions[i]? = some condition →
      ∀ s', ((Builder.taking sink level s).after ((chain.parts.take i).flatMap Part.calls)).state = .building s' →
        ∀ l ∈ condition.locals, s'.Owns l)
    (hbalanced : ∀ place ∈ places, place.2.outline = place.1.outline)
    (hcloses : Takes level [.perform .closeIf] c s') (hcs : c.Extends s') (hs' : s'.Extends f) :
    s'.outline = s.outline ∧ ∃ trials, trials.map Trial.condition = chain.conditions ∧
      Built p chain.opener.condition s s' places trials := by
  rw [parts] at hlaid howns
  cases hlaid with
  | @cons _ _ _ x y _ _ places hone hrest =>
    have hempty : Takes level [] y _ := hone.closes
    cases hempty
    obtain ⟨hbody, hmore⟩ := List.forall_mem_cons.1 hbalanced
    have hbehind := hrest.extends.trans (hcs.trans hs')
    obtain ⟨otherwise, finish, hx, hasks⟩ :=
      asks_of_opener hp hlabels (howns 0 _ rfl s rfl) hone.opens (hone.extends_closing.trans hbehind)
    have hgrows := hone.grows_body.trans hone.grows_closing
    obtain ⟨hclosed, trials, htrials, hlinks⟩ := links_of_laid sink hp hrest (hbody.trans hx)
      (Nat.lt_of_lt_of_le hlabels hgrows.labels_size) hgrows.locals_size
      (fun i condition hi s' hs' => howns (i + 1) condition hi s' (by
        rwa [List.take_succ_cons, List.flatMap_cons, Builder.after_append, hone.taking])) hmore hcloses hcs hs'
    have hsx := hone.extends_body.size
    have hxy := hone.extends_closing.size
    refine ⟨hclosed, ⟨chain.opener.condition, s.code.size, x.code.size⟩ :: trials, congrArg (_ :: ·) htrials,
      fun sink level => .cons (Nat.le_refl _) hsx rfl (hlinks.stand sink),
      hlinks.selects_first hasks (Nat.le_refl _) hsx hxy hlinks.selects, fun place hplace e => ?_⟩
    obtain ⟨m, halong, halike⟩ := hlinks.leaves_of_mem hplace e
    exact ⟨m, halong.imp fun i hi => hi.widen [_] (Nat.le_trans hsx hxy) (List.forall_mem_singleton.2 hxy), halike⟩

end Chain

namespace Builder

open Chain

/-- **Chains of alternatives.** In every procedure that a client builds, a run through a chain tries the conditions
in order up to the first one that holds, or it stops on the way. It gets to the body of that alternative, to that of
the `else` if no condition holds, or to the end if there is no `else`; on the way it does the code of no other
condition, and nothing but the operands of the first condition is taken from the stack. Once it has crossed the body
it gets to the end of the chain, and nothing is changed. The bodies may be anything that leaves the open constructs
as they were. -/
theorem chain_selects (number : Nat) (name : String) (signature : Signature) (sink : Sink) (level : TraceDetail)
    (cs cs' : List Call) (chain : Chain) (b : Builder) (p : Procedure)
    (hb : (begin number name signature sink level).builder.after cs = b)
    (hissued : ∀ call ∈ cs ++ (chain.calls ++ cs'), ∀ l ∈ call.handed, l.Issued)
    (howns : ∀ i condition, chain.conditions[i]? = some condition →
      ∀ s, (b.after ((chain.parts.take i).flatMap Part.calls)).state = .building s →
        ∀ l ∈ condition.locals, s.Owns l)
    (hbalanced : Balanced (b.bodies chain.parts))
    (hp : (b.after (chain.calls ++ cs')).finish.result = .ok p) :
    let b' := b.after chain.calls
    let bodies := b.bodies chain.parts
    b'.outline = b.outline ∧ ∃ trials : List Trial, trials.map Trial.condition = chain.conditions ∧
      Trial.Stand b.position trials bodies ∧
      let idle := fun n => Outside b b' bodies n ∧ ∀ t ∈ trials, ¬ t.code n
      ∀ m : Machine, p.Attains (Outside b b' bodies) False b.position m fun n e => ∃ i,
        p.Selects idle trials b.position m i n e ∧
          (∀ s, b.state = .building s → m.Aside s.locals.size e) ∧
          e.frame.stack = m.frame.stack.drop chain.opener.condition.taken ∧
          (∀ x y, bodies[i]? = some (x, y) → n = x.position ∧ ∀ e', p.Crosses x.position y.position e e' →
            ∃ m', p.Along idle y.position e' b'.position m' ∧ e'.Alike m') ∧
          (bodies[i]? = none → n = b'.position) := by
  intro b' bodies
  obtain ⟨sink', s, s', f, rfl, hsound, htakes, hsf, hfits, hinside⟩ := takes_within hb hissued hp
  -- the sessions before the alternatives and behind them
  obtain ⟨hparts, hlast⟩ := List.forall_mem_append.1 hinside
  obtain ⟨c, hmiddle, hcloses⟩ := htakes.split
  obtain ⟨places, hlaid, hc⟩ := laid_of_takes hsound.inner hparts hmiddle
  have hcs := (hcloses.grows hc hlast).extends
  have hb' : b' = taking sink' level s' := htakes.taking sink'
  have hlast' : b'.position = s'.code.size := by
    rw [hb']
    rfl
  have hbodies : bodies = places.map fun place => (taking sink' level place.1, taking sink' level place.2) :=
    hlaid.bodies_eq sink'
  rw [balanced_iff hlaid] at hbalanced
  obtain ⟨hclosed, trials, htrials, hbuilt⟩ :=
    built_of_laid sink' hfits hsound.inner.labels hlaid howns hbalanced hcloses hcs hsf.extends
  have houtside : ∀ i, s.code.size ≤ i → i < s'.code.size → Clear places i →
      Outside (taking sink' level s) b' bodies i := by
    intro i hi hi' hclear
    rw [hb', outside_iff hlaid]
    exact ⟨hi, hi', hclear⟩
  refine ⟨hb' ▸ hclosed, trials, htrials, hbodies ▸ hbuilt.stand sink' level, fun m => ?_⟩
  refine (hbuilt.selects m).imp (fun i hi => houtside i hi.first hi.last hi.clear) id ?_
  rintro n e ⟨i, hselects, hgoal, haside, hstack⟩
  have hidle : ∀ i, Idle s s' places trials i →
      Outside (taking sink' level s) b' bodies i ∧ ∀ t ∈ trials, ¬ t.code i :=
    fun i hi => ⟨houtside i hi.first hi.last hi.clear, hi.untried⟩
  refine ⟨i, hselects.imp hidle, ?_, hstack, ?_, ?_⟩
  · rintro s₁ hs₁
    cases hs₁
    exact haside
  · rintro x y hi
    rw [hbodies, List.getElem?_map, Option.map_eq_some_iff] at hi
    obtain ⟨place, hplace, heq⟩ := hi
    cases heq
    refine ⟨hgoal.body place hplace, fun e' _ => ?_⟩
    obtain ⟨m', halong, halike⟩ := hbuilt.leaves place (List.mem_of_getElem? hplace) e'
    rw [hlast']
    exact ⟨m', halong.imp hidle, halike⟩
  · intro hi
    rw [hbodies, List.getElem?_map, Option.map_eq_none_iff] at hi
    rw [hlast']
    exact hgoal.end hi

/-- The integer one as an operand. -/
def intOne : Operand := .constant (.scalar (.i32 1))

/-- The integer two as an operand. -/
def intTwo : Operand := .constant (.scalar (.i32 2))

/-- Calls that do nothing. -/
def nothing : List Call := [.perform .loadNull, .perform .pop]

/-- A chain of three alternatives. The first body is empty, and the others do nothing. -/
def threeWays : Chain where
  opener := .ifTrue
  body := []
  arms := [(.compared intOne .lessThan intTwo, nothing)]
  last := some nothing

/-- Its first part. -/
def firstWay : Part := ⟨.openIfTrue, [], []⟩

/-- Its second part. -/
def secondWay : Part := ⟨.openElseIf intOne .lessThan intTwo, nothing, []⟩

/-- Its last part. -/
def lastWay : Part := ⟨.openElse, nothing, []⟩

/-- The session in its first alternative. -/
def inFirst : Session where
  name := "f"
  signature := ⟨[], none⟩
  sink := .log
  constructs := [.conditional ⟨1, 2⟩ ⟨1, 1⟩]
  labels := ⟨1, #[⟨none, false⟩, ⟨none, false⟩, ⟨none, true⟩]⟩
  code := #[.jump (.ifFalse ⟨1, 2⟩)]
  finish := ⟨1, 0⟩

/-- The session in its second alternative. -/
def inSecond : Session := { inFirst with
  constructs := [.conditional ⟨1, 3⟩ ⟨1, 1⟩]
  labels := ⟨1, #[⟨none, false⟩, ⟨none, true⟩, ⟨some 2, true⟩, ⟨none, true⟩]⟩
  code := inFirst.code ++ #[.jump (.always ⟨1, 1⟩), .op (.push (.ofInt32 1)), .op (.push (.ofInt32 2)),
    .jump (.compare .greaterThanOrEqualTo ⟨1, 3⟩)] }

/-- The session behind its second body. -/
def behindSecond : Session := { inSecond with code := inSecond.code ++ #[.op (.push .null), .op .pop] }

/-- The session in its last alternative. -/
def inLast : Session := { behindSecond with
  constructs := [.conditional ⟨1, 1⟩ ⟨1, 1⟩]
  labels := ⟨1, #[⟨none, false⟩, ⟨none, true⟩, ⟨some 2, true⟩, ⟨some 8, true⟩]⟩
  code := behindSecond.code ++ #[.jump (.always ⟨1, 1⟩)] }

/-- The session behind its last body. -/
def behindLast : Session := { inLast with code := inLast.code ++ #[.op (.push .null), .op .pop] }

/-- The session behind the chain. -/
def behindChain : Session := { behindLast with
  constructs := []
  labels := ⟨1, #[⟨none, false⟩, ⟨some 10, true⟩, ⟨some 2, true⟩, ⟨some 8, true⟩]⟩ }

/-- The procedure of the chain. -/
def chosen : Procedure where
  name := "f"
  signature := ⟨[], none⟩
  locals := []
  code := #[.jump (.ifFalse 2), .jump (.always 10), .op (.push (.ofInt32 1)), .op (.push (.ofInt32 2)),
    .jump (.compare .greaterThanOrEqualTo 8), .op (.push .null), .op .pop, .jump (.always 10),
    .op (.push .null), .op .pop, .ret]

theorem after_firstWay : plain.after [.perform firstWay.opening] = taking .log .off inFirst := rfl

theorem after_secondWay : (taking .log .off inFirst).after [.perform secondWay.opening] = taking .log .off inSecond ∧
    (taking .log .off inFirst).after secondWay.calls = taking .log .off behindSecond := by
  have hopen : (taking .log .off inFirst).after [.perform secondWay.opening] = taking .log .off inSecond := rfl
  have hbody : (taking .log .off inSecond).after nothing = taking .log .off behindSecond := rfl
  have hcalls : secondWay.calls = [.perform secondWay.opening] ++ nothing := rfl
  rw [hcalls, after_append, hopen]
  exact ⟨rfl, hbody⟩

theorem after_lastWay : (taking .log .off behindSecond).after [.perform lastWay.opening] = taking .log .off inLast ∧
    (taking .log .off behindSecond).after lastWay.calls = taking .log .off behindLast := by
  have hopen : (taking .log .off behindSecond).after [.perform lastWay.opening] = taking .log .off inLast := rfl
  have hbody : (taking .log .off inLast).after nothing = taking .log .off behindLast := rfl
  have hcalls : lastWay.calls = [.perform lastWay.opening] ++ nothing := rfl
  rw [hcalls, after_append, hopen]
  exact ⟨rfl, hbody⟩

theorem bodies_threeWays : plain.bodies threeWays.parts =
    [(taking .log .off inFirst, taking .log .off inFirst), (taking .log .off inSecond, taking .log .off behindSecond),
      (taking .log .off inLast, taking .log .off behindLast)] := by
  have hbodies : plain.bodies threeWays.parts =
      [(plain.after [.perform firstWay.opening], plain.after [.perform firstWay.opening]),
        ((plain.after [.perform firstWay.opening]).after [.perform secondWay.opening],
          (plain.after [.perform firstWay.opening]).after secondWay.calls),
        (((plain.after [.perform firstWay.opening]).after secondWay.calls).after [.perform lastWay.opening],
          ((plain.after [.perform firstWay.opening]).after secondWay.calls).after lastWay.calls)] := rfl
  rw [hbodies, after_firstWay, after_secondWay.1, after_secondWay.2, after_lastWay.1, after_lastWay.2]

theorem after_threeWays : plain.after threeWays.calls = taking .log .off behindChain := by
  have hcalls : threeWays.calls =
      [.perform firstWay.opening] ++ (secondWay.calls ++ (lastWay.calls ++ [.perform .closeIf])) := rfl
  have hclose : (taking .log .off behindLast).after [.perform .closeIf] = taking .log .off behindChain := rfl
  rw [hcalls, after_append, after_firstWay, after_append, after_secondWay.2, after_append, after_lastWay.2, hclose]

theorem finish_chosen : (plain.after (threeWays.calls ++ [])).finish.result = .ok chosen := by
  rw [List.append_nil, after_threeWays]
  with_unfolding_all rfl

/-- A machine with a condition that does not hold. -/
def falseOnTop : Machine := ⟨⟨#[], #[], [.ofBool false]⟩, {}⟩

/-- A run comes past the two conditions. -/
theorem along_chosen : chosen.Along (fun n => n < 5) 0 falseOnTop 5 ⟨⟨#[], #[], []⟩, {}⟩ :=
  .goto (by decide) rfl rfl (.next (by decide) rfl rfl (.next (by decide) rfl rfl (.next (by decide) rfl rfl
    (.here _ _))))

/-- With such a condition a run gets to the second body, for one is less than two, and does not stop before. -/
theorem chain_selects_second :
    chosen.Attains (Outside plain (plain.after threeWays.calls) (plain.bodies threeWays.parts)) False 0 falseOnTop
        (fun n e => n = 5 ∧ e.frame.stack = []) ∧
      chosen.Along (fun n => n < 5) 0 falseOnTop 5 ⟨⟨#[], #[], []⟩, {}⟩ := by
  refine ⟨?_, along_chosen⟩
  have hissued : ∀ call ∈ [] ++ (threeWays.calls ++ []), ∀ l ∈ call.handed, l.Issued := by
    simp [threeWays, nothing, Chain.calls, Chain.parts, Chain.others, Part.calls, Opener.operation, Arm.operation,
      Call.handed, Operation.handed]
  have howns : ∀ i condition, threeWays.conditions[i]? = some condition →
      ∀ s, (plain.after ((threeWays.parts.take i).flatMap Part.calls)).state = .building s →
        ∀ l ∈ condition.locals, s.Owns l := by
    intro i condition hi s _ l hl
    have hlocals : ∀ c ∈ threeWays.conditions, c.locals = [] := by
      simp [threeWays, Chain.conditions, Opener.condition, Arm.condition, Condition.locals, Operand.locals, intOne,
        intTwo]
    rw [hlocals condition (List.mem_of_getElem? hi)] at hl
    exact absurd hl List.not_mem_nil
  have hbalanced : Balanced (plain.bodies threeWays.parts) := by
    rw [bodies_threeWays]
    exact List.forall_mem_cons.2 ⟨rfl, List.forall_mem_cons.2 ⟨rfl, List.forall_mem_singleton.2 rfl⟩⟩
  obtain ⟨-, trials, htrials, -, hrun⟩ := chain_selects 1 "f" ⟨[], none⟩ .log .off [] [] threeWays plain chosen rfl
    hissued howns hbalanced finish_chosen
  have hfirst : plain.position = 0 := rfl
  rw [← hfirst]
  refine (hrun falseOnTop).imp (fun _ h => h) (fun h => h) fun n e hbehind => ?_
  obtain ⟨i, hselects, -, hstack, hbody, -⟩ := hbehind
  -- the first condition does not hold, and the second one does
  have hi : i = 1 := by
    generalize plain.position = first at hselects
    cases hselects with
    | none => cases htrials
    | @holds t ts _ _ htells =>
      obtain ⟨hcondition, -⟩ := List.cons.inj htrials
      rw [hcondition] at htells
      obtain ⟨v, rest, held, hv, hheld, hr⟩ := htells
      cases hv
      cases hheld
      cases hr
    | @fails t ts _ _ _ _ _ i _ _ hrest =>
      obtain ⟨-, htrials⟩ := List.cons.inj htrials
      cases hrest with
      | none => cases htrials
      | holds => rfl
      | @fails t ts _ _ _ _ _ i htells _ _ =>
        obtain ⟨hcondition, -⟩ := List.cons.inj htrials
        rw [hcondition] at htells
        obtain ⟨x, y, hx, hy, hsays⟩ := htells
        cases hx
        cases hy
        have hsays : false =
            Comparison.lessThan.accepts (compare (Scalar.wordValue .i32 1#32) (Scalar.wordValue .i32 2#32)) := hsays
        exact absurd hsays (by decide)
  rw [bodies_threeWays] at hbody
  obtain ⟨hn, -⟩ := hbody _ _ (by rw [hi]; rfl)
  exact ⟨hn, hstack⟩

end Builder

end Stackwright
