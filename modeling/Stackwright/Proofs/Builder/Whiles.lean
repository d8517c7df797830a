import Stackwright.Proofs.Builder.Chains
import Stackwright.Proofs.Builder.Loops
import Stackwright.Proofs.Machine.Legs

/-! # While loops

A while loop is opened by the label of its head. Its condition is recorded behind the head and leaves two
operands; its body begins with a jump on the negated comparison, and is closed by a jump back to the head,
behind which the label of the other jump is marked.

* **`Machine.Compares`**, **`Machine.Satisfies`** — what a condition leaves, and whether a comparison holds of it.
* **`Builder.while_repeats`** — a while loop goes through its condition before each round, and through its body
  as long as the comparison holds. -/

namespace Stackwright

/-! ## Conditions that leave two integers -/

/-- A machine has **two integers** on top of a stack. -/
def Machine.Compares (m : Machine) (stack : List Value) (a b : Int) : Prop :=
  ∃ (j k : WordKind) (v : BitVec j.bits) (w : BitVec k.bits), Scalar.wordValue j v = a ∧ Scalar.wordValue k w = b ∧
    m.frame.stack = .scalar (.word k w) :: .scalar (.word j v) :: stack

/-- A comparison **holds** of the two integers that a machine has on top. -/
def Machine.Satisfies (m : Machine) (c : Comparison) : Prop := ∃ stack a b, m.Compares stack a b ∧ c.Relates a b

/-- A machine has no more than two integers on top. -/
theorem Machine.Compares.satisfies_iff {m : Machine} {stack : List Value} {a b : Int} (h : m.Compares stack a b)
    {c : Comparison} : m.Satisfies c ↔ c.Relates a b := by
  refine ⟨?_, fun hc => ⟨stack, a, b, h, hc⟩⟩
  obtain ⟨j, k, v, w, rfl, rfl, hstack⟩ := h
  rintro ⟨stack', a', b', ⟨j', k', v', w', rfl, rfl, hstack'⟩, hc⟩
  cases hstack.symm.trans hstack'
  exact hc

open Builder (Takes Accepts)

/-! ## What the calls record -/

namespace Emit

variable {t : Tracer} {s s' : Session} {head : Label} {cs : List Construct} {c : Comparison}

/-- A while loop begins where its head is marked. -/
theorem tells_openWhile (h : (openWhile.run t).run s = .ok () s') : ∃ head s₁, s.Tells s₁ ∧
    s₁.labels.MarkedAt head s.code.size ∧ s' = s₁.withConstructs (.whileLoop head :: s.constructs) := by
  obtain ⟨head, s₁, hnew, h⟩ := run_bind_eq_ok.1 h
  obtain ⟨u, s₂, hmark, hopen⟩ := run_bind_eq_ok.1 h
  cases hopen
  have hsize : s₁.code.size = s.code.size := by
    cases hnew
    rfl
  have hnew := tells_newLabel hnew
  obtain ⟨hmarked, hat⟩ := tells_markHere hmark
  refine ⟨head, s₂, hnew.trans hmarked, hsize ▸ hat, ?_⟩
  rw [← (hnew.trans hmarked).constructs]
  rfl

/-- Its body begins with a jump on the negated comparison. -/
theorem jumped_of_openWhileBody (hs : s.constructs = .whileLoop head :: cs)
    (h : ((openWhileBody c).run t).run s = .ok () s') : ∃ otherwise finish s₁, (s.withConstructs cs).Tells s₁ ∧
      s' = (s₁.jumped (.compare c.negated otherwise)).withConstructs
        (.whileLoop head :: .conditional otherwise finish :: cs) := by
  obtain ⟨head', s₀, htake, h⟩ := run_bind_eq_ok.1 h
  rw [run_takeWhileHead hs] at htake
  cases htake
  obtain ⟨u, s₂, hopens, hopen⟩ := run_bind_eq_ok.1 h
  cases hopen
  obtain ⟨finish, s₁, hnew, h⟩ := run_bind_eq_ok.1 hopens
  obtain ⟨otherwise, s₂, hskip, hopen⟩ := run_bind_eq_ok.1 h
  cases hopen
  have hskip : ((Test.comparison c).skip.run t).run _ = .ok otherwise s₂ := hskip
  obtain ⟨s₂, hline, rfl⟩ := jumped_of_skip hskip
  have htells := (tells_newLabel hnew).trans hline
  refine ⟨otherwise, finish, s₂, htells, ?_⟩
  have hsame : s₂.constructs = cs := htells.constructs
  show _ = Session.withConstructs _ _
  rw [← hsame]
  rfl

/-- It ends with a jump back to the head, and the other jump goes behind that. -/
theorem jumped_of_closeWhile {otherwise finish : Label}
    (hs : s.constructs = .whileLoop head :: .conditional otherwise finish :: cs)
    (h : (closeWhile.run t).run s = .ok () s') :
    ∃ s₁, (s.withConstructs (.conditional otherwise finish :: cs)).Tells s₁ ∧
      ((s₁.jumped (.always head)).withConstructs cs).Tells s' ∧
      s'.labels.MarkedAt otherwise (s₁.code.size + 1) := by
  obtain ⟨head', s₀, htake, h⟩ := run_bind_eq_ok.1 h
  rw [run_takeWhileHead hs] at htake
  cases htake
  obtain ⟨u, s₂, hjump, hclose⟩ := run_bind_eq_ok.1 h
  obtain ⟨s₁, hline, -, rfl⟩ := tells_jump hjump
  obtain ⟨s₂, hfirst, hlast, -, hat⟩ := tells_closeIf (s := s₁.jumped (.always head)) hline.constructs hclose
  exact ⟨s₁, hline, hfirst.trans hlast, by simpa using hat⟩

end Emit

/-! ## Where a run through a loop gets -/

namespace WhileLoop

/-- What a run through a while loop **goes through**. -/
inductive Stage
  /-- The condition. -/
  | condition
  /-- The body. -/
  | body

/-- The condition is from `x` to `y`, and the body from `u` to `v`. -/
def places (x y u v : Nat) : Stage → Nat × Nat
  | .condition => (x, y)
  | .body => (u, v)

open Emit Procedure

variable {p : Procedure} {f s x y u v s' : Session} {level : TraceDetail} {c : Comparison} {head : Label}
  {rest : List Construct}

/-- A while loop **between sessions**, around its condition and its body. -/
structure Built (p : Procedure) (c : Comparison) (s x y u v s' : Session) : Prop where
  /-- The condition is behind the head. -/
  enters : p.Slides s.code.size x.code.size
  /-- Behind the condition the comparison is tested. Where it does not hold, the run goes behind the loop. -/
  tests : ∃ n q, y.code.size ≤ n ∧ u.code.size = n + 1 ∧ p.Slides y.code.size n ∧
    p.code[n]? = some (.jump (.compare c.negated q)) ∧ v.code.size ≤ q ∧ p.Slides q s'.code.size
  /-- Behind the body a run goes back to the head. -/
  returns : ∃ n, v.code.size ≤ n ∧ n < s'.code.size ∧ p.Slides v.code.size n ∧
    p.code[n]? = some (.jump (.always s.code.size))

/-- How a while loop begins. -/
theorem enters_of_openWhile (hp : p.Fits f) (h : Takes level [.perform .openWhile] s x) (hx : x.Extends f) :
    ∃ head, x.outline = .whileLoop head :: s.outline ∧ f.labels.MarkedAt head s.code.size ∧
      p.Slides s.code.size x.code.size := by
  obtain ⟨x₁, hrun, rfl⟩ := h.done rfl
  obtain ⟨head, s₁, htells, hat, rfl⟩ := tells_openWhile hrun
  have hlast : s₁.Extends f :=
    (Session.extends_withConstructs _ _).trans ((Session.tells_delivered _).further.trans hx)
  exact ⟨head, rfl, hlast.marks _ _ hat, htells.slides hp hlast⟩

/-- How its body begins. -/
theorem tests_of_openWhileBody (hp : p.Fits f) (hy : y.outline = .whileLoop head :: rest)
    (h : Takes level [.perform (.openWhileBody c)] y u) (hu : u.Extends f) :
    ∃ otherwise finish n q, u.outline = .whileLoop head :: .conditional otherwise finish :: rest ∧
      y.code.size ≤ n ∧ u.code.size = n + 1 ∧ p.Slides y.code.size n ∧ f.labels.MarkedAt otherwise q ∧
      p.code[n]? = some (.jump (.compare c.negated q)) := by
  obtain ⟨k, cs, hcs, hk, rfl⟩ := List.map_eq_cons_iff.1 hy
  obtain rfl := Construct.bare_eq_whileLoop.1 hk
  obtain ⟨u₁, hrun, rfl⟩ := h.done rfl
  obtain ⟨otherwise, finish, s₁, hline, rfl⟩ := jumped_of_openWhileBody hcs hrun
  have hjumped : (s₁.jumped (.compare c.negated otherwise)).Extends f :=
    (Session.extends_withConstructs _ _).trans ((Session.tells_delivered _).further.trans hu)
  obtain ⟨q, hq, hcode⟩ := hp.compare hjumped
  have hsize : (s₁.jumped (.compare c.negated otherwise)).code.size = s₁.code.size + 1 := by simp
  exact ⟨otherwise, finish, s₁.code.size, q, rfl, hline.further.size, hsize,
    hline.slides hp ((s₁.extends_jumped _).trans hjumped), hq, hcode⟩

/-- How it ends. -/
theorem returns_of_closeWhile {otherwise finish : Label} (hp : p.Fits f)
    (hv : v.outline = .whileLoop head :: .conditional otherwise finish :: rest)
    (h : Takes level [.perform .closeWhile] v s') (hs' : s'.Extends f) :
    ∃ n q, s'.outline = rest ∧ v.code.size ≤ n ∧ n < s'.code.size ∧ p.Slides v.code.size n ∧
      f.labels.MarkedAt head q ∧ p.code[n]? = some (.jump (.always q)) ∧
      f.labels.MarkedAt otherwise (n + 1) ∧ p.Slides (n + 1) s'.code.size := by
  obtain ⟨k, cs, hcs, hk, hrest⟩ := List.map_eq_cons_iff.1 hv
  obtain rfl := Construct.bare_eq_whileLoop.1 hk
  obtain ⟨cs, rfl, rfl⟩ : ∃ cs', cs = .conditional otherwise finish :: cs' ∧ cs'.map Construct.bare = rest := by
    obtain ⟨k, cs', rfl, hk, hrest⟩ := List.map_eq_cons_iff.1 hrest
    exact ⟨cs', by rw [Construct.bare_eq_conditional.1 hk], hrest⟩
  obtain ⟨s₂, hrun, rfl⟩ := h.done rfl
  obtain ⟨s₁, hline, hlast, hat⟩ := jumped_of_closeWhile hcs hrun
  have hmarks : s₂.Extends f := s₂.tells_delivered.further.trans hs'
  have hjumped : (s₁.jumped (.always head)).Extends f :=
    ((Session.extends_withConstructs _ cs).trans hlast.further).trans hmarks
  obtain ⟨q, hq, hcode⟩ := hp.always hjumped
  have hsize : ((s₁.jumped (.always head)).withConstructs cs).code.size = s₁.code.size + 1 := by simp
  have hslides := hlast.slides hp hmarks
  have hle := hlast.further.size
  rw [hsize] at hslides hle
  refine ⟨s₁.code.size, q, ?_, hline.further.size, hle, hline.slides hp ((s₁.extends_jumped _).trans hjumped), hq,
    hcode, hmarks.marks _ _ hat, hslides⟩
  show s₂.constructs.map Construct.bare = _
  rw [hlast.constructs]
  rfl

/-- An accepted while loop is built. -/
theorem built_of_takes (hp : p.Fits f) (hopens : Takes level [.perform .openWhile] s x)
    (hcondition : y.outline = x.outline) (hturns : Takes level [.perform (.openWhileBody c)] y u)
    (hbody : v.outline = u.outline) (hcloses : Takes level [.perform .closeWhile] v s')
    (hxy : x.Extends y) (hyu : y.Extends u) (huv : u.Extends v) (hvs : v.Extends s') (hs' : s'.Extends f) :
    s'.outline = s.outline ∧ Built p c s x y u v s' := by
  have hv := hvs.trans hs'
  have hu := huv.trans hv
  obtain ⟨head, hx, hhead, henters⟩ := enters_of_openWhile hp hopens (hxy.trans (hyu.trans hu))
  obtain ⟨otherwise, finish, n, q, hnext, hyn, hun, hslides, hq, hcode⟩ :=
    tests_of_openWhileBody hp (hcondition.trans hx) hturns hu
  obtain ⟨i, r, hrest, hvi, his, hslides', hr, hback, hotherwise, hlast⟩ :=
    returns_of_closeWhile hp (hbody.trans hnext) hcloses hs'
  cases hr.unique hhead
  cases hq.unique hotherwise
  exact ⟨hrest, henters, ⟨n, _, hyn, hun, hslides, hcode, Nat.le_succ_of_le hvi, hlast⟩,
    i, hvi, his, hslides', hback⟩

namespace Built

variable {P : Nat → Prop} {m : Machine} {stack : List Value} {a b : Int}

/-- The positions of a loop that are in neither its condition nor its body. -/
def Between (s x y u v s' : Session) (i : Nat) : Prop :=
  Stretch s.code.size x.code.size i ∨ Stretch y.code.size u.code.size i ∨ Stretch v.code.size s'.code.size i

/-- From before the loop a run gets to the condition. -/
theorem toCondition (h : Built p c s x y u v s') (hP : ∀ i, Between s x y u v s' i → P i) (m : Machine) :
    ∃ e, p.Along P s.code.size m x.code.size e ∧ m.Alike e :=
  h.enters.along (fun i hi hi' => hP i (.inl ⟨hi, hi'⟩)) m

/-- From behind the body, too. -/
theorem back (h : Built p c s x y u v s') (hP : ∀ i, Between s x y u v s' i → P i) (m : Machine) :
    ∃ e, p.Along P v.code.size m x.code.size e ∧ m.Alike e := by
  obtain ⟨n, hvn, hns, hslides, hcode⟩ := h.returns
  obtain ⟨m₁, hfirst, halike⟩ := hslides.along (P := P)
    (fun i hi hi' => hP i (.inr (.inr ⟨hi, Nat.lt_trans hi' hns⟩))) m
  obtain ⟨e, hlast, halike'⟩ := h.toCondition hP m₁
  exact ⟨e, hfirst.trans (.always (hP n (.inr (.inr ⟨hvn, hns⟩))) hcode hlast), halike.trans halike'⟩

/-- **The test** takes the two integers off, and leads to the body if the comparison holds of them, and else behind
the loop. -/
theorem test (h : Built p c s x y u v s') (hP : ∀ i, Between s x y u v s' i → P i) (hm : m.Compares stack a b) :
    (c.Relates a b → ∃ d, p.Along P y.code.size m u.code.size d ∧ d.frame.stack = stack) ∧
      (¬ c.Relates a b → ∃ m', p.Along P y.code.size m s'.code.size m' ∧ m'.frame.stack = stack) := by
  obtain ⟨n, q, hyn, hun, hslides, hcode, hq, hlast⟩ := h.tests
  have hin : ∀ i, y.code.size ≤ i → i < u.code.size → P i := fun i hi hi' => hP i (.inr (.inl ⟨hi, hi'⟩))
  obtain ⟨m₁, hfirst, halike⟩ := hslides.along (P := P) (fun i hi hi' => hin i hi (by omega)) m
  obtain ⟨j, k, w, w', rfl, rfl, hstack⟩ := hm
  have hholds := Host.holds_words c.negated j k w w' m₁.world
  have hjump : (Jump.compare c.negated q).follow.run m₁ = _ := Jump.run_compare (halike.stack.trans hstack) hholds
  rw [c.accepts_negated] at hjump
  constructor
  · intro hc
    rw [Comparison.accepts_compare.2 hc] at hjump
    refine ⟨m₁.withStack stack, hfirst.trans (.jump (hin n hyn (by omega)) hcode hjump ?_), rfl⟩
    rw [hun]
    exact .here _ _
  · intro hc
    rw [Bool.eq_false_iff.2 fun hr => hc (Comparison.accepts_compare.1 hr)] at hjump
    obtain ⟨m', hslide, halike'⟩ := hlast.along (P := P)
      (fun i hi hi' => hP i (.inr (.inr ⟨Nat.le_trans hq hi, hi'⟩))) (m₁.withStack stack)
    exact ⟨m', hfirst.trans (.jump (hin n hyn (by omega)) hcode hjump hslide), halike'.stack⟩

/-- **Rounds.** As long as the comparison holds, a run goes through the condition and the body by turns, and gets to
the condition again. -/
theorem rounds (h : Built p c s x y u v s') (hP : ∀ i, Between s x y u v s' i → P i)
    {place : Stage → Nat × Nat} (hplace : place = places x.code.size y.code.size u.code.size v.code.size)
    (hcondition : ∀ legs e, p.Travels P place s.code.size m legs x.code.size e →
      ∃ e' a b, p.Crosses x.code.size y.code.size e e' ∧ e'.Compares e.frame.stack a b)
    (hbody : ∀ legs d, p.Travels P place s.code.size m legs u.code.size d →
      ∃ d', p.Crosses u.code.size v.code.size d d' ∧ d'.frame.stack = d.frame.stack) (n : Nat)
    (hholds : ∀ legs e e', legs.length < 2 * n → p.Travels P place s.code.size m legs x.code.size e →
      p.Crosses x.code.size y.code.size e e' → e'.Satisfies c) :
    ∃ legs e, legs.map Leg.stage = (List.replicate n [Stage.condition, Stage.body]).flatten ∧
      (∀ leg ∈ legs, leg.stage = Stage.condition → leg.behind.Satisfies c) ∧
      (∀ leg ∈ legs, leg.stage = Stage.body → leg.before.frame.stack = m.frame.stack) ∧
      e.frame.stack = m.frame.stack ∧ p.Travels P place s.code.size m legs x.code.size e := by
  subst hplace
  induction n with
  | zero =>
    obtain ⟨e, halong, halike⟩ := h.toCondition hP m
    exact ⟨[], e, rfl, nofun, nofun, halike.stack, .out halong⟩
  | succ n ih =>
    obtain ⟨legs, e, hstages, hall, hentered, hstack, htravels⟩ := ih fun legs e e' hlegs =>
      hholds legs e e' (by omega)
    have hlength : legs.length = 2 * n := by
      have hsame := congrArg List.length hstages
      simpa [Nat.mul_comm] using hsame
    obtain ⟨e', a, b, hcross, hcompares⟩ := hcondition legs e htravels
    have hheld := hholds legs e e' (by omega) htravels hcross
    obtain ⟨d, hbetween, hd⟩ := (h.test hP hcompares).1 (hcompares.satisfies_iff.1 hheld)
    have hasked := (htravels.snoc (a := Stage.condition) hcross).along hbetween
    obtain ⟨d', hcross', hd'⟩ := hbody _ d hasked
    obtain ⟨e₁, hback, halike⟩ := h.back hP d'
    refine ⟨(legs ++ [⟨.condition, e, e'⟩]) ++ [⟨.body, d, d'⟩], e₁, ?_, ?_, ?_, ?_,
      (hasked.snoc (a := Stage.body) hcross').along hback⟩
    · rw [List.map_append, List.map_append, hstages, List.replicate_succ', List.flatten_append, List.append_assoc]
      rfl
    · simp only [List.forall_mem_append, List.forall_mem_singleton]
      exact ⟨⟨hall, fun _ => hheld⟩, nofun⟩
    · simp only [List.forall_mem_append, List.forall_mem_singleton]
      exact ⟨⟨hentered, nofun⟩, fun _ => hd.trans hstack⟩
    · rw [halike.stack, hd', hd, hstack]

end Built

end WhileLoop

/-- The parts of a while loop: its condition and its body. -/
def whileParts (condition : List Call) (c : Comparison) (body : List Call) : List Part :=
  [⟨.openWhile, condition, []⟩, ⟨.openWhileBody c, body, [.perform .closeWhile]⟩]

namespace Builder

open WhileLoop

/-- **While loops.** In every procedure that a client builds, at every level: a while loop goes through its
condition before each round, and through its body as long as the comparison holds of the two integers that the
condition leaves; so as long as it holds of the first `n` evaluations there are `n` rounds, and the condition is
gone through once more. If it does not hold then, the run gets to the code behind the loop, where the stack is as
it was. Condition and body may be anything that leaves the open constructs as they were. The condition falls
through to its end with two integers on the stack that it found, whenever it is entered; so does the body with the
stack as it was. -/
theorem while_repeats (number : Nat) (name : String) (signature : Signature) (sink : Sink) (level : TraceDetail)
    (cs cs' condition body : List Call) (c : Comparison) (b : Builder) (p : Procedure)
    (hb : (begin number name signature sink level).builder.after cs = b)
    (hissued : ∀ call ∈ cs ++ ((whileParts condition c body).flatMap Part.calls ++ cs'), ∀ l ∈ call.handed, l.Issued)
    (hbalanced : Balanced (b.bodies (whileParts condition c body)))
    (hp : (b.after ((whileParts condition c body).flatMap Part.calls ++ cs')).finish.result = .ok p) :
    let x := b.after [.perform .openWhile]
    let y := b.after (.perform .openWhile :: condition)
    let u := y.after [.perform (.openWhileBody c)]
    let v := y.after (.perform (.openWhileBody c) :: body)
    let b' := b.after ((whileParts condition c body).flatMap Part.calls)
    let outside := Outside b b' (b.bodies (whileParts condition c body))
    let place := places x.position y.position u.position v.position
    b'.outline = b.outline ∧ ∀ m : Machine,
      (∀ legs e, p.Travels outside place b.position m legs x.position e →
        ∃ e' i j, p.Crosses x.position y.position e e' ∧ e'.Compares e.frame.stack i j) →
      (∀ legs d, p.Travels outside place b.position m legs u.position d →
        ∃ d', p.Crosses u.position v.position d d' ∧ d'.frame.stack = d.frame.stack) →
      ∀ n, (∀ legs e e', legs.length < 2 * n → p.Travels outside place b.position m legs x.position e →
          p.Crosses x.position y.position e e' → e'.Satisfies c) →
        ∃ legs e e' i j, legs.map Leg.stage = (List.replicate n [Stage.condition, Stage.body]).flatten ∧
          (∀ leg ∈ legs, leg.stage = Stage.condition → leg.behind.Satisfies c) ∧
          (∀ leg ∈ legs, leg.stage = Stage.body → leg.before.frame.stack = m.frame.stack) ∧
          p.Travels outside place b.position m legs x.position e ∧ e.frame.stack = m.frame.stack ∧
          p.Crosses x.position y.position e e' ∧ e'.Compares m.frame.stack i j ∧
          (¬ c.Relates i j → ∃ m', p.Along outside y.position e' b'.position m' ∧
            m'.frame.stack = m.frame.stack) := by
  intro x y u v b' outside place
  obtain ⟨sink', s, s', f, rfl, hsound, htakes, hsf, hfits, hinside⟩ := takes_within hb hissued hp
  obtain ⟨places, hlaid, -⟩ := laid_of_takes hsound.inner hinside htakes
  have hbodies := (balanced_iff hlaid sink').1 hbalanced
  have hclear : ∀ i, outside i ↔ s.code.size ≤ i ∧ i < s'.code.size ∧ Clear places i := by
    intro i
    have hb' : b' = taking sink' level s' := htakes.taking sink'
    show Outside _ b' _ i ↔ _
    rw [hb', outside_iff hlaid sink']
  -- the sessions around the condition and the body
  cases hlaid with
  | @cons _ _ _ sx sy sz _ _ hfirst hrest =>
  cases hrest with
  | @cons _ _ _ su sv sw _ _ hsecond hnil =>
  cases hnil
  obtain ⟨hcondition, hbodies⟩ := List.forall_mem_cons.1 hbodies
  have hbody := List.forall_mem_singleton.1 hbodies
  obtain rfl : sz = sy := by
    cases hfirst.closes
    rfl
  have hx : x = taking sink' level sx := hfirst.opens.taking sink'
  have hy : y = taking sink' level sz := (hfirst.opens.trans hfirst.body).taking sink'
  have hu : u = taking sink' level su := by
    show y.after _ = _
    rw [hy]
    exact hsecond.opens.taking sink'
  have hv : v = taking sink' level sv := by
    show y.after _ = _
    rw [hy]
    exact (hsecond.opens.trans hsecond.body).taking sink'
  have hb' : b' = taking sink' level s' := htakes.taking sink'
  obtain ⟨hclosed, hbuilt⟩ := built_of_takes hfits hfirst.opens hcondition hsecond.opens hbody hsecond.closes
    hfirst.extends_closing hsecond.extends_body hsecond.extends_closing hsecond.extends_end hsf.extends
  have hP : ∀ i, Built.Between s sx sz su sv s' i → outside i := by
    have h₁ := hfirst.extends_body.size
    have h₂ := hfirst.extends_closing.size
    have h₃ := hsecond.extends_body.size
    have h₄ := hsecond.extends_closing.size
    have h₅ := hsecond.extends_end.size
    rintro i hi
    obtain ⟨hlow, hhigh, hout, hout'⟩ : s.code.size ≤ i ∧ i < s'.code.size ∧
        ¬ (sx.code.size ≤ i ∧ i < sz.code.size) ∧ ¬ (su.code.size ≤ i ∧ i < sv.code.size) := by
      rcases hi with hi | hi | hi <;> obtain ⟨hlow, hhigh⟩ := hi <;> omega
    exact (hclear i).2 ⟨hlow, hhigh, List.forall_mem_cons.2 ⟨hout, List.forall_mem_singleton.2 hout'⟩⟩
  have hxp : x.position = sx.code.size := by rw [hx]; rfl
  have hyp : y.position = sz.code.size := by rw [hy]; rfl
  have hup : u.position = su.code.size := by rw [hu]; rfl
  have hvp : v.position = sv.code.size := by rw [hv]; rfl
  have hbp : b'.position = s'.code.size := by rw [hb']; rfl
  refine ⟨by rw [hb']; exact hclosed, fun m hasked hfalls n hholds => ?_⟩
  have hplace : place = places sx.code.size sz.code.size su.code.size sv.code.size := by
    rw [← hxp, ← hyp, ← hup, ← hvp]
  rw [hxp, hyp] at hasked hholds
  rw [hup, hvp] at hfalls
  rw [hxp, hyp, hbp]
  obtain ⟨legs, e, hstages, hall, hentered, hstack, htravels⟩ := hbuilt.rounds hP hplace hasked hfalls n hholds
  obtain ⟨e', i, j, hcross, hcompares⟩ := hasked legs e htravels
  rw [hstack] at hcompares
  exact ⟨legs, e, e', i, j, hstages, hall, hentered, htravels, hstack, hcross, hcompares,
    (hbuilt.test hP hcompares).2⟩

/-- What the condition loads: a narrow index, and the greatest integer of its kind. -/
def belowGreatest : List Call :=
  [.perform (.load (.variable narrow)), .perform (.load (.constant (.scalar (.i32 127))))]

/-- The loop counts the index up as long as it is less. -/
def narrowWhile : List Part := whileParts belowGreatest .lessThan [.perform (.increment (.variable narrow))]

/-- The session behind the head. -/
def behindHead : Session := { declaredNarrow with
  constructs := [.whileLoop ⟨1, 1⟩]
  labels := ⟨1, #[⟨none, false⟩, ⟨some 0, false⟩]⟩ }

/-- The session behind the condition. -/
def behindCondition : Session := { behindHead with
  code := #[.op (.loadLocal 0), .op (.push (.ofInt32 127))] }

/-- The session behind the test. -/
def behindTest : Session := { behindCondition with
  constructs := [.whileLoop ⟨1, 1⟩, .conditional ⟨1, 3⟩ ⟨1, 2⟩]
  labels := ⟨1, #[⟨none, false⟩, ⟨some 0, false⟩, ⟨none, false⟩, ⟨none, true⟩]⟩
  code := behindCondition.code ++ #[.jump (.compare .greaterThanOrEqualTo ⟨1, 3⟩)] }

/-- The session behind the increment. -/
def behindIncrement : Session := { behindTest with
  code := behindTest.code ++ #[.op (.loadLocal 0), .op (.push (.ofInt32 1)), .op .add,
    .op (.storeLocal 0 (some (.word .i8)))] }

/-- The session behind the loop. -/
def behindWhile : Session := { behindIncrement with
  constructs := []
  labels := ⟨1, #[⟨none, false⟩, ⟨some 0, true⟩, ⟨some 8, false⟩, ⟨some 8, true⟩]⟩
  code := behindIncrement.code ++ #[.jump (.always ⟨1, 1⟩)] }

/-- The procedure of the loop. -/
def countedWhile : Procedure where
  name := "f"
  signature := ⟨[], none⟩
  locals := [.primitive (.word .i8)]
  code := #[.op (.loadLocal 0), .op (.push (.ofInt32 127)), .jump (.compare .greaterThanOrEqualTo 8),
    .op (.loadLocal 0), .op (.push (.ofInt32 1)), .op .add, .op (.storeLocal 0 (some (.word .i8))),
    .jump (.always 0), .ret]

theorem after_openWhile : (taking .log .off declaredNarrow).after [.perform .openWhile] =
    taking .log .off behindHead := rfl

theorem after_belowGreatest : (taking .log .off declaredNarrow).after (.perform .openWhile :: belowGreatest) =
    taking .log .off behindCondition := rfl

theorem after_openWhileBody : (taking .log .off behindCondition).after [.perform (.openWhileBody .lessThan)] =
    taking .log .off behindTest := rfl

theorem after_increment : (taking .log .off behindCondition).after
    [.perform (.openWhileBody .lessThan), .perform (.increment (.variable narrow))] =
      taking .log .off behindIncrement := rfl

theorem after_narrowWhile : (taking .log .off declaredNarrow).after (narrowWhile.flatMap Part.calls) =
    taking .log .off behindWhile := rfl

theorem finish_countedWhile :
    ((taking .log .off declaredNarrow).after (narrowWhile.flatMap Part.calls ++ [])).finish.result =
      .ok countedWhile := by
  rw [List.append_nil, after_narrowWhile]
  with_unfolding_all rfl

/-- A machine with the index. -/
def atIndex (z : Int) : Machine := ⟨⟨#[], #[.scalar (.wrap .i8 z)], []⟩, {}⟩

/-- A machine with the index behind the condition. -/
def asked (z : Int) : Machine := (atIndex z).withStack [.ofInt32 127, .scalar (.wrap .i8 z)]

theorem compares_asked {z : Int} (hz : WordKind.i8.Spans z) : (asked z).Compares [] z 127 :=
  ⟨.i8, .i32, _, _, Scalar.wordValue_lowBits hz, rfl, rfl⟩

theorem follow_asked {z : Int} (hz : WordKind.i8.Spans z) :
    (Jump.compare .greaterThanOrEqualTo 8).follow.run (asked z) =
      .ok (if z < 127 then none else some 8) (atIndex z) := by
  have hgreatest : WordKind.i32.Spans 127 := by decide
  have hholds := Host.holds_wrap .greaterThanOrEqualTo hz hgreatest (asked z).world
  have hstack : (asked z).frame.stack = .scalar (.wrap .i32 127) :: .scalar (.wrap .i8 z) :: [] := rfl
  have hrun : (Jump.compare .greaterThanOrEqualTo 8).follow.run (asked z) = _ := Jump.run_compare hstack hholds
  have hless := (Comparison.lessThan.accepts_negated (compare z 127)).trans
    (congrArg not (Comparison.accepts_lessThan z 127))
  rw [hrun, show Comparison.greaterThanOrEqualTo.accepts (compare z 127) = _ from hless]
  by_cases hlt : z < 127
  · rw [if_pos hlt, decide_eq_true hlt]
    rfl
  · rw [if_neg hlt, decide_eq_false hlt]
    rfl

theorem crosses_belowGreatest (z : Int) : countedWhile.Crosses 0 2 (atIndex z) (asked z) := by
  have hrow : countedWhile.HasAt 0 [.loadLocal 0, .push (.ofInt32 127)] := ⟨rfl, rfl, trivial⟩
  exact Procedure.within_all hrow (Nat.le_refl 0) (by decide) rfl

theorem eq_asked {z : Int} {m : Machine} (h : countedWhile.Crosses 0 2 (atIndex z) m) : m = asked z := by
  have hrow : countedWhile.HasAt 0 [.loadLocal 0, .push (.ofInt32 127)] := ⟨rfl, rfl, trivial⟩
  have hrun := Procedure.Crosses.run_all h hrow
  cases hrun
  rfl

/-- The increment. -/
theorem run_increment {z : Int} (hz : WordKind.i8.Spans z) :
    (Exec.all [.loadLocal 0, .push (.ofInt32 1), .add, .storeLocal 0 (some (.word .i8))]).run (atIndex z) =
      .ok () (atIndex (z + 1)) := by
  have hsum := Scalar.convert_add_one .i8 (Scalar.lowBits WordKind.i8.bits z)
  rw [Scalar.wordValue_lowBits (k := .i8) hz] at hsum
  have hrun : (Exec.all [.loadLocal 0, .push (.ofInt32 1), .add, .storeLocal 0 (some (.word .i8))]).run (atIndex z) =
      .ok () ⟨⟨#[], #[.scalar (((Scalar.wrap .i8 z).add (.i32 1)).convert (.word .i8))], []⟩, {}⟩ := rfl
  rw [hrun]
  exact congrArg (fun x => EStateM.Result.ok () (⟨⟨#[], #[.scalar x], []⟩, {}⟩ : Machine)) hsum

theorem crosses_increment {z : Int} (hz : WordKind.i8.Spans z) :
    countedWhile.Crosses 3 7 (atIndex z) (atIndex (z + 1)) := by
  have hrow : countedWhile.HasAt 3 [.loadLocal 0, .push (.ofInt32 1), .add, .storeLocal 0 (some (.word .i8))] :=
    ⟨rfl, rfl, rfl, rfl, trivial⟩
  exact Procedure.within_all hrow (Nat.le_refl 3) (by decide) (run_increment hz)

theorem eq_incremented {z : Int} {m : Machine} (hz : WordKind.i8.Spans z)
    (h : countedWhile.Crosses 3 7 (atIndex z) m) : m = atIndex (z + 1) := by
  have hrow : countedWhile.HasAt 3 [.loadLocal 0, .push (.ofInt32 1), .add, .storeLocal 0 (some (.word .i8))] :=
    ⟨rfl, rfl, rfl, rfl, trivial⟩
  cases (run_increment hz).symm.trans (Procedure.Crosses.run_all h hrow)
  rfl

/-- From 125 there are two more of the kind. -/
theorem spans_counted {k : Nat} (hk : k ≤ 2) : WordKind.i8.Spans (125 + k) := by
  have hleast : WordKind.i8.least = -128 := by decide
  have hgreatest : WordKind.i8.greatest = 127 := by decide
  rw [WordKind.Spans, hleast, hgreatest]
  omega

/-- How far the loop got from 125: behind how many legs it is, at which position, and with which machine. -/
inductive Counted : Nat → Nat → Machine → Prop
  /-- It is before the condition. -/
  | head {k : Nat} (hk : k ≤ 2) : Counted (2 * k) 0 (atIndex (125 + k))
  /-- It is behind the condition. -/
  | asked {k : Nat} (hk : k ≤ 2) : Counted (2 * k + 1) 2 (asked (125 + k))
  /-- It is before the body. -/
  | entered {k : Nat} (hk : k < 2) : Counted (2 * k + 1) 3 (atIndex (125 + k))
  /-- It is behind the body. -/
  | left {k : Nat} (hk : k ≤ 2) : Counted (2 * k) 7 (atIndex (125 + k))

variable {P : Nat → Prop} {n n' k : Nat} {m m' : Machine} {legs : List (Leg Stage)}

/-- Between the legs there are the test, which leads to the body as long as the index is less, and the jump back. -/
theorem Counted.along (h : Counted k n m) (hP : ∀ i, P i → i = 2 ∨ i = 7) (halong : countedWhile.Along P n m n' m')
    (hn' : n' = 0 ∨ n' = 3) : Counted k n' m' := by
  have hstay : ∀ i, i = 0 ∨ i = 3 ∨ i = 8 → ¬ P i := fun i hi h => by have := hP i h; omega
  cases h with
  | head hk =>
    obtain ⟨rfl, rfl⟩ := halong.stay (hstay 0 (by decide))
    exact .head hk
  | asked hk =>
    have hrest := halong.past_jump (by omega) rfl (follow_asked (spans_counted hk))
    split at hrest
    · rename_i hlt
      obtain ⟨rfl, rfl⟩ := hrest.stay (hstay 3 (by decide))
      exact .entered (by omega)
    · obtain ⟨rfl, rfl⟩ := hrest.stay (hstay 8 (by decide))
      exact absurd hn' (by decide)
  | entered hk =>
    obtain ⟨rfl, rfl⟩ := halong.stay (hstay 3 (by decide))
    exact .entered hk
  | left hk =>
    obtain ⟨rfl, rfl⟩ := (halong.past_jump (by omega) rfl rfl).stay (hstay 0 (by decide))
    exact .head hk

/-- One leg leads on. -/
theorem Counted.crosses {a : Stage} (h : Counted k (places 0 2 3 7 a).1 m)
    (hcross : countedWhile.Crosses (places 0 2 3 7 a).1 (places 0 2 3 7 a).2 m m') :
    Counted (k + 1) (places 0 2 3 7 a).2 m' := by
  cases a with
  | condition =>
    cases h with
    | head hk =>
      obtain rfl := eq_asked hcross
      exact .asked hk
  | body =>
    cases h with
    | @entered k hk =>
      obtain rfl := eq_incremented (spans_counted (Nat.le_of_lt hk)) hcross
      have hone : (125 + k + 1 : Int) = 125 + (k + 1 : Nat) := by omega
      rw [hone]
      exact .left hk

theorem Counted.travels (h : Counted k n m) (hP : ∀ i, P i → i = 2 ∨ i = 7)
    (htravels : countedWhile.Travels P (places 0 2 3 7) n m legs n' m') (hn' : n' = 0 ∨ n' = 3) :
    Counted (k + legs.length) n' m' := by
  induction htravels generalizing k with
  | out halong => exact h.along hP halong hn'
  | @leg a _ _ _ _ _ _ legs halong hcross _ ih =>
    have hfirst : (places 0 2 3 7 a).1 = 0 ∨ (places 0 2 3 7 a).1 = 3 := by cases a <;> decide
    have hrest := ih ((h.along hP halong hfirst).crosses hcross) hn'
    rwa [Nat.add_assoc, Nat.add_comm 1] at hrest

theorem bodies_narrowWhile : (taking .log .off declaredNarrow).bodies narrowWhile =
    [(taking .log .off behindHead, taking .log .off behindCondition),
      (taking .log .off behindTest, taking .log .off behindIncrement)] := rfl

/-- Outside of the condition and the body there are the test and the jump back. -/
theorem outside_narrowWhile {i : Nat} (h : Outside (taking .log .off declaredNarrow) (taking .log .off behindWhile)
    ((taking .log .off declaredNarrow).bodies narrowWhile) i) : i = 2 ∨ i = 7 := by
  obtain ⟨-, hlast, hbodies⟩ := h
  rw [bodies_narrowWhile] at hbodies
  obtain ⟨hcondition, hbodies⟩ := List.forall_mem_cons.1 hbodies
  have hbody := List.forall_mem_singleton.1 hbodies
  have hlast : i < 8 := hlast
  have hcondition : ¬ (0 ≤ i ∧ i < 2) := hcondition
  have hbody : ¬ (3 ≤ i ∧ i < 7) := hbody
  omega

/-- From 125 there are two rounds, and the third evaluation leads behind the loop. -/
theorem while_repeats_narrow : ∃ legs e e' m',
    legs.map Leg.stage = [Stage.condition, .body, .condition, .body] ∧ countedWhile.Travels
      (Outside (taking .log .off declaredNarrow) (taking .log .off behindWhile)
        ((taking .log .off declaredNarrow).bodies narrowWhile)) (places 0 2 3 7) 0 (atIndex 125) legs 0 e ∧
    countedWhile.Crosses 0 2 e e' ∧ countedWhile.Along
      (Outside (taking .log .off declaredNarrow) (taking .log .off behindWhile)
        ((taking .log .off declaredNarrow).bodies narrowWhile)) 2 e' 8 m' ∧ m'.frame.stack = [] := by
  have hissued : ∀ call ∈ [.perform (.newLocal (.primitive (.word .i8)) "i")] ++ (narrowWhile.flatMap Part.calls ++ []),
      ∀ l ∈ call.handed, l.Issued := by
    simp [narrowWhile, whileParts, belowGreatest, Part.calls, Call.handed, Operation.handed]
  have hbalanced : Balanced ((taking .log .off declaredNarrow).bodies narrowWhile) := by
    rw [bodies_narrowWhile]
    exact List.forall_mem_cons.2 ⟨rfl, List.forall_mem_singleton.2 rfl⟩
  obtain ⟨-, hrun⟩ := while_repeats 1 "f" ⟨[], none⟩ .log .off [.perform (.newLocal (.primitive (.word .i8)) "i")] []
    belowGreatest [.perform (.increment (.variable narrow))] .lessThan (taking .log .off declaredNarrow) countedWhile
    after_narrow hissued hbalanced finish_countedWhile
  have hb' : (taking .log .off declaredNarrow).after
      ((whileParts belowGreatest .lessThan [.perform (.increment (.variable narrow))]).flatMap Part.calls) =
        taking .log .off behindWhile := after_narrowWhile
  rw [after_openWhile, after_belowGreatest, after_openWhileBody, after_increment, hb'] at hrun
  have hstart : Counted 0 0 (atIndex 125) := .head (k := 0) (by decide)
  have hlast := hrun (atIndex 125) ?asks ?falls 2 ?holds
  case asks =>
    intro legs e h
    have hreached := hstart.travels (fun i => outside_narrowWhile) h (.inl rfl)
    generalize 0 + legs.length = k at hreached
    cases hreached with
    | head hk => exact ⟨_, _, _, crosses_belowGreatest _, compares_asked (spans_counted hk)⟩
  case falls =>
    intro legs d h
    have hreached := hstart.travels (fun i => outside_narrowWhile) h (.inr rfl)
    generalize 0 + legs.length = k at hreached
    cases hreached with
    | entered hk => exact ⟨_, crosses_increment (spans_counted (Nat.le_of_lt hk)), rfl⟩
  case holds =>
    intro legs e e' hlegs h hcross
    have hreached := hstart.travels (fun i => outside_narrowWhile) h (.inl rfl)
    generalize hk : 0 + legs.length = k at hreached
    cases hreached with
    | @head k hle =>
      obtain rfl := eq_asked hcross
      refine (compares_asked (spans_counted hle)).satisfies_iff.2 ?_
      show (125 + k : Int) < 127
      omega
  obtain ⟨legs, e, e', i, j, hstages, -, -, htravels, -, hcross, hcompares, hends⟩ := hlast
  have hreached := hstart.travels (fun i => outside_narrowWhile) htravels (.inl rfl)
  have hlength : legs.length = 4 := (List.length_map (f := Leg.stage)).symm.trans (congrArg List.length hstages)
  rw [hlength] at hreached
  generalize hk : 0 + 4 = k at hreached
  cases hreached with
  | @head k hle =>
    obtain rfl : k = 2 := by omega
    obtain rfl := eq_asked hcross
    have hnot : ¬ Comparison.lessThan.Relates i j := by
      rw [← hcompares.satisfies_iff, (compares_asked (spans_counted hle)).satisfies_iff]
      decide
    obtain ⟨m', halong, hstack⟩ := hends hnot
    exact ⟨legs, _, _, m', hstages, htravels, hcross, halong, hstack⟩

end Builder

end Stackwright
