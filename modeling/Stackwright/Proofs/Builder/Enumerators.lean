import Stackwright.Proofs.Builder.Conditions
import Stackwright.Proofs.Builder.Loops
import Stackwright.Proofs.Machine.Legs
import Stackwright.Proofs.Slots.InPlace

/-! # Loops over an enumerator

A loop over an enumerator is opened by a jump to the test, behind which the current item is fetched and stored
for the body. The test is recorded by the end of the loop: it moves on, and goes back to where the item is
fetched as long as there is one. So the two methods of the enumerator are called by turns.

* **`Enumeration.Walk`** — the enumerator moves on, its current item is fetched, and the body is run, again and
  again.
* **`Enumeration.Threads`** — each call is given what the one before it left.
* **`Builder.enumerator_alternates`** — a run through a loop over an enumerator is such a walk. -/

namespace Stackwright

/-- Once the body of a call on a local has returned, the local holds what the body left, if that is anything. -/
theorem Exec.getElem?_settle {m m' : Machine} {f : Method} {i : Nat} {state result : Value} {left : List Value}
    (h : (settle f (some (.variable i)) result left).run m = .ok () m') (hm : m.frame.locals[i]? = some state) :
    m'.frame.locals[i]? = some (left.headD state) := by
  -- the result is pushed behind the store
  have hpush : ∀ {m₁ : Machine}, (settle f none result []).run m₁ = .ok () m' →
      m'.frame.locals = m₁.frame.locals := by
    intro m₁ hrun
    have hsettled : (settle f none result []).run m₁ = _ := run_settle_read nofun
    cases hsettled.symm.trans hrun
    rfl
  cases left with
  | nil =>
    have hsame : m'.frame.locals = m.frame.locals := hpush h
    rw [hsame]
    exact hm
  | cons this rest =>
    obtain ⟨m₁, hstore, hchanged⟩ := exists_store_changed (l := .variable i)
      (m := m) (Array.getElem?_eq_some_iff.1 hm).1 this
    rw [settle, run_bind_ok hstore] at h
    have hsame : m'.frame.locals = m₁.frame.locals := hpush h
    rw [hsame]
    exact getElem?_of_slot hchanged.there

/-- A **loop over an enumerator**, apart from its body. -/
structure Enumeration where
  /-- The local that the items are stored into. -/
  slot : Local
  /-- The type of the items before they are converted. -/
  element : Ty
  /-- The local that holds the enumerator. -/
  enumerator : Local
  /-- Answers the current item. -/
  getCurrent : Method
  /-- Moves on, and answers whether there is a current item. -/
  moveNext : Method

namespace Enumeration

/-- What a run through a loop over an enumerator **goes through**. -/
inductive Stage
  /-- The call that moves on. -/
  | moves
  /-- The call that answers the current item. -/
  | fetches
  /-- The body. -/
  | body

/-- The calls are at `next` and at `current`, and the body is from `x` to `y`. -/
def places (next current x y : Nat) : Stage → Nat × Nat
  | .moves => (next, next + 1)
  | .fetches => (current, current + 1)
  | .body => (x, y)

/-- The calls that a loop with a body is emitted by. -/
def part (E : Enumeration) (body : List Call) : Part where
  opening := .openEach E.slot E.element E.enumerator E.getCurrent
  body := body
  closing := [.perform (.closeEach E.moveNext)]

/-! ## Rounds -/

/-- A method is **asked**: the enumerator is loaded for it, if it takes one, and it is called. -/
structure Asks (E : Enumeration) (k : Nat) (f : Method) (m a a' : Machine) : Prop where
  /-- The method has no parameters. -/
  params : f.params = []
  /-- The enumerator is loaded. -/
  loads : ∃ os, Operand.Received f (some (.variable E.enumerator)) os ∧ Op.Played k os m (.ok () a)
  /-- The method is called. -/
  calls : (Exec.call f).run a = .ok () a'

/-- The enumerator **moves on**, and its answer is taken from the stack. -/
def Moves (E : Enumeration) (k : Nat) (held : Bool) (m a a' d : Machine) : Prop :=
  E.Asks k E.moveNext m a a' ∧ ∃ v rest, a'.frame.stack = v :: rest ∧ v.condition? = some held ∧
    (a'.withStack rest).Interlude k d

/-- What is on top is converted and **stored** into the local for the items. -/
def Stores (E : Enumeration) (k : Nat) (m e : Machine) : Prop :=
  ∃ (conversion : Conversion) (d : Machine) (v : Value) (rest : List Value),
    Conversion.between E.element E.slot.type false = .ok conversion ∧ Op.Played k conversion.ops m (.ok () d) ∧
    d.frame.stack = v :: rest ∧
    ((d.withStack rest).withLocal E.slot.index (Value.fit E.slot.type.storedAs? v)).Interlude k e

/-- The current item is **fetched**, and stored for the body. -/
def Fetches (E : Enumeration) (k : Nat) (m c c' e : Machine) : Prop := E.Asks k E.getCurrent m c c' ∧ E.Stores k c' e

/-- A number of **rounds**: in each the enumerator moves on to an item, the item is fetched, and the body is run.
Between them nothing is done but aside. -/
inductive Walk (E : Enumeration) (k : Nat) (m : Machine) : Nat → List (Leg Stage) → Machine → Prop
  /-- No round. -/
  | start {e : Machine} (h : m.Interlude k e) : Walk E k m 0 [] e
  /-- One round more. -/
  | round {n : Nat} {legs : List (Leg Stage)} {e a a' d c c' b b' : Machine} (h : Walk E k m n legs e)
      (hmoves : E.Moves k true e a a' d) (hfetches : E.Fetches k d c c' b)
      (hbody : b'.frame.locals[E.enumerator.index]? = b.frame.locals[E.enumerator.index]?) :
      Walk E k m (n + 1) (legs ++ [⟨.moves, a, a'⟩, ⟨.fetches, c, c'⟩, ⟨.body, b, b'⟩]) b'

/-! ## The state of the enumerator -/

/-- A method **sees** a state: it is called where the enumerator is in that state, its body is run on it, and
leaves another one. -/
def Sees (E : Enumeration) (f : Method) (state : Value) (a : Machine) (state' : Value) : Prop :=
  a.frame.locals[E.enumerator.index]? = some state ∧
    ∃ result left w, (f.body [state]).run a.world = .ok (result, left) w ∧ state' = left.headD state

/-- Each call sees the state that the call before it **left**. -/
inductive Threads (E : Enumeration) : Value → List (Leg Stage) → Value → Prop
  /-- There are no calls. -/
  | nil (state : Value) : Threads E state [] state
  /-- The enumerator moves on. -/
  | moves {state state₁ state' : Value} {a a' : Machine} {legs : List (Leg Stage)}
      (h : E.Sees E.moveNext state a state₁) (hrest : Threads E state₁ legs state') :
      Threads E state (⟨.moves, a, a'⟩ :: legs) state'
  /-- The current item is fetched. -/
  | fetches {state state₁ state' : Value} {a a' : Machine} {legs : List (Leg Stage)}
      (h : E.Sees E.getCurrent state a state₁) (hrest : Threads E state₁ legs state') :
      Threads E state (⟨.fetches, a, a'⟩ :: legs) state'
  /-- The body does not matter. -/
  | body {state state' : Value} {b b' : Machine} {legs : List (Leg Stage)} (hrest : Threads E state legs state') :
      Threads E state (⟨.body, b, b'⟩ :: legs) state'

/-- The enumerator is **of a value type** that declares both methods. -/
structure InPlace (E : Enumeration) : Prop where
  /-- It is of a value type. -/
  value : E.enumerator.type.isValue
  /-- The type declares what moves on. -/
  moveNext : E.enumerator.type == E.moveNext.owner
  /-- It declares what fetches the current item. -/
  getCurrent : E.enumerator.type == E.getCurrent.owner
  /-- What moves on takes the enumerator. -/
  moves : E.moveNext.isStatic = false
  /-- So does what fetches the current item. -/
  fetches : E.getCurrent.isStatic = false

/-- Whatever state an enumerator of a value type is in, the calls hand it on, if the items are stored elsewhere. -/
def HandsOn (E : Enumeration) (m : Machine) (legs : List (Leg Stage)) : Prop :=
  E.InPlace → E.slot.index ≠ E.enumerator.index → ∀ state, m.frame.locals[E.enumerator.index]? = some state →
    ∃ state', E.Threads state legs state'

variable {E : Enumeration} {k n : Nat} {f : Method} {m a a' c c' d e : Machine} {legs legs' : List (Leg Stage)}
  {state state' state'' : Value} {held : Bool}

theorem Threads.trans (h : E.Threads state legs state') (h' : E.Threads state' legs' state'') :
    E.Threads state (legs ++ legs') state'' := by
  induction h with
  | nil => exact h'
  | moves h _ ih => exact .moves h (ih h')
  | fetches h _ ih => exact .fetches h (ih h')
  | body _ ih => exact .body (ih h')

/-- A call on an enumerator of a value type sees its state, and what it leaves is the next one. -/
theorem Asks.sees (h : E.Asks k f m a a') (hf : f.isStatic = false) (hvalue : E.enumerator.type.isValue)
    (howner : E.enumerator.type == f.owner) (hk : E.enumerator.index < k)
    (hm : m.frame.locals[E.enumerator.index]? = some state) :
    ∃ state', E.Sees f state a state' ∧ a'.frame.locals[E.enumerator.index]? = some state' := by
  obtain ⟨hparams, ⟨os, hreceived, hplayed⟩, hcall⟩ := h
  have hbelow : (Operand.variable E.enumerator).Below k := fun l hl => by
    rw [List.mem_singleton.1 hl]
    exact hk
  have hread : ∀ {m : Machine} {v : Value}, m.frame.locals[E.enumerator.index]? = some v →
      m.read (.variable E.enumerator.index) = .ok v := by
    intro m v hv
    rw [Machine.read, Machine.read.slot, hv]
  obtain ⟨haside, hstack⟩ : m.Aside k a ∧
      a.frame.stack = .address (.variable E.enumerator.index) :: m.frame.stack := by
    cases hreceived with
    | none hnone => simp [hf] at hnone
    | some _ hc =>
      have hsame : f.owner.isValue := by
        rw [Ty.isValue, ← (Ty.beq_iff.1 howner).1]
        exact hvalue
      exact hplayed.receive (.variable howner) hc hsame hbelow
  have ha : a.frame.locals[E.enumerator.index]? = some state := (haside.locals _ hk).trans hm
  have hsame : f.owner.isValue := by
    rw [Ty.isValue, ← (Ty.beq_iff.1 howner).1]
    exact hvalue
  have hstack : a.frame.stack = [].reverse ++ .address (.variable E.enumerator.index) :: m.frame.stack := hstack
  rw [Exec.run_call_place hf hsame (congrArg List.length hparams).symm hstack (hread ha)] at hcall
  cases hbody : (f.body [state]).run a.world with
  | error r w =>
    rw [hbody] at hcall
    cases hcall
  | ok answer w =>
    obtain ⟨result, left⟩ := answer
    rw [hbody] at hcall
    exact ⟨left.headD state, ⟨ha, result, left, w, hbody, rfl⟩, Exec.getElem?_settle hcall ha⟩

/-- Moving on hands the state on. -/
theorem Moves.sees (h : E.Moves k held m a a' d) (hE : E.InPlace) (hk : E.enumerator.index < k)
    (hm : m.frame.locals[E.enumerator.index]? = some state) :
    ∃ state', E.Sees E.moveNext state a state' ∧ d.frame.locals[E.enumerator.index]? = some state' := by
  obtain ⟨hasks, v, rest, -, -, hd⟩ := h
  obtain ⟨state', hsees, ha'⟩ := hasks.sees hE.moves hE.value hE.moveNext hk hm
  exact ⟨state', hsees, (hd.aside.locals _ hk).trans ha'⟩

/-- So does fetching the current item, which is stored elsewhere. -/
theorem Fetches.sees (h : E.Fetches k m c c' e) (hE : E.InPlace) (hne : E.slot.index ≠ E.enumerator.index)
    (hk : E.enumerator.index < k) (hm : m.frame.locals[E.enumerator.index]? = some state) :
    ∃ state', E.Sees E.getCurrent state c state' ∧ e.frame.locals[E.enumerator.index]? = some state' := by
  obtain ⟨hasks, conversion, d, v, rest, -, hplayed, -, he⟩ := h
  obtain ⟨state', hsees, hc'⟩ := hasks.sees hE.fetches hE.value hE.getCurrent hk hm
  have hd : d.frame.locals[E.enumerator.index]? = some state' :=
    (((conversion.chain_ops k).aside hplayed).locals _ hk).trans hc'
  refine ⟨state', hsees, (he.aside.locals _ hk).trans ?_⟩
  exact (Machine.getElem?_withLocal_ne hne).trans hd

/-- **Rounds hand the state on** from call to call. -/
theorem Walk.threads (h : E.Walk k m n legs e) (hE : E.InPlace) (hne : E.slot.index ≠ E.enumerator.index)
    (hk : E.enumerator.index < k) (hm : m.frame.locals[E.enumerator.index]? = some state) :
    ∃ state', E.Threads state legs state' ∧ e.frame.locals[E.enumerator.index]? = some state' := by
  induction h with
  | start h => exact ⟨state, .nil state, (h.aside.locals _ hk).trans hm⟩
  | round _ hmoves hfetches hbody ih =>
    obtain ⟨state₁, hthreads, he⟩ := ih
    obtain ⟨state₂, hmoved, hd⟩ := hmoves.sees hE hk he
    obtain ⟨state₃, hfetched, hb⟩ := hfetches.sees hE hne hk hd
    exact ⟨state₃, hthreads.trans (.moves hmoved (.fetches hfetched (.body (.nil state₃)))), hbody.trans hb⟩

theorem Walk.handsOn (h : E.Walk k m n legs e) (hk : E.enumerator.index < k) : E.HandsOn m legs := by
  intro hE hne state hm
  obtain ⟨state', hthreads, -⟩ := h.threads hE hne hk hm
  exact ⟨state', hthreads⟩

/-- So does moving on once more. -/
theorem Walk.handsOn_moves (h : E.Walk k m n legs e) (hmoves : E.Moves k held e a a' d)
    (hk : E.enumerator.index < k) : E.HandsOn m (legs ++ [⟨.moves, a, a'⟩]) := by
  intro hE hne state hm
  obtain ⟨state₁, hthreads, he⟩ := h.threads hE hne hk hm
  obtain ⟨state₂, hmoved, -⟩ := hmoves.sees hE hk he
  exact ⟨state₂, hthreads.trans (.moves hmoved (.nil state₂))⟩

/-- What happens aside before it does not matter to a walk. -/
theorem Walk.interlude {m₀ : Machine} (h : E.Walk k m n legs e) (hm : m₀.Interlude k m) : E.Walk k m₀ n legs e := by
  induction h with
  | start h => exact .start (hm.trans h)
  | round _ hmoves hfetches hbody ih => exact .round ih hmoves hfetches hbody

/-! ## What the calls record -/

open Builder (Takes)
open Procedure

variable {p : Procedure} {s s' x y fin : Session} {level : TraceDetail} {next current last n' : Nat}
  {rest : List Construct} {loop : LoopState}

/-- Where a method is **asked**: the enumerator is loaded from `n` on, and the call is at `n'`. -/
structure Asked (p : Procedure) (E : Enumeration) (k : Nat) (f : Method) (n n' : Nat) : Prop where
  /-- The method has no parameters. -/
  params : f.params = []
  /-- The call is behind. -/
  first : n ≤ n'
  /-- The call. -/
  code : p.code[n']? = some (.op (.call f))
  /-- The enumerator is loaded. -/
  loads : ∃ os, Operand.Received f (some (.variable E.enumerator)) os ∧ ∀ m,
    p.Attains (Stretch n n') False n m fun i a => i = n' ∧ Op.Played k os m (.ok () a)

/-- Reports before it do not matter. -/
theorem Asked.earlier {n₀ : Nat} (h : Asked p E k f n n') (hslides : p.Slides n₀ n) (hn : n₀ ≤ n) :
    Asked p E k f n₀ n' := by
  obtain ⟨os, hos, hloads⟩ := h.loads
  refine ⟨h.params, Nat.le_trans hn h.first, h.code, os, hos, fun m => ?_⟩
  obtain ⟨m₁, halong, halike⟩ := hslides.along (P := Stretch n₀ n')
    (fun i hi hi' => ⟨hi, Nat.lt_of_lt_of_le hi' h.first⟩) m
  refine halong.attains ((hloads m₁).imp (fun i hi => ⟨Nat.le_trans hn hi.1, hi.2⟩) id fun i a ha => ?_)
  exact ⟨ha.1, ha.2.before ⟨.of_alike k halike, halike.stack⟩⟩

/-- An accepted call asks the enumerator. -/
theorem asked_of_callWith (hp : p.Fits fin) (hs : s.Fit) (hk : k ≤ s.locals.size)
    (h : ((Emit.callWith (some (.variable E.enumerator)) f []).run (.ofLevel level)).run s = .ok () s') :
    s.Extends s' ∧ s'.constructs = s.constructs ∧ (s'.Extends fin → ∃ n, s'.code.size = n + 1 ∧
      Asked p E k f s.code.size n) := by
  have hspared := (Emit.sparing_callWith _ _ _).spares hs h
  obtain ⟨os, ⟨first, last, rfl, hfirst, hlast⟩, hext, hgoes⟩ :=
    Emit.goes_of_recordsThen (Emit.records_callWith _ _ _) hs h
  obtain ⟨rfl, hparams⟩ : last = [] ∧ f.params = [] := by
    generalize f.params = ts at hlast
    cases hlast
    exact ⟨rfl, rfl⟩
  refine ⟨hext, hspared.constructs, fun hf => ?_⟩
  obtain ⟨n, hfirst', hsize, hcode, hattains⟩ := hgoes hp hf
  rw [List.append_nil] at hattains
  refine ⟨n, hsize, hparams, hfirst', hcode, first, hfirst, fun m => ?_⟩
  exact (hattains m).imp (fun _ h => h) id fun i a ha => ⟨ha.1, ha.2.fewer hk⟩

/-- How a loop over an enumerator **begins**: with a jump to its test, and the code that fetches an item. -/
structure Begins (p : Procedure) (fin : Session) (E : Enumeration) (k current : Nat) (loop : LoopState)
    (s x : Session) : Prop where
  /-- The jump goes to the test, and behind it the current item is asked for, where the label of the body is marked. -/
  enters : ∃ n test, s.code.size ≤ n ∧ p.Slides s.code.size n ∧ fin.labels.MarkedAt loop.test test ∧
    p.code[n]? = some (.jump (.always test)) ∧ fin.labels.MarkedAt loop.body (n + 1) ∧
    Asked p E k E.getCurrent (n + 1) current
  /-- The body is behind. -/
  last : current < x.code.size
  /-- The item is stored for it. -/
  stores : ∀ m, p.Attains (Stretch (current + 1) x.code.size) False (current + 1) m fun i e =>
    i = x.code.size ∧ E.Stores k m e

theorem begins_of_openEach (hp : p.Fits fin) (hs : s.Fit) (hk : k ≤ s.locals.size) {body : List Call}
    (h : Takes level [.perform (E.part body).opening] s x) (hx : x.Extends fin) :
    ∃ (loop : LoopState) (current : Nat), loop.bound = .variable E.enumerator ∧
      x.outline = (Construct.enumerated loop).bare :: s.outline ∧ Begins p fin E k current loop s x := by
  obtain ⟨answer, x₁, hrun, rfl⟩ := h.one
  obtain ⟨handle, x₂, hrun, hdone⟩ := Emit.run_bind_eq_ok.1 hrun
  cases hdone
  obtain ⟨loop, s₁, hnew, hrun⟩ := Emit.run_bind_eq_ok.1 hrun
  have hfit₁ := (Emit.turns_newLoop _ _ _ _ _ _ hs hnew).fit
  obtain ⟨hbound, hnew⟩ : loop.bound = .variable E.enumerator ∧ s.Tells s₁ := by
    rw [Emit.run_newLoop] at hnew
    cases hnew
    exact ⟨rfl, (Emit.tells_numbered s).trans
      ((Emit.tells_newLabel (t := .silent) rfl).trans (Emit.tells_newLabel (t := .silent) rfl))⟩
  obtain ⟨u, s₂, hjump, hrun⟩ := Emit.run_bind_eq_ok.1 hrun
  have hfit₂ := (Emit.turns_jumpTo _ _ _ _ _ hfit₁ hjump).fit
  obtain ⟨u, s₃, hmark, hrun⟩ := Emit.run_bind_eq_ok.1 hrun
  have hfit₃ := (Emit.turns_markHere _ _ _ _ _ hfit₂ hmark).fit
  obtain ⟨u, s₄, hcall, hrun⟩ := Emit.run_bind_eq_ok.1 hrun
  have hspared₄ := (Emit.sparing_callWith _ _ _).spares hfit₃ hcall
  obtain ⟨u, s₅, hconvert, hrun⟩ := Emit.run_bind_eq_ok.1 hrun
  have hspared₅ := (Emit.sparing_convertTop _ _).spares hspared₄.fit hconvert
  obtain ⟨u, s₆, hstore, hrun⟩ := Emit.run_bind_eq_ok.1 hrun
  cases hrun
  obtain ⟨s₂, hline, -, rfl⟩ := Emit.tells_jump hjump
  obtain ⟨hbehind, hat⟩ := Emit.tells_markHere hmark
  have hk₃ : k ≤ s₃.locals.size := by
    rw [hbehind.locals]
    show k ≤ s₂.locals.size
    rw [hline.locals, hnew.locals]
    exact hk
  have hk₄ := Nat.le_trans hk₃ hspared₄.grows.locals_size
  rw [hbound] at hcall
  obtain ⟨hext₄, hsame₄, hasked⟩ := asked_of_callWith hp hfit₃ hk₃ hcall
  obtain ⟨os, ⟨conversion, hconversion, rfl⟩, hconverts⟩ :=
    Emit.goes_of_records (Emit.records_convert _ _ _) (Emit.sparing_convertTop _ _) hspared₄.fit hconvert
  have hstores := Emit.goes_storeLocal (k := k) (Nat.le_trans hk₄ hspared₅.grows.locals_size) hspared₅.fit.labels hstore
  have hlast := hconverts.trans hstores
  -- the sessions on the way lead to the last one
  have hf₆ : s₆.Extends fin := ((s₆.extends_withConstructs _).trans (Session.tells_delivered _).further).trans hx
  have hf₄ := hlast.further.trans hf₆
  have hf₃ := hext₄.trans hf₄
  have hjumped := hbehind.further.trans hf₃
  obtain ⟨test, htest, hcode⟩ := hp.always hjumped
  obtain ⟨current, hsize₄, hasks⟩ := hasked hf₄
  have hslides := hbehind.slides hp hf₃
  have hsize : (s₂.jumped (.always loop.test)).code.size = s₂.code.size + 1 := by simp
  have hsize₃ := hbehind.further.size
  have hfirst := (hnew.trans hline).further.size
  have hcurrent := hasks.first
  have hsize₆ := hlast.further.size
  rw [hsize] at hslides hat hsize₃
  have hsame : s₆.constructs = s.constructs := hlast.constructs.trans
    (hsame₄.trans (hbehind.constructs.trans (hline.constructs.trans hnew.constructs)))
  refine ⟨loop, current, hbound, ?_, ⟨s₂.code.size, test, hfirst, ?_, htest, hcode, hf₃.marks _ _ hat,
    hasks.earlier hslides hsize₃⟩, ?_, fun m => ?_⟩
  · show Construct.bare (.enumerated loop) :: s₆.constructs.map Construct.bare = _
    rw [hsame]
    rfl
  · exact (hnew.trans hline).slides hp ((s₂.extends_jumped _).trans hjumped)
  · show current < s₆.code.size
    omega
  · have hattains := hlast.attains hp hf₆ m
    rw [hsize₄] at hattains
    refine hattains.imp (fun _ h => h) False.elim ?_
    rintro i e ⟨hi, d, hplayed, v, rest, hstack, -, he⟩
    exact ⟨hi, conversion, d, v, rest, hconversion, hplayed.fewer hk₄, hstack, he⟩

/-- How it **ends**: with the test, which moves on, and a jump to the code that fetches an item. -/
structure Ends (p : Procedure) (fin : Session) (E : Enumeration) (k next : Nat) (loop : LoopState)
    (y s' : Session) : Prop where
  /-- The label of the test is marked behind the body. -/
  test : fin.labels.MarkedAt loop.test y.code.size
  /-- The enumerator is asked to move on. -/
  asks : Asked p E k E.moveNext y.code.size next
  /-- A jump on the answer goes back, or else the run gets behind the loop. -/
  decides : ∃ n q, next + 1 ≤ n ∧ n < s'.code.size ∧ p.Slides (next + 1) n ∧ fin.labels.MarkedAt loop.body q ∧
    p.code[n]? = some (.jump (.ifTrue q)) ∧ p.Slides (n + 1) s'.code.size

theorem ends_of_closeEach (hp : p.Fits fin) (hs : y.Fit) (hk : k ≤ y.locals.size)
    (hbound : loop.bound = .variable E.enumerator) {body : List Call}
    (hy : y.outline = (Construct.enumerated loop).bare :: rest)
    (h : Takes level (E.part body).closing y s') (hs' : s'.Extends fin) :
    s'.outline = rest ∧ ∃ next, Ends p fin E k next loop y s' := by
  obtain ⟨c, cs, hcs, hc, rfl⟩ := List.map_eq_cons_iff.1 hy
  obtain ⟨exit, rfl⟩ := Construct.bare_eq_enumerated hc
  obtain ⟨s₀, hrun, rfl⟩ := h.done rfl
  obtain ⟨found, s₁, htake, hrun⟩ := Emit.run_bind_eq_ok.1 hrun
  rw [Emit.run_takeEnumerated hcs] at htake
  cases htake
  obtain ⟨u, s₂, hmark, hrun⟩ := Emit.run_bind_eq_ok.1 hrun
  have hfit₂ := (Emit.turns_markHere _ _ _ _ _ (Session.onward_taken hs hcs).fit hmark).fit
  obtain ⟨hmarked, hat⟩ := Emit.tells_markHere hmark
  obtain ⟨u, s₃, hcall, hrun⟩ := Emit.run_bind_eq_ok.1 hrun
  obtain ⟨u, s₄, hjump, hexit⟩ := Emit.run_bind_eq_ok.1 hrun
  obtain ⟨s₄, hline, -, rfl⟩ := Emit.tells_jump hjump
  have hbehind := Emit.tells_markExit hexit
  have hk₂ : k ≤ s₂.locals.size := by
    rw [hmarked.locals]
    exact hk
  rw [show ({ loop with exit } : LoopState).bound = .variable E.enumerator from hbound] at hcall
  obtain ⟨hext₃, hsame₃, hasked⟩ := asked_of_callWith hp hfit₂ hk₂ hcall
  -- the sessions on the way lead to the last one
  have hf₀ : s₀.Extends fin := s₀.tells_delivered.further.trans hs'
  have hjumped : (s₄.jumped (.ifTrue loop.body)).Extends fin := hbehind.further.trans hf₀
  have hf₄ := (s₄.extends_jumped _).trans hjumped
  have hf₃ := hline.further.trans hf₄
  have hf₂ := hext₃.trans hf₃
  obtain ⟨next, hsize₃, hasks⟩ := hasked hf₃
  obtain ⟨q, hq, hcode⟩ : ∃ q, _ ∧ p.code[s₄.code.size]? = some (.jump (.ifTrue q)) := hp.goes rfl hjumped
  have hsize : (s₄.jumped (.ifTrue loop.body)).code.size = s₄.code.size + 1 := by simp
  have hslides := hbehind.slides hp hf₀
  have hle := hbehind.further.size
  have hle₄ := hline.further.size
  rw [hsize] at hslides hle
  rw [hsize₃] at hle₄
  have hslides₄ := hline.slides hp hf₄
  rw [hsize₃] at hslides₄
  have hsame : s₀.constructs = cs :=
    hbehind.constructs.trans (hline.constructs.trans (hsame₃.trans hmarked.constructs))
  refine ⟨congrArg (List.map Construct.bare) hsame, next, hf₂.marks _ _ hat, ?_, s₄.code.size, q, hle₄, hle, hslides₄,
    hq, hcode, hslides⟩
  exact hasks.earlier (hmarked.slides hp hf₂) hmarked.further.size

/-! ## Where a run through the loop gets -/

variable {P : Nat → Prop} {m₀ : Machine} {first : Nat}

/-- A run that gets to where a method is asked calls it, or stops. -/
theorem Asked.asks (h : Asked p E k f n n') (hbefore : p.Within first last first m₀ n e)
    (hP : ∀ i, Stretch n n' i → P i) (hin : ∀ i, P i → first ≤ i ∧ i < last) (hn : first ≤ n') (hn' : n' < last) :
    (∃ a a', p.Along P n e n' a ∧ p.Crosses n' (n' + 1) a a' ∧ E.Asks k f e a a') ∨
      ∃ r m', p.Stops first last m₀ r m' := by
  obtain ⟨os, hos, hloads⟩ := h.loads
  rcases ((hloads e).imp hP id fun _ _ h => h).orStops hbefore hin with ⟨_, a, halong, rfl, hplayed⟩ | hstop
  · rcases crosses_or_stops (hbefore.trans (halong.within hin)) hn hn' h.code with ⟨a', hrun, hcross⟩ | hstop
    · exact .inl ⟨a, a', halong, hcross, h.params, ⟨os, hos, hplayed⟩, hrun⟩
    · exact .inr hstop
  · exact .inr hstop

/-- A loop over an enumerator **between sessions**, around its body. -/
structure Built (p : Procedure) (E : Enumeration) (k entry next current : Nat) (s x y s' : Session) : Prop where
  /-- The loop is entered by a jump. -/
  first : s.code.size ≤ entry
  /-- Before it nothing is done but reported. -/
  slides : p.Slides s.code.size entry
  /-- It goes to the test, which is behind the body. -/
  enters : p.code[entry]? = some (.jump (.always y.code.size))
  /-- There the enumerator is asked to move on. -/
  moves : Asked p E k E.moveNext y.code.size next
  /-- Its answer leads back behind the first jump, or else behind the loop. -/
  decides : ∃ n, next + 1 ≤ n ∧ n < s'.code.size ∧ p.Slides (next + 1) n ∧
    p.code[n]? = some (.jump (.ifTrue (entry + 1))) ∧ p.Slides (n + 1) s'.code.size
  /-- There the current item is asked for. -/
  fetches : Asked p E k E.getCurrent (entry + 1) current
  /-- The body is behind the call. -/
  last : current < x.code.size
  /-- The item is stored for the body. -/
  stores : ∀ m, p.Attains (Stretch (current + 1) x.code.size) False (current + 1) m fun i e =>
    i = x.code.size ∧ E.Stores k m e
  /-- The test is behind the body. -/
  size : x.code.size ≤ y.code.size

/-- An accepted loop with a balanced body is built. -/
theorem built_of_takes (hp : p.Fits fin) (hs : s.Fit) (hk : k ≤ s.locals.size) {body : List Call}
    (hopens : Takes level [.perform (E.part body).opening] s x) (hbody : x.Grows y) (hy : y.Fit)
    (hbalanced : y.outline = x.outline) (hcloses : Takes level (E.part body).closing y s') (hsx : s.Grows x)
    (hys : y.Extends s') (hs' : s'.Extends fin) :
    s'.outline = s.outline ∧ ∃ entry next current, Built p E k entry next current s x y s' := by
  have hfin := hys.trans hs'
  obtain ⟨loop, current, hbound, hx, hbegins⟩ := begins_of_openEach hp hs hk hopens (hbody.extends.trans hfin)
  have hk' : k ≤ y.locals.size := Nat.le_trans hk (hsx.trans hbody).locals_size
  obtain ⟨hclosed, next, hends⟩ := ends_of_closeEach hp hy hk' hbound (hbalanced.trans hx) hcloses hs'
  obtain ⟨entry, test, hfirst, hslides, htest, hcode, hbodyAt, hasks⟩ := hbegins.enters
  cases htest.unique hends.test
  obtain ⟨i, q, hi, his, hslides', hq, hcode', hlast⟩ := hends.decides
  cases hq.unique hbodyAt
  exact ⟨hclosed, entry, next, current, hfirst, hslides, hcode, hends.asks, ⟨i, hi, his, hslides', hcode', hlast⟩,
    hasks, hbegins.last, hbegins.stores, hbody.extends.size⟩

namespace Built

variable {entry : Nat}

/-- The positions of a loop that are neither those of the calls nor in the body. -/
def Between (next current : Nat) (s x y s' : Session) (i : Nat) : Prop :=
  (Stretch s.code.size x.code.size i ∨ Stretch y.code.size s'.code.size i) ∧ i ≠ next ∧ i ≠ current

/-- The parts of a loop are one behind the other. -/
theorem order (h : Built p E k entry next current s x y s') : s.code.size ≤ entry ∧ entry < current ∧
    current < x.code.size ∧ x.code.size ≤ y.code.size ∧ y.code.size ≤ next ∧ next < s'.code.size := by
  obtain ⟨n, hn, hns, -⟩ := h.decides
  have hfetches := h.fetches.first
  exact ⟨h.first, hfetches, h.last, h.size, h.moves.first, by omega⟩

/-- From before the loop a run gets to the test. -/
theorem toTest (h : Built p E k entry next current s x y s') (hP : ∀ i, Between next current s x y s' i → P i)
    (m : Machine) : ∃ e, p.Along P s.code.size m y.code.size e ∧ m.Interlude k e := by
  have horder := h.order
  have hin : ∀ i, s.code.size ≤ i → i ≤ entry → P i := fun i hi hi' =>
    hP i ⟨.inl ⟨hi, by omega⟩, by omega, by omega⟩
  obtain ⟨e, halong, halike⟩ := h.slides.along (P := P) (fun i hi hi' => hin i hi (Nat.le_of_lt hi')) m
  exact ⟨e, halong.trans (.always (hin entry h.first (Nat.le_refl _)) h.enters (.here _ _)),
    .of_alike k halike, halike.stack⟩

/-- **The test**: behind the answer there is a jump on it. -/
theorem test (h : Built p E k entry next current s x y s') (hP : ∀ i, Between next current s x y s' i → P i)
    (m : Machine) : p.Attains P False (next + 1) m fun i d => ∃ v rest held, m.frame.stack = v :: rest ∧
      v.condition? = some held ∧ (m.withStack rest).Interlude k d ∧
      i = if held then entry + 1 else s'.code.size := by
  have horder := h.order
  obtain ⟨n, hn, hns, hslides, hcode, hlast⟩ := h.decides
  have hin : ∀ i, next < i → i < s'.code.size → P i := fun i hi hi' =>
    hP i ⟨.inr ⟨by omega, hi'⟩, by omega, by omega⟩
  obtain ⟨m₁, halong, halike⟩ := hslides.along (P := P) (fun i hi hi' => hin i hi (by omega)) m
  refine halong.attains (.jump (hin n hn hns) hcode (fun target m₂ hfollow => ?_) False.elim)
  obtain ⟨v, rest, held, hstack, hv, rfl, rfl⟩ :=
    Test.follow_condition (f := fun held => if held then some (entry + 1) else none) hfollow
  have hd : (m.withStack rest).Interlude k (m₁.withStack rest) := ⟨.of_alike k (halike.withStack rest), rfl⟩
  have hstack : m.frame.stack = v :: rest := halike.stack.symm.trans hstack
  cases held with
  | true => exact .here ⟨v, rest, true, hstack, hv, hd, rfl⟩
  | false =>
    obtain ⟨m₃, hbehind, halike'⟩ := hlast.along (P := P) (fun i hi hi' => hin i (by omega) hi') (m₁.withStack rest)
    exact hbehind.attains (.here ⟨v, rest, false, hstack, hv,
      hd.trans ⟨.of_alike k halike', halike'.stack⟩, rfl⟩)

/-- **One round**: from the test a run comes to the test again, with one round more, or it comes behind the loop, or
it stops. -/
theorem round (h : Built p E k entry next current s x y s') (hP : ∀ i, P i ↔ Between next current s x y s' i)
    {place : Stage → Nat × Nat} (hplace : place = places next current x.code.size y.code.size)
    (hbody : ∀ legs b, p.Travels P place s.code.size m legs x.code.size b →
      (∃ b', p.Crosses x.code.size y.code.size b b' ∧
        b'.frame.locals[E.enumerator.index]? = b.frame.locals[E.enumerator.index]?) ∨
        ∃ r b', p.Stops x.code.size y.code.size b r b')
    (hwalk : E.Walk k m n legs e) (htravels : p.Travels P place s.code.size m legs y.code.size e) :
    (∃ legs' e', E.Walk k m (n + 1) legs' e' ∧ p.Travels P place s.code.size m legs' y.code.size e') ∨
      (∃ a a' m', E.Moves k false e a a' m' ∧
        p.Travels P place s.code.size m (legs ++ [⟨.moves, a, a'⟩]) s'.code.size m') ∨
      ∃ r m', p.Stops s.code.size s'.code.size m r m' := by
  subst hplace
  obtain ⟨hentry, hcurrent, hx, hxy, hnext, hlast⟩ := h.order
  have hto : ∀ i, Between next current s x y s' i → P i := fun i => (hP i).2
  have hin : ∀ i, P i → s.code.size ≤ i ∧ i < s'.code.size := by
    intro i hi
    obtain ⟨hi | hi, -, -⟩ := (hP i).1 hi <;> obtain ⟨hlow, hhigh⟩ := hi <;> omega
  have hplace : ∀ a, s.code.size ≤ (places next current x.code.size y.code.size a).1 ∧
      (places next current x.code.size y.code.size a).2 ≤ s'.code.size := by
    intro a
    cases a <;> dsimp only [places] <;> omega
  -- the enumerator moves on
  rcases h.moves.asks (htravels.within hin hplace)
    (fun i hi => hto i ⟨.inr ⟨hi.1, by have := hi.2; omega⟩, by have := hi.2; omega, by have := hi.1; omega⟩) hin
    (by omega) hlast with ⟨a, a', halong, hcross, hasks⟩ | hstop
  swap
  · exact .inr (.inr hstop)
  have hmoved := (htravels.along halong).snoc (a := Stage.moves) hcross
  rcases (h.test hto a').orStops (hmoved.within hin hplace) hin with
    ⟨_, d, hbranch, v, rest, held, hstack, hv, hd, rfl⟩ | hstop
  swap
  · exact .inr (.inr hstop)
  have hmoves : E.Moves k held e a a' d := ⟨hasks, v, rest, hstack, hv, hd⟩
  cases held with
  | false => exact .inr (.inl ⟨a, a', d, hmoves, hmoved.along hbranch⟩)
  | true =>
    -- the current item is fetched
    have hback := hmoved.along hbranch
    rcases h.fetches.asks (hback.within hin hplace)
      (fun i hi => hto i ⟨.inl ⟨by have := hi.1; omega, by have := hi.2; omega⟩, by have := hi.2; omega,
        by have := hi.2; omega⟩) hin (by omega) (by omega) with ⟨c, c', halong', hcross', hasks'⟩ | hstop
    swap
    · exact .inr (.inr hstop)
    have hfetched := (hback.along halong').snoc (a := Stage.fetches) hcross'
    rcases ((h.stores c').imp (Q := P) (fun i hi => hto i ⟨.inl ⟨by have := hi.1; omega, hi.2⟩,
        by have := hi.2; omega, by have := hi.1; omega⟩) id fun _ _ h => h).orStops
      (hfetched.within hin hplace) hin with ⟨_, b, hstored, rfl, hstores⟩ | hstop
    swap
    · exact .inr (.inr hstop)
    -- the body is run
    have hentered := hfetched.along hstored
    rcases hbody _ b hentered with ⟨b', hcrossed, hsame⟩ | ⟨r, b', hstop⟩
    · refine .inl ⟨_, b', .round hwalk hmoves ⟨hasks', hstores⟩ hsame, ?_⟩
      have hround := hentered.snoc (a := Stage.body) hcrossed
      rw [List.append_assoc, List.append_assoc] at hround
      exact hround
    · exact .inr (.inr ⟨r, b', (hentered.within hin hplace).stops hstop (by omega) (by omega)⟩)

/-- **Rounds.** For any number of rounds, a run goes through them, or it gets behind the loop after fewer of them, or
it stops. -/
theorem rounds (h : Built p E k entry next current s x y s') (hP : ∀ i, P i ↔ Between next current s x y s' i)
    {place : Stage → Nat × Nat} (hplace : place = places next current x.code.size y.code.size)
    (hbody : ∀ legs b, p.Travels P place s.code.size m legs x.code.size b →
      (∃ b', p.Crosses x.code.size y.code.size b b' ∧
        b'.frame.locals[E.enumerator.index]? = b.frame.locals[E.enumerator.index]?) ∨
        ∃ r b', p.Stops x.code.size y.code.size b r b') (n : Nat) :
    (∃ legs e, E.Walk k m n legs e ∧ p.Travels P place s.code.size m legs y.code.size e) ∨
      (∃ i < n, ∃ legs e a a' m', E.Walk k m i legs e ∧ E.Moves k false e a a' m' ∧
        p.Travels P place s.code.size m (legs ++ [⟨.moves, a, a'⟩]) s'.code.size m') ∨
      ∃ r m', p.Stops s.code.size s'.code.size m r m' := by
  induction n with
  | zero =>
    obtain ⟨e, halong, he⟩ := h.toTest (fun i => (hP i).2) m
    exact .inl ⟨[], e, .start he, .out halong⟩
  | succ n ih =>
    rcases ih with ⟨legs, e, hwalk, htravels⟩ | ⟨i, hi, hends⟩ | hstop
    · rcases h.round hP hplace hbody hwalk htravels with hmore | ⟨a, a', m', hmoves, hends⟩ | hstop
      · exact .inl hmore
      · exact .inr (.inl ⟨n, Nat.lt_succ_self n, legs, e, a, a', m', hwalk, hmoves, hends⟩)
      · exact .inr (.inr hstop)
    · exact .inr (.inl ⟨i, Nat.lt_succ_of_lt hi, hends⟩)
    · exact .inr (.inr hstop)

end Built

end Enumeration

namespace Builder

open Enumeration

/-- **Loops over an enumerator.** In every procedure that a client builds, at every level: a run through the loop
comes to the call that moves on first, and whenever that answers that there is an item, to the call that answers the
current item, which is converted and stored, and then to the body, from where it comes to the call that moves on
again; once that answers that there is none, it gets to the code behind the loop. It comes to neither call anywhere
else. So for any number of rounds a run goes through them, or gets behind the loop after fewer of them, or it stops.
An enumerator of a value type is handed on from call to call, unless it is itself the local that the items are stored
into. The body may be anything that leaves the open constructs as they were, and that stops or falls through to its
end without another value in the local of the enumerator, whenever it is entered. -/
theorem enumerator_alternates (number : Nat) (name : String) (signature : Signature) (sink : Sink)
    (level : TraceDetail) (cs cs' body : List Call) (E : Enumeration) (b : Builder) (before : Session) (p : Procedure)
    (hb : (begin number name signature sink level).builder.after cs = b) (hbefore : b.state = .building before)
    (henumerator : before.Owns E.enumerator)
    (hissued : ∀ call ∈ cs ++ ([E.part body].flatMap Part.calls ++ cs'), ∀ l ∈ call.handed, l.Issued)
    (hbalanced : Balanced (b.bodies [E.part body]))
    (hp : (b.after ([E.part body].flatMap Part.calls ++ cs')).finish.result = .ok p) :
    let x := b.after [.perform (E.part body).opening]
    let y := b.after (.perform (E.part body).opening :: body)
    let b' := b.after ([E.part body].flatMap Part.calls)
    let outside := Outside b b' (b.bodies [E.part body])
    let k := before.locals.size
    b'.outline = b.outline ∧ ∃ next current, outside next ∧ outside current ∧
      p.code[next]? = some (.op (.call E.moveNext)) ∧ p.code[current]? = some (.op (.call E.getCurrent)) ∧
      let between := fun i => outside i ∧ i ≠ next ∧ i ≠ current
      let place := places next current x.position y.position
      ∀ m : Machine,
        (∀ legs e, p.Travels between place b.position m legs x.position e →
          (∃ e', p.Crosses x.position y.position e e' ∧
            e'.frame.locals[E.enumerator.index]? = e.frame.locals[E.enumerator.index]?) ∨
            ∃ r e', p.Stops x.position y.position e r e') →
        ∀ n,
          (∃ legs e, E.Walk k m n legs e ∧ E.HandsOn m legs ∧
            p.Travels between place b.position m legs y.position e) ∨
          (∃ i < n, ∃ legs e a a' m', E.Walk k m i legs e ∧ E.Moves k false e a a' m' ∧
            E.HandsOn m (legs ++ [⟨.moves, a, a'⟩]) ∧
            p.Travels between place b.position m (legs ++ [⟨.moves, a, a'⟩]) b'.position m') ∨
          ∃ r m', p.Stops b.position b'.position m r m' := by
  intro x y b' outside k
  obtain ⟨name, howned⟩ := henumerator
  have hindex : E.enumerator.index < k := (Array.getElem?_eq_some_iff.1 howned).1
  obtain ⟨sink', s, s', f, hbs, hsound, htakes, hsf, hfits, hinside⟩ := takes_within hb hissued hp
  obtain rfl : s = before := by
    rw [hbs] at hbefore
    exact BuilderState.building.inj hbefore
  have hfit : s.Fit := fit_of_after (hb ▸ hbefore)
  subst hbs
  obtain ⟨places', hlaid, -⟩ := laid_of_takes hsound.inner hinside htakes
  have hbodies := (balanced_iff hlaid sink').1 hbalanced
  have hclear : ∀ i, outside i ↔ s.code.size ≤ i ∧ i < s'.code.size ∧ Clear places' i := by
    intro i
    have hb' : b' = taking sink' level s' := htakes.taking sink'
    show Outside _ b' _ i ↔ _
    rw [hb', outside_iff hlaid sink']
  cases hlaid with
  | @cons _ _ _ sx sy _ _ _ hone hrest =>
  cases hrest
  have hbody := List.forall_mem_singleton.1 hbodies
  have hx : x = taking sink' level sx := hone.opens.taking sink'
  have hy : y = taking sink' level sy := (hone.opens.trans hone.body).taking sink'
  have hb' : b' = taking sink' level s' := htakes.taking sink'
  have hfit' : sy.Fit := (hone.opens.trans hone.body).fit hfit
  obtain ⟨hclosed, entry, next, current, hbuilt⟩ := built_of_takes hfits hfit (Nat.le_refl k) hone.opens
    hone.grows_closing hfit' hbody hone.closes hone.grows_body hone.extends_end hsf.extends
  obtain ⟨hentry, hcurrent, hsx, hxy, hnext, hlast⟩ := hbuilt.order
  have houtside : ∀ i, outside i ↔
      Procedure.Stretch s.code.size sx.code.size i ∨ Procedure.Stretch sy.code.size s'.code.size i := by
    intro i
    rw [hclear]
    constructor
    · rintro ⟨hlow, hhigh, hout⟩
      have hout : ¬ (sx.code.size ≤ i ∧ i < sy.code.size) := hout (sx, sy) (List.mem_singleton_self _)
      rcases Nat.lt_or_ge i sx.code.size with hi | hi
      · exact .inl ⟨hlow, hi⟩
      · exact .inr ⟨by omega, hhigh⟩
    · rintro (⟨hlow, hhigh⟩ | ⟨hlow, hhigh⟩)
      · refine ⟨hlow, by omega, List.forall_mem_singleton.2 ?_⟩
        show ¬ (sx.code.size ≤ i ∧ i < sy.code.size)
        omega
      · refine ⟨by omega, hhigh, List.forall_mem_singleton.2 ?_⟩
        show ¬ (sx.code.size ≤ i ∧ i < sy.code.size)
        omega
  have hxp : x.position = sx.code.size := by rw [hx]; rfl
  have hyp : y.position = sy.code.size := by rw [hy]; rfl
  have hbp : b'.position = s'.code.size := by rw [hb']; rfl
  refine ⟨by rw [hb']; exact hclosed, next, current, (houtside _).2 (.inr ⟨hnext, hlast⟩),
    (houtside _).2 (.inl ⟨by omega, hsx⟩), hbuilt.moves.code, hbuilt.fetches.code, ?_⟩
  intro between place m hfalls n
  have hP : ∀ i, between i ↔ Built.Between next current s sx sy s' i := fun i => and_congr_left' (houtside i)
  rw [hxp, hyp] at hfalls
  rw [hyp, hbp]
  have hplace : place = places next current sx.code.size sy.code.size := by rw [← hxp, ← hyp]
  rcases hbuilt.rounds hP hplace hfalls n with ⟨legs, e, hwalk, htravels⟩ |
    ⟨i, hi, legs, e, a, a', m', hwalk, hmoves, htravels⟩ | hstop
  · exact .inl ⟨legs, e, hwalk, hwalk.handsOn hindex, htravels⟩
  · exact .inr (.inl ⟨i, hi, legs, e, a, a', m', hwalk, hmoves, hwalk.handsOn_moves hmoves hindex, htravels⟩)
  · exact .inr (.inr hstop)

/-- Counts an integer up, and answers whether it was less than two. -/
def countUp : Method where
  owner := .primitive (.word .i32)
  name := "next"
  params := []
  ret := some (.primitive .bool)
  isStatic := false
  body args :=
    let count := (args.head?.bind Value.index?).getD 0
    return (.ofBool (count < 2), [.ofInt32 (count + 1)])

/-- Answers seven, whatever the integer. -/
def seven : Method where
  owner := .primitive (.word .i32)
  name := "current"
  params := []
  ret := some (.primitive (.word .i32))
  isStatic := false
  body args := return (.ofInt32 7, args)

/-- A loop over an enumerator that counts, which is the first local; the items are stored into one of the locals. -/
def counting (i : Nat) : Enumeration where
  slot := ⟨i, .primitive (.word .i32)⟩
  element := .primitive (.word .i32)
  enumerator := ⟨0, .primitive (.word .i32)⟩
  getCurrent := seven
  moveNext := countUp

/-- A body that does nothing. -/
def idle : List Call := [.perform .loadNull, .perform .pop]

/-- The calls that declare the locals. -/
def declareCount : List Call :=
  [.perform (.newLocal (.primitive (.word .i32)) "count"), .perform (.newLocal (.primitive (.word .i32)) "item")]

/-- The session before the loop. -/
def declaredCount : Session where
  name := "f"
  signature := ⟨[], none⟩
  sink := .log
  locals := #[(.primitive (.word .i32), "count"), (.primitive (.word .i32), "item")]
  labels := ⟨1, #[⟨none, false⟩]⟩
  finish := ⟨1, 0⟩

/-- The session in the loop. -/
def inCount (i : Nat) : Session := { declaredCount with
  constructs := [.enumerated ⟨⟨1, 0⟩, some (counting i).slot, ⟨1, 1⟩, ⟨1, 2⟩, none, .variable (counting i).enumerator⟩]
  labels := ⟨1, #[⟨none, false⟩, ⟨some 1, false⟩, ⟨none, true⟩]⟩
  code := #[.jump (.always ⟨1, 2⟩), .op (.addressLocal 0), .op (.call seven), .op (.storeLocal i (some (.word .i32)))]
  nextLoop := 1 }

/-- The session behind the body. -/
def behindIdle (i : Nat) : Session := { inCount i with code := (inCount i).code ++ #[.op (.push .null), .op .pop] }

/-- The session behind the loop. -/
def behindCount (i : Nat) : Session := { behindIdle i with
  constructs := []
  labels := ⟨1, #[⟨none, false⟩, ⟨some 1, true⟩, ⟨some 6, true⟩]⟩
  code := (behindIdle i).code ++ #[.op (.addressLocal 0), .op (.call countUp), .jump (.ifTrue ⟨1, 1⟩)] }

/-- The procedure of the loop. -/
def counted (i : Nat) : Procedure where
  name := "f"
  signature := ⟨[], none⟩
  locals := [.primitive (.word .i32), .primitive (.word .i32)]
  code := #[.jump (.always 6), .op (.addressLocal 0), .op (.call seven), .op (.storeLocal i (some (.word .i32))),
    .op (.push .null), .op .pop, .op (.addressLocal 0), .op (.call countUp), .jump (.ifTrue 1), .ret]

variable {i : Nat}

theorem after_declareCount : plain.after declareCount = taking .log .off declaredCount := rfl

theorem after_openCount (hi : i < 2) :
    (taking .log .off declaredCount).after [.perform ((counting i).part idle).opening] =
      taking .log .off (inCount i) :=
  match i, hi with
  | 0, _ => rfl
  | 1, _ => rfl

theorem after_idleCount : (taking .log .off (inCount i)).after idle = taking .log .off (behindIdle i) := rfl

theorem after_closeCount : (taking .log .off (behindIdle i)).after ((counting i).part idle).closing =
    taking .log .off (behindCount i) := rfl

theorem after_countBody (hi : i < 2) : (taking .log .off declaredCount).after
    (.perform ((counting i).part idle).opening :: idle) = taking .log .off (behindIdle i) := by
  show (taking .log .off declaredCount).after ([.perform ((counting i).part idle).opening] ++ idle) = _
  rw [after_append, after_openCount hi]
  exact after_idleCount

theorem after_count (hi : i < 2) : (taking .log .off declaredCount).after
    ([(counting i).part idle].flatMap Part.calls) = taking .log .off (behindCount i) := by
  show (taking .log .off declaredCount).after
    ((.perform ((counting i).part idle).opening :: idle) ++ ((counting i).part idle).closing) = _
  rw [after_append, after_countBody hi]
  exact after_closeCount

theorem finish_counted (hi : i < 2) : ((taking .log .off declaredCount).after
    ([(counting i).part idle].flatMap Part.calls ++ [])).finish.result = .ok (counted i) := by
  rw [List.append_nil, after_count hi]
  with_unfolding_all rfl

/-- A machine before the loop. -/
def beforeCount : Machine := ⟨⟨#[], #[.ofInt32 0, .ofInt32 0], []⟩, {}⟩

theorem inPlace_counting (i : Nat) : (counting i).InPlace := ⟨rfl, rfl, rfl, rfl, rfl⟩

/-- The loop is not stopped in: the procedure returns. -/
theorem runFrom_counted : ∃ m', (counted 1).runFrom 40 0 beforeCount = .ok .null m' := ⟨_, by with_unfolding_all rfl⟩

/-- Up to two rounds are gone through, and the calls hand the count on. -/
theorem enumerator_alternates_counting : ∃ next current,
    let between := fun i => Outside (taking .log .off declaredCount) (taking .log .off (behindCount 1))
      ((taking .log .off declaredCount).bodies [(counting 1).part idle]) i ∧ i ≠ next ∧ i ≠ current
    (counted 1).code[next]? = some (.op (.call countUp)) ∧ (counted 1).code[current]? = some (.op (.call seven)) ∧
    ((∃ legs e state, (counting 1).Walk 2 beforeCount 2 legs e ∧ (counting 1).Threads (.ofInt32 0) legs state ∧
      (counted 1).Travels between (places next current 4 6) 0 beforeCount legs 6 e) ∨
    ∃ n < 2, ∃ legs e a a' m' state, (counting 1).Walk 2 beforeCount n legs e ∧
      (counting 1).Moves 2 false e a a' m' ∧ (counting 1).Threads (.ofInt32 0) (legs ++ [⟨.moves, a, a'⟩]) state ∧
      (counted 1).Travels between (places next current 4 6) 0 beforeCount (legs ++ [⟨.moves, a, a'⟩]) 9 m') := by
  have hissued : ∀ call ∈ declareCount ++ ([(counting 1).part idle].flatMap Part.calls ++ []),
      ∀ l ∈ call.handed, l.Issued := by
    simp [declareCount, idle, part, Part.calls, Call.handed, Operation.handed]
  have hbalanced : Balanced ((taking .log .off declaredCount).bodies [(counting 1).part idle]) := by
    refine List.forall_mem_singleton.2 ?_
    show (Builder.after _ (.perform ((counting 1).part idle).opening :: idle)).outline =
      (Builder.after _ [.perform ((counting 1).part idle).opening]).outline
    rw [after_countBody (by decide), after_openCount (by decide)]
    rfl
  obtain ⟨-, next, current, -, -, hnext, hcurrent, hrun⟩ := enumerator_alternates 1 "f" ⟨[], none⟩ .log .off
    declareCount [] idle (counting 1) (taking .log .off declaredCount) declaredCount (counted 1) after_declareCount rfl
    ⟨"count", rfl⟩ hissued hbalanced (finish_counted (by decide))
  rw [after_openCount (by decide), after_countBody (by decide), after_count (by decide)] at hrun
  -- the body does nothing, whatever the machine
  have hidle : ∀ e, (counted 1).Crosses 4 6 e e := by
    rintro ⟨⟨args, locals, stack⟩, world⟩
    have hrow : (counted 1).HasAt 4 [.push .null, .pop] := ⟨rfl, rfl, trivial⟩
    exact Procedure.within_all hrow (Nat.le_refl 4) (by decide) rfl
  have hhands : ∀ {legs}, (counting 1).HandsOn beforeCount legs →
      ∃ state, (counting 1).Threads (.ofInt32 0) legs state :=
    fun h => h (inPlace_counting 1) (by decide) _ rfl
  refine ⟨next, current, hnext, hcurrent, ?_⟩
  rcases hrun beforeCount (fun _ e _ => .inl ⟨e, hidle e, rfl⟩) 2 with ⟨legs, e, hwalk, hstates, htravels⟩ |
    ⟨n, hn, legs, e, a, a', m', hwalk, hmoves, hstates, htravels⟩ | ⟨r, m', hstop⟩
  · obtain ⟨state, hthreads⟩ := hhands hstates
    exact .inl ⟨legs, e, state, hwalk, hthreads, htravels⟩
  · obtain ⟨state, hthreads⟩ := hhands hstates
    exact .inr ⟨n, hn, legs, e, a, a', m', state, hwalk, hmoves, hthreads, htravels⟩
  · obtain ⟨steps, herror⟩ := Procedure.Stops.runFrom hstop
    obtain ⟨m₁, hreturns⟩ := runFrom_counted
    cases (Procedure.runFrom_fuel hreturns steps).symm.trans (herror 40)

/-- A machine with a count, where the items are stored over it. -/
def atCount (z : Int) (stack : List Value) : Machine := ⟨⟨#[], #[.ofInt32 z, .ofInt32 0], stack⟩, {}⟩

/-- The address of the count. -/
def countAddress : Value := .address (.variable 0)

/-- Where the count is asked. -/
theorem asks_counting {f : Method} {z : Int} {a' : Machine} (hf : f = countUp ∨ f = seven)
    (h : (Exec.call f).run (atCount z [countAddress]) = .ok () a') :
    (counting 0).Asks 2 f (atCount z []) (atCount z [countAddress]) a' := by
  have hplayed : Op.Played 2 [.addressLocal 0] (atCount z []) (.ok () (atCount z [countAddress])) :=
    .op (.refl 2 _) rfl (.done (.refl 2 _))
  rcases hf with rfl | rfl
  · exact ⟨rfl, ⟨_, .some rfl (Conversion.between_of_beq rfl), hplayed⟩, h⟩
  · exact ⟨rfl, ⟨_, .some rfl (Conversion.between_of_beq rfl), hplayed⟩, h⟩

theorem run_countUp_zero : (Exec.call countUp).run (atCount 0 [countAddress]) = .ok () (atCount 1 [.ofBool true]) := by
  with_unfolding_all rfl

theorem run_seven_one : (Exec.call seven).run (atCount 1 [countAddress]) = .ok () (atCount 1 [.ofInt32 7]) := by
  with_unfolding_all rfl

theorem run_countUp_seven :
    (Exec.call countUp).run (atCount 7 [countAddress]) = .ok () (atCount 8 [.ofBool false]) := by
  with_unfolding_all rfl

/-- A call of the loop. -/
theorem crosses_counted {f : Method} {n : Nat} {m m' : Machine} (hcode : (counted 0).code[n]? = some (.op (.call f)))
    (h : (Exec.call f).run m = .ok () m') : (counted 0).Crosses n (n + 1) m m' := by
  have hat : (counted 0).HasAt n [.call f] := ⟨hcode, trivial⟩
  refine Procedure.within_all hat (Nat.le_refl n) (Nat.le_refl _) ?_
  rw [Exec.all_singleton]
  exact h

/-- The legs of the loop whose items are stored over the count. -/
def overwrittenLegs : List (Leg Stage) :=
  [⟨.moves, atCount 0 [countAddress], atCount 1 [.ofBool true]⟩,
    ⟨.fetches, atCount 1 [countAddress], atCount 1 [.ofInt32 7]⟩, ⟨.body, atCount 7 [], atCount 7 []⟩]

theorem walk_overwritten : (counting 0).Walk 2 beforeCount 1 overwrittenLegs (atCount 7 []) := by
  refine .round (d := atCount 1 []) (.start (.refl 2 _))
    ⟨asks_counting (.inl rfl) run_countUp_zero, _, _, rfl, rfl, .refl 2 _⟩
    ⟨asks_counting (.inr rfl) run_seven_one, .identity, _, _, _, Conversion.between_of_beq rfl, .done (.refl 2 _),
      rfl, ?_⟩ rfl
  exact .refl 2 _

/-- Where the items are **stored over the enumerator**, a run moves on from an item, and not from the state that the
calls left: the loop is left after one round, and not after two. -/
theorem enumerator_overwritten :
    ((taking .log .off declaredCount).after ([(counting 0).part idle].flatMap Part.calls ++ [])).finish.result =
      .ok (counted 0) ∧ (counting 0).InPlace ∧
    (counting 0).Walk 2 beforeCount 1 overwrittenLegs (atCount 7 []) ∧
    (counting 0).Moves 2 false (atCount 7 []) (atCount 7 [countAddress]) (atCount 8 [.ofBool false]) (atCount 8 []) ∧
    (counted 0).Travels (fun i => i < 9 ∧ i ≠ 7 ∧ i ≠ 2 ∧ i ≠ 4 ∧ i ≠ 5) (places 7 2 4 6) 0 beforeCount
      (overwrittenLegs ++ [⟨.moves, atCount 7 [countAddress], atCount 8 [.ofBool false]⟩]) 9 (atCount 8 []) ∧
    ∀ state, ¬ (counting 0).Threads (.ofInt32 0)
      (overwrittenLegs ++ [⟨.moves, atCount 7 [countAddress], atCount 8 [.ofBool false]⟩]) state := by
  refine ⟨finish_counted (by decide), inPlace_counting 0, walk_overwritten,
    ⟨asks_counting (.inl rfl) run_countUp_seven, _, _, rfl, rfl, .refl 2 _⟩, ?_, fun state h => ?_⟩
  · have hat : (counted 0).HasAt 4 [.push .null, .pop] := ⟨rfl, rfl, trivial⟩
    have hidle : (counted 0).Crosses 4 6 (atCount 7 []) (atCount 7 []) :=
      Procedure.within_all hat (Nat.le_refl 4) (by decide) rfl
    refine .leg (.always (by decide) rfl (.next (by decide) rfl rfl (.here 7 _)))
      (crosses_counted rfl run_countUp_zero) ?_
    refine .leg (.goto (by decide) rfl rfl (.next (by decide) rfl rfl (.here 2 _)))
      (crosses_counted rfl run_seven_one) ?_
    refine .leg (.next (by decide) rfl rfl (.here 4 _)) hidle ?_
    refine .leg (.next (by decide) rfl rfl (.here 7 _)) (crosses_counted rfl run_countUp_seven) ?_
    exact .out (.next (by decide) rfl rfl (.here 9 _))
  · -- the calls leave one, but the next one is given seven
    have hcount : (countUp.body [.ofInt32 0]).run {} = .ok (.ofBool true, [.ofInt32 1]) {} := by with_unfolding_all rfl
    rcases h with - | ⟨⟨-, result, left, w, hbody, rfl⟩, hrest⟩
    cases hcount.symm.trans hbody
    rcases hrest with - | - | ⟨⟨-, result, left, w, hbody, rfl⟩, hrest⟩
    cases hbody
    rcases hrest with - | - | - | hrest
    rcases hrest with - | ⟨⟨hgiven, -⟩, -⟩
    cases hgiven

end Builder

end Stackwright
