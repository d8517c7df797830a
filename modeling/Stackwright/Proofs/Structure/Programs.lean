import Stackwright.Proofs.Builder.History
import Stackwright.Proofs.Structure.Balance

/-! # Structured programs

A **structured program** of a client: straight-line calls, breaks out of loops, and constructs with
programs in them. It names a loop by how far out it is, and a case of a switch by its position, and hands
in what its own calls answered. Playing it makes its calls one after the other, until one is refused.

* **`Program`** — the syntax, by what may stand where.
* **`Program.play`** — the client that makes the calls of a program.
* **`Program.WellFormed`** — breaks stay inside, a switch is given each case once, and what is loaded,
  converted or called is accepted.
* **`Client.Ensures`** — no call of a client is refused. -/

namespace Stackwright

/-! ## Syntax -/

/-- Where a part of a program stands. -/
inductive Place
  /-- Anywhere. -/
  | block
  /-- Directly in a conditional that may go on to another alternative. -/
  | alternatives
  /-- Directly in a conditional in its last alternative. -/
  | last
  /-- Directly in a switch. -/
  | sections

/-- How a conditional is opened. -/
inductive Opener
  | ifTrue
  | ifFalse
  | compared (comparison : Comparison)
  | operands (left : Operand) (comparison : Comparison) (right : Operand)
  | notZero (operand : Operand)
  | notEmpty (slot : Local)

/-- The call that opens a conditional. -/
def Opener.operation : Opener → Operation
  | .ifTrue => .openIfTrue
  | .ifFalse => .openIfFalse
  | .compared c => .openIf c
  | .operands a c b => .openIfCompared a c b
  | .notZero o => .openIfNotZero o
  | .notEmpty l => .openIfNotEmpty l

/-- What the opening of a conditional loads and converts. -/
def Opener.loads : Opener → List (Emit Unit)
  | .operands a _ b => [Emit.load a, Emit.load b]
  | .notZero o =>
    if o.type.isStruct then [Emit.load o, Emit.convertTop o.type .object] else [Emit.load o]
  | .ifTrue | .ifFalse | .compared _ | .notEmpty _ => []

/-- How a loop is left. -/
inductive Exit
  | always
  | ifTrue
  | ifFalse

/-- The call that leaves a loop. -/
def Exit.operation : Exit → LoopHandle → Operation
  | .always => .leave
  | .ifTrue => .leaveIfTrue
  | .ifFalse => .leaveIfFalse

/-- A **structured program**, or the rest of one from some place on. -/
inductive Program : Place → Type
  /-- No more calls. -/
  | done {p : Place} : Program p
  /-- A straight-line call. -/
  | call {p : Place} (o : Operation) (rest : Program p) : Program p
  /-- A break out of the loop that is some number of loops further out. -/
  | leave {p : Place} (how : Exit) (out : Nat) (rest : Program p) : Program p
  /-- A conditional with its alternatives. -/
  | conditional {p : Place} (opener : Opener) (inner : Program .alternatives) (rest : Program p) : Program p
  /-- A counted loop. -/
  | counted {p : Place} (index : Option Local) (start bound : Operand) (inner : Program .block)
      (rest : Program p) : Program p
  /-- A loop over an enumerator. -/
  | enumerated {p : Place} (slot : Local) (element : Ty) (enumerator : Local) (getCurrent moveNext : Method)
      (inner : Program .block) (rest : Program p) : Program p
  /-- A while loop with its condition and its body. -/
  | whileLoop {p : Place} (test : Program .block) (comparison : Comparison) (inner : Program .block)
      (rest : Program p) : Program p
  /-- A switch with its sections. -/
  | switch {p : Place} (cases : Nat) (inner : Program .sections) (rest : Program p) : Program p
  /-- The next alternative of a conditional, on a comparison. -/
  | elseIf (left : Operand) (comparison : Comparison) (right : Operand) (rest : Program .alternatives) :
      Program .alternatives
  /-- The next alternative, on an empty string. -/
  | elseIfEmpty (slot : Local) (rest : Program .alternatives) : Program .alternatives
  /-- The last alternative. -/
  | otherwise (rest : Program .last) : Program .alternatives
  /-- The section of a case of a switch, by its position. -/
  | case (i : Nat) (name : String) (rest : Program .sections) : Program .sections
  /-- The end of a section. -/
  | endCase (rest : Program .sections) : Program .sections
  /-- The default section. -/
  | default (rest : Program .sections) : Program .sections

/-- The loop that an answer names, if it names one. -/
def Answer.loops : Answer → List LoopHandle
  | .loop h => [h]
  | _ => []

/-! ## Clients -/

/-- What a **client** does with a builder, until a call is refused. -/
abbrev Client := StateT Builder (Except BuildError)

namespace Client

/-- A call of a client. -/
def ask (o : Operation) : Client Answer := fun b =>
  match (b.perform o).result with
  | .ok a => .ok (a, (b.perform o).builder)
  | .error e => .error e

end Client

open Client in
/-- **Plays** a program, given the loops around it, innermost first, and the labels of the cases of the
switch that it stands in. -/
def Program.play {p : Place} : Program p → List LoopHandle → List Label → Client Unit
  | .done, _, _ => pure ()
  | .call o rest, loops, labels => do
    let _ ← ask o
    rest.play loops labels
  | .leave how out rest, loops, labels =>
    match loops[out]? with
    | some h => do
      let _ ← ask (how.operation h)
      rest.play loops labels
    | none => rest.play loops labels
  | .conditional opener inner rest, loops, labels => do
    let _ ← ask opener.operation
    inner.play loops []
    let _ ← ask .closeIf
    rest.play loops labels
  | .counted index start bound inner rest, loops, labels => do
    let a ← ask (.openFor index start bound)
    inner.play (a.loops ++ loops) []
    let _ ← ask .closeFor
    rest.play loops labels
  | .enumerated slot element enumerator getCurrent moveNext inner rest, loops, labels => do
    let a ← ask (.openEach slot element enumerator getCurrent)
    inner.play (a.loops ++ loops) []
    let _ ← ask (.closeEach moveNext)
    rest.play loops labels
  | .whileLoop test comparison inner rest, loops, labels => do
    let _ ← ask .openWhile
    test.play loops []
    let _ ← ask (.openWhileBody comparison)
    inner.play loops []
    let _ ← ask .closeWhile
    rest.play loops labels
  | .switch cases inner rest, loops, labels => do
    let a ← ask (.openSwitch cases)
    inner.play loops a.issued
    let _ ← ask .closeSwitch
    rest.play loops labels
  | .elseIf left comparison right rest, loops, labels => do
    let _ ← ask (.openElseIf left comparison right)
    rest.play loops labels
  | .elseIfEmpty slot rest, loops, labels => do
    let _ ← ask (.openElseIfEmpty slot)
    rest.play loops labels
  | .otherwise rest, loops, labels => do
    let _ ← ask .openElse
    rest.play loops labels
  | .case i name rest, loops, labels =>
    match labels[i]? with
    | some l => do
      let _ ← ask (.openCase l name)
      rest.play loops labels
    | none => rest.play loops labels
  | .endCase rest, loops, labels => do
    let _ ← ask .closeCase
    rest.play loops labels
  | .default rest, loops, labels => do
    let _ ← ask .openDefault
    rest.play loops labels

/-! ## Well-formed programs -/

namespace Program

/-- The positions of the **cases** that stand directly in a program, in a row. -/
def cases {p : Place} : Program p → List Nat
  | .done => []
  | .case i _ rest => i :: rest.cases
  | .call _ rest | .leave _ _ rest | .conditional _ _ rest | .counted _ _ _ _ rest
  | .enumerated _ _ _ _ _ _ rest | .whileLoop _ _ _ rest | .switch _ _ rest | .elseIf _ _ _ rest
  | .elseIfEmpty _ rest | .otherwise rest | .endCase rest | .default rest => rest.cases

/-- The number of **default sections** that stand directly in a program. -/
def defaults {p : Place} : Program p → Nat
  | .done => 0
  | .default rest => rest.defaults + 1
  | .call _ rest | .leave _ _ rest | .conditional _ _ rest | .counted _ _ _ _ rest
  | .enumerated _ _ _ _ _ _ rest | .whileLoop _ _ _ rest | .switch _ _ rest | .elseIf _ _ _ rest
  | .elseIfEmpty _ rest | .otherwise rest | .endCase rest | .case _ _ rest => rest.defaults

open Emit in
/-- A program is **well-formed** for procedures of a signature, inside a number of loops: its breaks leave
these loops, a switch is given each of its cases once and at most one default section, and what it loads,
converts and calls is accepted. -/
def WellFormed (g : Signature) {p : Place} : Program p → Nat → Prop
  | .done, _ => True
  | .call o rest, n => (o.isStraight ∨ ∃ t, o = .toFullText t) ∧ Accepted g o.perform ∧ rest.WellFormed g n
  | .leave _ out rest, n => out < n ∧ rest.WellFormed g n
  | .conditional opener inner rest, n =>
    (∀ e ∈ opener.loads, Accepted g e) ∧ inner.WellFormed g n ∧ rest.WellFormed g n
  | .counted index start bound inner rest, n =>
    (index.isSome → Accepted g (load start) ∧ Accepted g (load bound)) ∧ inner.WellFormed g (n + 1) ∧
      rest.WellFormed g n
  | .enumerated slot element enumerator getCurrent moveNext inner rest, n =>
    (Accepted g (callWith (some (.variable enumerator)) getCurrent []) ∧ Accepted g (convertTop element slot.type) ∧
      Accepted g (callWith (some (.variable enumerator)) moveNext [])) ∧ inner.WellFormed g (n + 1) ∧
      rest.WellFormed g n
  | .whileLoop test _ inner rest, n => test.WellFormed g n ∧ inner.WellFormed g n ∧ rest.WellFormed g n
  | .switch cases inner rest, n =>
    (inner.cases.Perm (List.range cases) ∧ inner.defaults ≤ 1) ∧ inner.WellFormed g n ∧ rest.WellFormed g n
  | .elseIf left _ right rest, n =>
    (Accepted g (load left) ∧ Accepted g (load right)) ∧ rest.WellFormed g n
  | .elseIfEmpty _ rest, n | .otherwise rest, n | .case _ _ rest, n | .endCase rest, n | .default rest, n =>
    rest.WellFormed g n

/-- Cases stand in a switch only. -/
theorem cases_eq_nil {p : Place} (program : Program p) (hp : p ≠ .sections) : program.cases = [] := by
  induction program with
  | done => rfl
  | case => exact absurd rfl hp
  | endCase => exact absurd rfl hp
  | default => exact absurd rfl hp
  | conditional _ _ _ _ ih => exact ih hp
  | counted _ _ _ _ _ _ ih => exact ih hp
  | enumerated _ _ _ _ _ _ _ _ ih => exact ih hp
  | whileLoop _ _ _ _ _ _ ih => exact ih hp
  | switch _ _ _ _ ih => exact ih hp
  | otherwise _ ih => exact ih nofun
  | call _ _ ih => exact ih hp
  | leave _ _ _ ih => exact ih hp
  | elseIf _ _ _ _ ih => exact ih hp
  | elseIfEmpty _ _ ih => exact ih hp

end Program

/-! ## Clients that are not refused -/

namespace Client

variable {α β : Type} {c : Client α} {f : α → Client β} {P P' : Session → Prop} {Q Q' : α → Session → Prop}
  {R : β → Session → Prop} {o : Operation}

/-- On a builder that takes calls with a sound session where `P` holds, **no call of the client is
refused**, and `Q` holds of its answer and of the session behind it. -/
def Ensures (c : Client α) (P : Session → Prop) (Q : α → Session → Prop) : Prop :=
  ∀ (b : Builder) (s : Session), b.state = .building s → s.Sound → P s →
    ∃ a b' s', c.run b = .ok (a, b') ∧ b'.state = .building s' ∧ s'.Sound ∧ Q a s'

theorem ensures_pure (a : α) : (pure a : Client α).Ensures P fun _ => P :=
  fun b s hb hsound hs => ⟨a, b, s, rfl, hb, hsound, hs⟩

theorem Ensures.bind (h : c.Ensures P Q) (hf : ∀ a, (f a).Ensures (Q a) R) : (c >>= f).Ensures P R := by
  intro b s hb hsound hs
  obtain ⟨a, b₁, s₁, hrun, hb₁, hsound₁, hq⟩ := h b s hb hsound hs
  obtain ⟨x, b₂, s₂, hrun', hb₂, hsound₂, hr⟩ := hf a b₁ s₁ hb₁ hsound₁ hq
  refine ⟨x, b₂, s₂, ?_, hb₂, hsound₂, hr⟩
  rw [StateT.run_bind, hrun]
  exact hrun'

theorem Ensures.mono (h : c.Ensures P Q) (hP : ∀ s, P' s → P s) (hQ : ∀ a s, Q a s → Q' a s) :
    c.Ensures P' Q' := by
  intro b s hb hsound hs
  obtain ⟨a, b', s', hrun, hb', hsound', hq⟩ := h b s hb hsound (hP s hs)
  exact ⟨a, b', s', hrun, hb', hsound', hQ a s' hq⟩

theorem Ensures.exists {ι : Sort*} {P : ι → Session → Prop} (h : ∀ i, c.Ensures (P i) Q) :
    c.Ensures (fun s => ∃ i, P i s) Q := by
  rintro b s hb hsound ⟨i, hs⟩
  exact h i b s hb hsound hs

theorem Ensures.and {p : Prop} (h : p → c.Ensures P Q) : c.Ensures (fun s => p ∧ P s) Q := by
  rintro b s hb hsound ⟨hp, hs⟩
  exact h hp b s hb hsound hs

/-- A call that a session accepts is not refused; its notices are handed over. -/
theorem ensures_ask {Q : Answer → Session → Prop} (h : o.perform.Ensures P Q)
    (ho : ∀ s, P s → Emit.Inside o.handed) (hQ : ∀ a s, Q a s → Q a { s with notices := #[] }) :
    (ask o).Ensures P Q := by
  intro b s hb hsound hs
  obtain ⟨a, s', hrun, hq⟩ := h b.level s hs
  obtain ⟨hgrows, -⟩ := o.gives_perform (ho s hs) _ (Tracer.moves_ofLevel b.level) s s' a hsound.inner hrun
  refine ⟨a, .taking b.sink b.level { s' with notices := #[] }, { s' with notices := #[] }, ?_, rfl,
    (hgrows.trans Session.Change.deliver.grows).sound hsound, hQ a s' hq⟩
  show ask o b = _
  rw [ask, Builder.perform_ok hb hrun]

end Client

end Stackwright
