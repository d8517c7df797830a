import Mathlib.Data.List.Forall2
import Mathlib.Order.Defs.PartialOrder
import Stackwright.Emission.Text

/-! # Numbers that belong together

The same emission calls, made under two tracers, take two sessions through the same steps, but the locals,
the labels and the loops of the two need not have the same numbers. A **pairing** says which numbers belong
together, and with them which slots, labels, handles, constructs, instructions and refusals do. It only ever
gets to know more, and what belongs together stays together.

* **`Pairing`** — which numbers of the two sessions belong together.
* **`Construct.Paired g c c'`** and its like — what belongs together under a pairing.
* **`BuildError.Paired g e e'`** — the same refusal, but for the numbers of labels. -/

namespace Stackwright

attribute [ext] LoopHandle

/-! ## Pairings -/

/-- Which numbers of two sessions **belong together**. -/
structure Pairing where
  /-- The numbers of locals. -/
  slots : Nat → Nat → Prop
  /-- The numbers of labels. -/
  labels : Nat → Nat → Prop
  /-- The numbers of loops. -/
  loops : Nat → Nat → Prop

namespace Pairing

/-- The pairing of two sessions with the same numbers. -/
def same : Pairing := ⟨Eq, Eq, Eq⟩

/-- A pairing that knows more. -/
structure Le (g g' : Pairing) : Prop where
  /-- Locals stay together. -/
  slots : ∀ i k, g.slots i k → g'.slots i k
  /-- Labels stay together. -/
  labels : ∀ i k, g.labels i k → g'.labels i k
  /-- Loops stay together. -/
  loops : ∀ i k, g.loops i k → g'.loops i k

theorem Le.trans {g g' g'' : Pairing} (h : g.Le g') (h' : g'.Le g'') : g.Le g'' :=
  ⟨fun i k hk => h'.slots i k (h.slots i k hk), fun i k hk => h'.labels i k (h.labels i k hk),
    fun i k hk => h'.loops i k (h.loops i k hk)⟩

instance : Preorder Pairing where
  le := Le
  le_refl _ := ⟨fun _ _ h => h, fun _ _ h => h, fun _ _ h => h⟩
  le_trans _ _ _ h h' := h.trans h'

end Pairing

/-! ## What is paired -/

/-- A value that refers to no cell of the heap and to no slot of a frame: what a constant is. -/
def Value.isConstant : Value → Bool
  | .null | .scalar _ | .text _ | .handle _ => true
  | .array _ | .object _ | .struct .. | .boxed _ | .address _ => false

/-- Whether an operation uses no local, and pushes nothing but a constant. -/
def Op.isPlain : Op → Bool
  | .loadLocal _ | .storeLocal .. | .addressLocal _ => false
  | .push v => v.isConstant
  | _ => true

/-- The same operation, with the local that belongs to its own. -/
inductive Op.Paired (g : Pairing) : Op → Op → Prop
  /-- A local is loaded. -/
  | loadLocal {i k : Nat} (h : g.slots i k) : Paired g (.loadLocal i) (.loadLocal k)
  /-- A local is stored into. -/
  | storeLocal {i k : Nat} (kind : Option ScalarKind) (h : g.slots i k) :
      Paired g (.storeLocal i kind) (.storeLocal k kind)
  /-- The address of a local is loaded. -/
  | addressLocal {i k : Nat} (h : g.slots i k) : Paired g (.addressLocal i) (.addressLocal k)
  /-- No local is used. -/
  | other {o : Op} (h : o.isPlain) : Paired g o o

/-- Labels that belong together. -/
def Label.Paired (g : Pairing) (l l' : Label) : Prop := l'.session = l.session ∧ g.labels l.id l'.id

/-- The same jump, with targets that belong to its own. -/
inductive Jump.Paired (g : Pairing) : Jump Label → Jump Label → Prop
  | always {l l' : Label} (h : l.Paired g l') : Paired g (.always l) (.always l')
  | ifTrue {l l' : Label} (h : l.Paired g l') : Paired g (.ifTrue l) (.ifTrue l')
  | ifFalse {l l' : Label} (h : l.Paired g l') : Paired g (.ifFalse l) (.ifFalse l')
  | compare (c : Comparison) {l l' : Label} (h : l.Paired g l') :
      Paired g (.compare c l) (.compare c l')
  | switch {ls ls' : List Label} (h : List.Forall₂ (Label.Paired g) ls ls') :
      Paired g (.switch ls) (.switch ls')

/-- The targets of paired jumps belong together. -/
theorem Jump.Paired.targets {g : Pairing} {j j' : Jump Label} (h : j.Paired g j') :
    List.Forall₂ (Label.Paired g) j.targets j'.targets := by
  cases h with
  | switch h => exact h
  | compare c h => exact .cons h .nil
  | _ h => exact .cons h .nil

/-- Locals that belong together. -/
def Local.Paired (g : Pairing) (l l' : Local) : Prop := l'.type = l.type ∧ g.slots l.index l'.index

/-- Operands that belong together. -/
inductive Operand.Paired (g : Pairing) : Operand → Operand → Prop
  | constant (c : Constant) : Paired g (.constant c) (.constant c)
  | argument (a : Argument) : Paired g (.argument a) (.argument a)
  | variable {l l' : Local} (h : l.Paired g l') : Paired g (.variable l) (.variable l')

/-- Operands that belong together have one type. -/
theorem Operand.Paired.type {g : Pairing} {o o' : Operand} (h : o.Paired g o') :
    o'.type = o.type := by
  cases h with
  | «variable» h => exact h.1
  | _ => rfl

theorem Operand.Paired.isNull {g : Pairing} {o o' : Operand} (h : o.Paired g o') :
    o'.isNull = o.isNull := by
  cases h with
  | «variable» h => rfl
  | _ => rfl

/-- Loops that belong together. -/
def LoopHandle.Paired (g : Pairing) (h h' : LoopHandle) : Prop :=
  h'.session = h.session ∧ g.loops h.id h'.id

/-- Open loops that belong together. -/
structure LoopState.Paired (g : Pairing) (s s' : LoopState) : Prop where
  /-- The handles belong together. -/
  handle : s.handle.Paired g s'.handle
  /-- The locals that are set in each round belong together. -/
  slot : Option.Rel (Local.Paired g) s.slot s'.slot
  /-- The bodies belong together. -/
  body : s.body.Paired g s'.body
  /-- The tests belong together. -/
  test : s.test.Paired g s'.test
  /-- The ends belong together. -/
  exit : Option.Rel (Label.Paired g) s.exit s'.exit
  /-- The bounds belong together. -/
  bound : s.bound.Paired g s'.bound

/-- Open constructs that belong together. -/
inductive Construct.Paired (g : Pairing) : Construct → Construct → Prop
  | conditional {o o' f f' : Label} (ho : o.Paired g o') (hf : f.Paired g f') :
      Paired g (.conditional o f) (.conditional o' f')
  | counted {s s' : LoopState} (h : s.Paired g s') : Paired g (.counted s) (.counted s')
  | enumerated {s s' : LoopState} (h : s.Paired g s') : Paired g (.enumerated s) (.enumerated s')
  | switch {d d' f f' : Label} (given : Bool) (hd : d.Paired g d') (hf : f.Paired g f') :
      Paired g (.switch d f given) (.switch d' f' given)
  | whileLoop {l l' : Label} (h : l.Paired g l') : Paired g (.whileLoop l) (.whileLoop l')

theorem Construct.Paired.kind {g : Pairing} {c c' : Construct} (h : c.Paired g c') :
    c'.kind = c.kind := by
  cases h <;> rfl

/-- The label that a refusal names, if it names one. -/
def BuildError.label? : BuildError → Option Label
  | .unknownLabel l | .labelAlreadyMarked l | .labelNotMarked l => some l
  | _ => none

/-- The same refusal, for labels that belong together. -/
inductive BuildError.Paired (g : Pairing) : BuildError → BuildError → Prop
  | unknownLabel {l l' : Label} (h : l.Paired g l') : Paired g (.unknownLabel l) (.unknownLabel l')
  | labelAlreadyMarked {l l' : Label} (h : l.Paired g l') :
      Paired g (.labelAlreadyMarked l) (.labelAlreadyMarked l')
  | labelNotMarked {l l' : Label} (h : l.Paired g l') :
      Paired g (.labelNotMarked l) (.labelNotMarked l')
  | other {e : BuildError} (h : e.label? = none) : Paired g e e

/-! ## More is paired -/

/-- Options are related by what less is asked of. -/
theorem optionRel_imp {α β : Type} {R R' : α → β → Prop} (h : ∀ a b, R a b → R' a b) {a : Option α}
    {b : Option β} (hab : Option.Rel R a b) : Option.Rel R' a b := by
  cases hab with
  | some hr => exact .some (h _ _ hr)
  | none => exact .none

section mono

variable {g g' : Pairing} (hle : g ≤ g')

include hle

theorem Op.Paired.mono {o o' : Op} (h : o.Paired g o') : o.Paired g' o' := by
  cases h with
  | loadLocal h => exact .loadLocal (hle.slots _ _ h)
  | storeLocal kind h => exact .storeLocal kind (hle.slots _ _ h)
  | addressLocal h => exact .addressLocal (hle.slots _ _ h)
  | other h => exact .other h

theorem Label.Paired.mono {l l' : Label} (h : l.Paired g l') : l.Paired g' l' :=
  ⟨h.1, hle.labels _ _ h.2⟩

theorem Jump.Paired.mono {j j' : Jump Label} (h : j.Paired g j') : j.Paired g' j' := by
  cases h with
  | always h => exact .always (h.mono hle)
  | ifTrue h => exact .ifTrue (h.mono hle)
  | ifFalse h => exact .ifFalse (h.mono hle)
  | compare c h => exact .compare c (h.mono hle)
  | switch h => exact .switch (h.imp fun _ _ hl => hl.mono hle)

theorem Local.Paired.mono {l l' : Local} (h : l.Paired g l') : l.Paired g' l' :=
  ⟨h.1, hle.slots _ _ h.2⟩

theorem Operand.Paired.mono {o o' : Operand} (h : o.Paired g o') : o.Paired g' o' := by
  cases h with
  | constant c => exact .constant c
  | argument a => exact .argument a
  | «variable» h => exact .variable (h.mono hle)

theorem LoopHandle.Paired.mono {h h' : LoopHandle} (hp : h.Paired g h') : h.Paired g' h' :=
  ⟨hp.1, hle.loops _ _ hp.2⟩

theorem LoopState.Paired.mono {s s' : LoopState} (h : s.Paired g s') : s.Paired g' s' where
  handle := h.handle.mono hle
  slot := optionRel_imp (fun _ _ hl => hl.mono hle) h.slot
  body := h.body.mono hle
  test := h.test.mono hle
  exit := optionRel_imp (fun _ _ hl => hl.mono hle) h.exit
  bound := h.bound.mono hle

theorem Construct.Paired.mono {c c' : Construct} (h : c.Paired g c') : c.Paired g' c' := by
  cases h with
  | conditional ho hf => exact .conditional (ho.mono hle) (hf.mono hle)
  | counted h => exact .counted (h.mono hle)
  | enumerated h => exact .enumerated (h.mono hle)
  | switch given hd hf => exact .switch given (hd.mono hle) (hf.mono hle)
  | whileLoop h => exact .whileLoop (h.mono hle)

theorem BuildError.Paired.mono {e e' : BuildError} (h : e.Paired g e') : e.Paired g' e' := by
  cases h with
  | unknownLabel h => exact .unknownLabel (h.mono hle)
  | labelAlreadyMarked h => exact .labelAlreadyMarked (h.mono hle)
  | labelNotMarked h => exact .labelNotMarked (h.mono hle)
  | other h => exact .other h

end mono

/-! ## The same numbers -/

theorem Op.Paired.eq {o o' : Op} (h : o.Paired .same o') : o' = o := by
  cases h with
  | loadLocal h => exact congrArg _ (Eq.symm h)
  | storeLocal kind h => exact congrArg (Op.storeLocal · kind) (Eq.symm h)
  | addressLocal h => exact congrArg _ (Eq.symm h)
  | other h => rfl

theorem Label.Paired.eq {l l' : Label} (h : l.Paired .same l') : l' = l := by
  obtain ⟨session, id⟩ := l
  obtain ⟨session', id'⟩ := l'
  obtain ⟨hs, hi⟩ := h
  cases hs
  cases hi
  rfl

theorem Local.Paired.eq {l l' : Local} (h : l.Paired .same l') : l' = l := by
  obtain ⟨index, type⟩ := l
  obtain ⟨index', type'⟩ := l'
  obtain ⟨ht, hi⟩ := h
  cases ht
  cases hi
  rfl

theorem LoopHandle.Paired.eq {k k' : LoopHandle} (h : k.Paired .same k') : k' = k := by
  obtain ⟨session, id⟩ := k
  obtain ⟨session', id'⟩ := k'
  obtain ⟨hs, hi⟩ := h
  cases hs
  cases hi
  rfl

/-- Lists of things that belong to themselves alone are the same. -/
theorem eq_of_forall₂ {α : Type} {R : α → α → Prop} (hR : ∀ a b, R a b → b = a) {xs ys : List α}
    (h : List.Forall₂ R xs ys) : ys = xs := by
  induction h with
  | nil => rfl
  | cons hab _ ih => rw [hR _ _ hab, ih]

theorem Operand.Paired.eq {o o' : Operand} (h : o.Paired .same o') : o' = o := by
  cases h with
  | constant c => rfl
  | argument a => rfl
  | «variable» h => rw [h.eq]

theorem LoopState.Paired.eq {k k' : LoopState} (h : k.Paired .same k') : k' = k := by
  obtain ⟨handle, slot, body, test, exit, bound⟩ := k
  obtain ⟨handle', slot', body', test', exit', bound'⟩ := k'
  obtain ⟨hhandle, hslot, hbody, htest, hexit, hbound⟩ := h
  have hslot' : slot' = slot := by
    cases hslot with
    | none => rfl
    | some h => rw [h.eq]
  have hexit' : exit' = exit := by
    cases hexit with
    | none => rfl
    | some h => rw [h.eq]
  rw [LoopState.mk.injEq]
  exact ⟨hhandle.eq, hslot', hbody.eq, htest.eq, hexit', hbound.eq⟩

theorem Jump.Paired.eq {j j' : Jump Label} (h : j.Paired .same j') : j' = j := by
  cases h with
  | always h => rw [h.eq]
  | ifTrue h => rw [h.eq]
  | ifFalse h => rw [h.eq]
  | compare c h => rw [h.eq]
  | switch h => rw [eq_of_forall₂ (fun _ _ => Label.Paired.eq) h]

theorem Construct.Paired.eq {c c' : Construct} (h : c.Paired .same c') : c' = c := by
  cases h with
  | conditional ho hf => rw [ho.eq, hf.eq]
  | counted h => rw [h.eq]
  | enumerated h => rw [h.eq]
  | switch given hd hf => rw [hd.eq, hf.eq]
  | whileLoop h => rw [h.eq]

theorem BuildError.Paired.eq {e e' : BuildError} (h : e.Paired .same e') : e' = e := by
  cases h with
  | unknownLabel h => rw [h.eq]
  | labelAlreadyMarked h => rw [h.eq]
  | labelNotMarked h => rw [h.eq]
  | other h => rfl

/-- A label belongs to itself. -/
theorem Label.paired_same (l : Label) : l.Paired .same l := ⟨rfl, rfl⟩

theorem Local.paired_same (l : Local) : l.Paired .same l := ⟨rfl, rfl⟩

theorem Operand.paired_same (o : Operand) : o.Paired .same o := by
  cases o with
  | constant c => exact .constant c
  | argument a => exact .argument a
  | «variable» l => exact .variable l.paired_same

theorem Construct.paired_same (c : Construct) : c.Paired .same c := by
  have hloop : ∀ k : LoopState, k.Paired .same k := fun k =>
    { handle := ⟨rfl, rfl⟩
      slot := by
        cases k.slot with
        | none => exact .none
        | some l => exact .some l.paired_same
      body := k.body.paired_same
      test := k.test.paired_same
      exit := by
        cases k.exit with
        | none => exact .none
        | some l => exact .some l.paired_same
      bound := k.bound.paired_same }
  cases c with
  | conditional o f => exact .conditional o.paired_same f.paired_same
  | counted k => exact .counted (hloop k)
  | enumerated k => exact .enumerated (hloop k)
  | switch d f given => exact .switch given d.paired_same f.paired_same
  | whileLoop h => exact .whileLoop h.paired_same

end Stackwright
