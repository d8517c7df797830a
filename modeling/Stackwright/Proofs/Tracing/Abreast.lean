import Stackwright.Proofs.Builder.Bodies
import Stackwright.Proofs.Machine.Operands
import Stackwright.Proofs.Tracing.Numbering

/-! # Machines under another numbering

What instructions do does not depend on how locals and boxes are numbered: on two machines that are the same but
for those numbers, and but for what was reported to a sink, an instruction goes on in the same way, or stops for
the same reason, and the machines are the same again but for numbers. This is said of computations, and each
building block of an instruction is such a computation. The body of a method is any function of the world, so of
bodies it has to be known.

* **`Machine.Renumbered sink ν m m'`** — the same machine, but for numbers and reports.
* **`Exec.InStep R ν A e e'`** — two computations go on alike.
* **`HostBody.DiscreetAt sink body args w`** — a body does not look at numbers and reports. -/

namespace Stackwright

/-! ## Worlds and machines -/

namespace World

/-- A world **apart** from its heap and from what procedures reported to a sink. -/
def apart (sink : Sink) (w : World) : World :=
  match sink with
  | .log => { w with heap := {}, logs := w.logs.filter fun r => r.level ≠ .trace ∨ r.channel ≠ .traces }
  | .memory i => { w with heap := {}, memories := w.memories.modify i fun m => { m with reports := #[] } }

variable {sink : Sink} {w : World}

theorem apart_heap (h : Heap) : ({ w with heap := h } : World).apart sink = w.apart sink := by
  cases sink <;> rfl

/-- A report is apart. -/
theorem apart_report (text : String) : (w.report sink text).apart sink = w.apart sink := by
  cases sink with
  | log =>
    rw [report, record]
    split
    · simp [apart]
    · rfl
  | memory i =>
    simp only [report, apart]
    congr 1
    refine Array.ext_getElem? fun j => ?_
    rw [Array.getElem?_modify, Array.getElem?_modify, Array.getElem?_modify]
    split
    · cases w.memories[j]? <;> rfl
    · rfl

end World

/-- The same world, but for the **numbers** of boxes and for what was reported to a sink. -/
structure World.Renumbered (sink : Sink) (ν : Numbering) (w w' : World) : Prop where
  /-- The heaps are the same. -/
  heap : w.heap.Renumbered ν w'.heap
  /-- So is all that is apart from them. -/
  apart : w'.apart sink = w.apart sink

/-- The same machine, but for **numbers** and for what was reported to a sink. -/
structure Machine.Renumbered (sink : Sink) (ν : Numbering) (m m' : Machine) : Prop where
  /-- The arguments are the same. -/
  args : Matches (Value.Renumbered ν) m.frame.args m'.frame.args
  /-- Locals that belong together hold the same. -/
  locals : ∀ i k, ν.slots i k → ∃ v v', m.frame.locals[i]? = some v ∧ m'.frame.locals[k]? = some v' ∧
    v.Renumbered ν v'
  /-- Different locals belong to different ones. -/
  apart : ∀ i k i' k', ν.slots i k → ν.slots i' k' → (i = i' ↔ k = k')
  /-- The stacks are the same. -/
  stack : List.Forall₂ (Value.Renumbered ν) m.frame.stack m'.frame.stack
  /-- The worlds are the same. -/
  world : m.world.Renumbered sink ν m'.world

/-! ## Outcomes -/

/-- The same fault, but for **numbers** in the text of a value. -/
inductive Fault.Renumbered (ν : Numbering) : Fault → Fault → Prop
  /-- The same fault. -/
  | same (f : Fault) : Renumbered ν f f
  /-- A value without a type is of another type than a cast asks for. -/
  | cast {ν₀ : Numbering} (hle : ν₀ ≤ ν) {h h' : Heap} {v v' : Value} (hh : h.Renumbered ν₀ h')
      (hv : v.Renumbered ν₀ v') (t : Ty) :
      Renumbered ν (.invalidCast (h.debug v) t) (.invalidCast (h'.debug v') t)
  /-- A value is of no use. -/
  | mismatch {ν₀ : Numbering} (hle : ν₀ ≤ ν) (expected : String) {h h' : Heap} {v v' : Value}
      (hh : h.Renumbered ν₀ h') (hv : v.Renumbered ν₀ v') :
      Renumbered ν (.typeMismatch expected (h.debug v)) (.typeMismatch expected (h'.debug v'))
  /-- A value was thrown. -/
  | thrown {ν₀ : Numbering} (hle : ν₀ ≤ ν) {h h' : Heap} {v v' : Value} (hh : h.Renumbered ν₀ h')
      (hv : v.Renumbered ν₀ v') : Renumbered ν (.thrown (h.display v)) (.thrown (h'.display v'))

/-- The same reason to stop, but for numbers. -/
inductive Halt.Renumbered (ν : Numbering) : Halt → Halt → Prop
  | fault {f f' : Fault} (h : f.Renumbered ν f') : Renumbered ν (.fault f) (.fault f')
  | outOfFuel : Renumbered ν .outOfFuel .outOfFuel

theorem Halt.renumbered_self (ν : Numbering) (e : Halt) : e.Renumbered ν e := by
  cases e with
  | fault f => exact .fault (.same f)
  | outOfFuel => exact .outOfFuel

namespace Exec

variable {σ α β γ δ : Type} {R : Numbering → σ → σ → Prop} {ν ν' : Numbering} {A : Numbering → α → β → Prop}
  {B : Numbering → γ → δ → Prop} {s s' : σ} {e : EStateM Halt σ α} {e' : EStateM Halt σ β}

/-- The same outcome, but for numbers; there may be boxes that were not there before. -/
inductive Agrees (R : Numbering → σ → σ → Prop) (ν : Numbering) (A : Numbering → α → β → Prop) :
    EStateM.Result Halt σ α → EStateM.Result Halt σ β → Prop
  /-- Both answer. -/
  | ok {ν' : Numbering} (hle : ν ≤ ν') {a : α} {b : β} {s s' : σ} (hs : R ν' s s') (ha : A ν' a b) :
      Agrees R ν A (.ok a s) (.ok b s')
  /-- Both stop. -/
  | error {ν' : Numbering} (hle : ν ≤ ν') {r r' : Halt} {s s' : σ} (hs : R ν' s s') (hr : r.Renumbered ν' r') :
      Agrees R ν A (.error r s) (.error r' s')

/-- Two computations go on **in step** on what is the same but for numbers. -/
def InStep (R : Numbering → σ → σ → Prop) (ν : Numbering) (A : Numbering → α → β → Prop) (e : EStateM Halt σ α)
    (e' : EStateM Halt σ β) : Prop :=
  ∀ ν', ν ≤ ν' → ∀ s s', R ν' s s' → Agrees R ν' A (e.run s) (e'.run s')

/-- Nothing is said of the answers. -/
abbrev Any (_ : Numbering) (_ : α) (_ : β) : Prop := True

/-- The answers are the same. -/
abbrev Equal (_ : Numbering) (a a' : α) : Prop := a' = a

theorem Agrees.later (hle : ν ≤ ν') {r : EStateM.Result Halt σ α} {r' : EStateM.Result Halt σ β}
    (h : Agrees R ν' A r r') : Agrees R ν A r r' := by
  cases h with
  | ok hle' hs ha => exact .ok (hle.trans hle') hs ha
  | error hle' hs hr => exact .error (hle.trans hle') hs hr

theorem run_bind_eq (e : EStateM Halt σ α) (f : α → EStateM Halt σ γ) (s : σ) :
    (e >>= f).run s = match e.run s with
      | .ok a s => (f a).run s
      | .error r s => .error r s := by
  show EStateM.bind e f s = _
  unfold EStateM.bind
  cases h : e s <;> simp [EStateM.run, h]

/-- What goes on alike goes on alike one after the other; what comes next may rely on where the first came to. -/
theorem Agrees.bind {f : α → EStateM Halt σ γ} {f' : β → EStateM Halt σ δ}
    (h : Agrees R ν A (e.run s) (e'.run s'))
    (hf : ∀ ν', ν ≤ ν' → ∀ a b s₁ s₁', e.run s = .ok a s₁ → e'.run s' = .ok b s₁' → R ν' s₁ s₁' → A ν' a b →
      Agrees R ν' B ((f a).run s₁) ((f' b).run s₁')) :
    Agrees R ν B ((e >>= f).run s) ((e' >>= f').run s') := by
  rw [run_bind_eq, run_bind_eq]
  generalize hrun : e.run s = r, hrun' : e'.run s' = r' at h
  cases h with
  | ok hle hs ha => exact (hf _ hle _ _ _ _ hrun hrun' hs ha).later hle
  | error hle hs hr => exact .error hle hs hr

theorem InStep.bind {f : α → EStateM Halt σ γ} {f' : β → EStateM Halt σ δ} (h : InStep R ν A e e')
    (hf : ∀ ν', ν ≤ ν' → ∀ a b, A ν' a b → InStep R ν' B (f a) (f' b)) : InStep R ν B (e >>= f) (e' >>= f') :=
  fun ν₁ hle s s' hs => (h ν₁ hle s s' hs).bind fun ν₂ hle' a b _ _ _ _ hs' ha =>
    hf ν₂ (hle.trans hle') a b ha ν₂ le_rfl _ _ hs'

theorem inStep_pure {a : α} {b : β} (h : ∀ ν', ν ≤ ν' → A ν' a b) :
    InStep R ν A (pure a : EStateM Halt σ α) (pure b : EStateM Halt σ β) :=
  fun ν' hle _ _ hs => .ok le_rfl hs (h ν' hle)

theorem inStep_throw {r r' : Halt} (h : ∀ ν', ν ≤ ν' → r.Renumbered ν' r') :
    InStep R ν A (throw r : EStateM Halt σ α) (throw r' : EStateM Halt σ β) :=
  fun ν' hle _ _ hs => .error le_rfl hs (h ν' hle)

theorem inStep_halt (r : Halt) : InStep R ν A (throw r : EStateM Halt σ α) (throw r : EStateM Halt σ β) :=
  inStep_throw fun ν' _ => r.renumbered_self ν'

theorem inStep_get : InStep R ν R (get : EStateM Halt σ σ) get := fun _ _ _ _ hs => .ok le_rfl hs hs

end Exec

/-! ## Computations of the world -/

namespace Host

open Exec

variable {α β : Type} {sink : Sink} {ν : Numbering} {A : Numbering → α → β → Prop} {v v' w w' : Value}

/-- Computations of the world that go on in step. -/
abbrev InStep (sink : Sink) (ν : Numbering) (A : Numbering → α → β → Prop) (c : Host α) (c' : Host β) : Prop :=
  Exec.InStep (World.Renumbered sink) ν A c c'

theorem inStep_fail (f : Fault) : InStep sink ν A (fail f : Host α) (fail f : Host β) := inStep_halt _

theorem inStep_ofExcept {r : Except Fault α} {r' : Except Fault β}
    (h : (∃ a b, r = .ok a ∧ r' = .ok b ∧ ∀ ν', ν ≤ ν' → A ν' a b) ∨ ∃ f, r = .error f ∧ r' = .error f) :
    InStep sink ν A (ofExcept r) (ofExcept r') := by
  rcases h with ⟨a, b, rfl, rfl, ha⟩ | ⟨f, rfl, rfl⟩
  · exact inStep_pure ha
  · exact inStep_fail f

theorem inStep_heap : InStep sink ν Heap.Renumbered heap heap :=
  fun _ _ _ _ hw => .ok le_rfl hw hw.heap

/-- What changes both heaps alike. -/
theorem inStep_modifyHeap {change change' : Heap → Heap}
    (h : ∀ ν', ν ≤ ν' → ∀ h h' : Heap, h.Renumbered ν' h' → (change h).Renumbered ν' (change' h')) :
    InStep sink ν Any (modifyHeap change) (modifyHeap change') := by
  intro ν' hle w w' hw
  have hapart : ({ w' with heap := change' w'.heap } : World).apart sink =
      ({ w with heap := change w.heap } : World).apart sink :=
    (World.apart_heap _).trans (hw.apart.trans (World.apart_heap _).symm)
  exact .ok le_rfl ⟨h ν' hle _ _ hw.heap, hapart⟩ trivial

/-- What makes a cell in both heaps. -/
theorem inStep_allocate {make : Heap → α × Heap} {make' : Heap → β × Heap}
    (h : ∀ ν', ν ≤ ν' → ∀ h h' : Heap, h.Renumbered ν' h' →
      ∃ ν'', ν' ≤ ν'' ∧ A ν'' (make h).1 (make' h').1 ∧ (make h).2.Renumbered ν'' (make' h').2) :
    InStep sink ν A (allocate make) (allocate make') := by
  intro ν' hle w w' hw
  obtain ⟨ν'', hle', ha, hheap⟩ := h ν' hle _ _ hw.heap
  have hapart : ({ w' with heap := (make' w'.heap).2 } : World).apart sink =
      ({ w with heap := (make w.heap).2 } : World).apart sink :=
    (World.apart_heap _).trans (hw.apart.trans (World.apart_heap _).symm)
  exact .ok hle' ⟨hheap, hapart⟩ ha

theorem inStep_setItem (a : ArrayId) (i : Int) (hv : v.Renumbered ν v') :
    InStep sink ν Any (setItem a i v) (setItem a i v') := by
  refine InStep.bind inStep_heap fun ν₁ hle h h' hh => ?_
  rw [hh.checkItem]
  refine InStep.bind (A := Any) (inStep_ofExcept ?_) fun ν₂ hle' _ _ _ =>
    inStep_modifyHeap fun ν₃ hle'' _ _ hh' => hh'.setItem a i (hv.mono (hle.trans (hle'.trans hle'')))
  cases h.checkItem a i with
  | ok u => exact .inl ⟨_, _, rfl, rfl, fun _ _ => trivial⟩
  | error f => exact .inr ⟨_, rfl, rfl⟩

theorem inStep_setField (o : ObjectId) (i : Nat) (hv : v.Renumbered ν v') :
    InStep sink ν Any (setField o i v) (setField o i v') := by
  refine InStep.bind inStep_heap fun ν₁ hle h h' hh => ?_
  rw [hh.checkField]
  refine InStep.bind (A := Any) (inStep_ofExcept ?_) fun ν₂ hle' _ _ _ =>
    inStep_modifyHeap fun ν₃ hle'' _ _ hh' => hh'.setField o i (hv.mono (hle.trans (hle'.trans hle'')))
  cases h.checkField o i with
  | ok u => exact .inl ⟨_, _, rfl, rfl, fun _ _ => trivial⟩
  | error f => exact .inr ⟨_, rfl, rfl⟩

theorem inStep_unexpected (expected : String) (hv : v.Renumbered ν v') :
    InStep sink ν A (unexpected expected v : Host α) (unexpected expected v' : Host β) :=
  InStep.bind inStep_heap fun _ hle _ _ hh => inStep_throw fun _ hle' =>
    .fault (.mismatch hle' expected hh (hv.mono hle))

theorem inStep_expect (expected : String) (hv : v.Renumbered ν v') {o : Option α} {o' : Option β}
    (ho : Option.Rel (fun a b => ∀ ν', ν ≤ ν' → A ν' a b) o o') :
    InStep sink ν A (expect expected v o) (expect expected v' o') := by
  cases ho with
  | some ha => exact inStep_pure ha
  | none => exact inStep_unexpected expected hv

/-- A reading that is the same of both values. -/
theorem inStep_expectSame (expected : String) (hv : v.Renumbered ν v') {o o' : Option α} (ho : o' = o) :
    InStep sink ν Equal (expect expected v o) (expect expected v' o') := by
  subst ho
  refine inStep_expect expected hv ?_
  cases o' with
  | some a => exact .some fun _ _ => rfl
  | none => exact .none

theorem inStep_scalarOf (hv : v.Renumbered ν v') : InStep sink ν Equal (scalarOf v) (scalarOf v') :=
  inStep_expectSame _ hv hv.scalar?

theorem inStep_arithmetic (op : Scalar → Scalar → Scalar) (hv : v.Renumbered ν v') (hw : w.Renumbered ν w') :
    InStep sink ν Value.Renumbered (arithmetic op v w) (arithmetic op v' w') := by
  refine (inStep_scalarOf hv).bind fun ν₁ hle x x' hx => ?_
  refine (inStep_scalarOf (hw.mono hle)).bind fun ν₂ _ y y' hy => ?_
  rw [hx, hy]
  exact inStep_pure fun _ _ => .constant rfl

theorem inStep_bitwise (op : BitVec 128 → BitVec 128 → BitVec 128) (hv : v.Renumbered ν v')
    (hw : w.Renumbered ν w') : InStep sink ν Value.Renumbered (bitwise op v w) (bitwise op v' w') := by
  refine (inStep_scalarOf hv).bind fun ν₁ hle x x' hx => ?_
  refine (inStep_scalarOf (hw.mono hle)).bind fun ν₂ hle' y y' hy => ?_
  rw [hx, hy]
  split
  · exact inStep_pure fun _ _ => .constant rfl
  · refine inStep_unexpected _ ?_
    split
    · exact hv.mono (hle.trans hle')
    · exact hw.mono (hle.trans hle')

theorem inStep_complement (hv : v.Renumbered ν v') :
    InStep sink ν Value.Renumbered (complement v) (complement v') := by
  refine (inStep_scalarOf hv).bind fun ν₁ hle x x' hx => ?_
  rw [hx]
  split
  · exact inStep_pure fun _ _ => .constant rfl
  · exact inStep_unexpected _ (hv.mono hle)

/-- An order of numbers does not depend on how anything else is numbered. -/
theorem inStep_holds {c : Comparison} (hc : c ≠ .equalTo) (hc' : c ≠ .notEqualTo) (hv : v.Renumbered ν v')
    (hw : w.Renumbered ν w') : InStep sink ν Equal (holds c v w) (holds c v' w') := by
  unfold holds
  cases c with
  | equalTo => exact absurd rfl hc
  | notEqualTo => exact absurd rfl hc'
  | _ =>
    refine (inStep_scalarOf hv).bind fun ν₁ hle x x' hx => ?_
    refine (inStep_scalarOf (hw.mono hle)).bind fun ν₂ _ y y' hy => ?_
    rw [hx, hy]
    split <;> exact inStep_pure fun _ _ => rfl

/-- A fresh instance has no numbers in it. -/
theorem inStep_fresh (t : Ty) : InStep sink ν Value.Renumbered (Constructor.fresh t) (Constructor.fresh t) := by
  unfold Constructor.fresh
  split
  · refine InStep.bind (A := Equal) (inStep_allocate fun ν' _ h h' hh => ?_) fun _ _ o o' ho => ?_
    · obtain ⟨hid, hheap⟩ := hh.allocObject t
      exact ⟨ν', le_rfl, hid, hheap⟩
    · rw [ho]
      exact inStep_pure fun _ _ => .object o
  · exact inStep_pure fun ν' _ => Value.renumbered_zeroOf ν' t

end Host

/-! ## Computations on a frame -/

namespace Exec

variable {α β : Type} {sink : Sink} {ν : Numbering} {A : Numbering → α → β → Prop} {v v' w w' : Value}
  {p p' : Location}

/-- Computations on a frame that go on in step. -/
abbrev Together (sink : Sink) (ν : Numbering) (A : Numbering → α → β → Prop) (e : Exec α) (e' : Exec β) : Prop :=
  InStep (Machine.Renumbered sink) ν A e e'

/-- Computations of the world that agree leave machines that agree. -/
theorem agrees_lift {c : Host α} {c' : Host β} {m m' : Machine} (hm : m.Renumbered sink ν m')
    (h : Agrees (World.Renumbered sink) ν A (c.run m.world) (c'.run m'.world)) :
    Agrees (Machine.Renumbered sink) ν A ((liftM c : Exec α).run m) ((liftM c' : Exec β).run m') := by
  rw [run_lift, run_lift]
  have hkeeps : ∀ {ν'} {w w' : World}, ν ≤ ν' → w.Renumbered sink ν' w' →
      Machine.Renumbered sink ν' { m with world := w } { m' with world := w' } := by
    intro ν' w w' hle hw
    exact {
      args := hm.args.values hle
      locals := fun i k hik => by
        rw [hle.slots] at hik
        obtain ⟨v, v', hv, hv', hvv⟩ := hm.locals i k hik
        exact ⟨v, v', hv, hv', hvv.mono hle⟩
      apart := by rw [hle.slots]; exact hm.apart
      stack := hm.stack.imp fun _ _ hv => hv.mono hle
      world := hw }
  generalize c.run m.world = r, c'.run m'.world = r' at h
  cases h with
  | ok hle hw ha => exact .ok hle (hkeeps hle hw) ha
  | error hle hw hr => exact .error hle (hkeeps hle hw) hr

theorem together_lift {c : Host α} {c' : Host β} (h : Host.InStep sink ν A c c') :
    Together sink ν A (liftM c) (liftM c') :=
  fun ν' hle _ _ hm => agrees_lift hm (h ν' hle _ _ hm.world)

theorem together_fail (f : Fault) : Together sink ν A (fail f : Exec α) (fail f : Exec β) := inStep_halt _

/-! ### The evaluation stack -/

theorem together_setStack {vs vs' : List Value} (h : List.Forall₂ (Value.Renumbered ν) vs vs') :
    Together sink ν Any (setStack vs) (setStack vs') :=
  fun _ hle _ _ hm => .ok le_rfl { hm with stack := h.imp fun _ _ hv => hv.mono hle } trivial

theorem together_push (hv : v.Renumbered ν v') : Together sink ν Any (push v) (push v') :=
  fun _ hle _ _ hm => .ok le_rfl { hm with stack := .cons (hv.mono hle) hm.stack } trivial

theorem together_pop : Together sink ν Value.Renumbered pop pop := by
  refine inStep_get.bind fun ν₁ _ m m' hm => ?_
  generalize m.frame.stack = vs, m'.frame.stack = vs', hm.stack = hstack
  cases hstack with
  | nil => exact together_fail _
  | cons hv hvs =>
    exact (together_setStack hvs).bind fun _ hle _ _ _ => inStep_pure fun _ hle' => hv.mono (hle.trans hle')

theorem together_popMany (n : Nat) :
    Together sink ν (fun ν => List.Forall₂ (Value.Renumbered ν)) (popMany n) (popMany n) := by
  refine inStep_get.bind fun ν₁ _ m m' hm => ?_
  have htake := List.forall₂_take n hm.stack
  dsimp only
  rw [← htake.length_eq]
  split
  · exact together_fail _
  · refine (together_setStack (List.forall₂_drop n hm.stack)).bind fun _ hle _ _ _ => inStep_pure fun _ hle' => ?_
    exact (List.rel_reverse htake).imp fun _ _ hv => hv.mono (hle.trans hle')

theorem together_top : Together sink ν Value.Renumbered top top := by
  refine inStep_get.bind fun ν₁ _ m m' hm => ?_
  generalize m.frame.stack = vs, m'.frame.stack = vs', hm.stack = hstack
  cases hstack with
  | nil => exact together_fail _
  | cons hv hvs => exact inStep_pure fun _ hle => hv.mono hle

/-! ### Slots and locations -/

theorem together_getArg (i : Nat) : Together sink ν Value.Renumbered (getArg i) (getArg i) := by
  refine inStep_get.bind fun ν₁ _ m m' hm => ?_
  unfold slotAt
  rw [hm.args.size]
  generalize m.frame.args[i]? = x, m'.frame.args[i]? = y, hm.args.get i = hget
  cases hget with
  | some hv => exact inStep_pure fun _ hle => hv.mono hle
  | none => exact together_fail _

theorem together_getLocal {i k : Nat} (h : ν.slots i k) :
    Together sink ν Value.Renumbered (getLocal i) (getLocal k) := by
  refine inStep_get.bind fun ν₁ hle m m' hm => ?_
  obtain ⟨v, v', hv, hv', hvv⟩ := hm.locals i k (hle.slots ▸ h)
  unfold slotAt
  rw [hv, hv']
  exact inStep_pure fun _ hle => hvv.mono hle

theorem together_setArg (i : Nat) (hv : v.Renumbered ν v') : Together sink ν Any (setArg i v) (setArg i v') := by
  refine inStep_get.bind fun ν₁ hle m m' hm => ?_
  have hcheck : Together sink ν₁ Any (checkSlot m.frame.args i) (checkSlot m'.frame.args i) := by
    unfold checkSlot
    rw [hm.args.size]
    split
    · exact inStep_pure fun _ _ => trivial
    · exact together_fail _
  exact hcheck.bind fun ν₂ hle' _ _ _ ν₃ hle'' m m' hm => .ok le_rfl
    { hm with args := hm.args.set i (hv.mono (hle.trans (hle'.trans hle''))) } trivial

theorem together_setLocal {i k : Nat} (h : ν.slots i k) (hv : v.Renumbered ν v') :
    Together sink ν Any (setLocal i v) (setLocal k v') := by
  refine inStep_get.bind fun ν₁ hle m m' hm => ?_
  obtain ⟨x, x', hx, hx', -⟩ := hm.locals i k (hle.slots ▸ h)
  unfold checkSlot
  rw [if_pos (Array.getElem?_eq_some_iff.1 hx).1, if_pos (Array.getElem?_eq_some_iff.1 hx').1]
  refine (inStep_pure (A := Any) fun _ _ => trivial).bind fun ν₂ hle' _ _ _ ν₃ hle'' m m' hm => ?_
  have hle₃ := hle.trans (hle'.trans hle'')
  refine .ok le_rfl { hm with locals := fun i' k' hik' => ?_ } trivial
  -- the slot that is set is the one that belongs to the other, and no other one is
  obtain ⟨y, y', hy, hy', hyy⟩ := hm.locals i' k' hik'
  have hik : ν₃.slots i k := hle₃.slots ▸ h
  rw [Array.getElem?_setIfInBounds, Array.getElem?_setIfInBounds]
  by_cases heq : i = i'
  · have hlt := (Array.getElem?_eq_some_iff.1 hy).1
    have hlt' := (Array.getElem?_eq_some_iff.1 hy').1
    have heq' := (hm.apart i k i' k' hik hik').1 heq
    rw [if_pos heq, if_pos heq', heq, heq', if_pos hlt, if_pos hlt']
    exact ⟨v, v', rfl, rfl, hv.mono hle₃⟩
  · rw [if_neg heq, if_neg (mt (hm.apart i k i' k' hik hik').2 heq)]
    exact ⟨y, y', hy, hy', hyy⟩

theorem together_load (hp : p.Renumbered ν p') : Together sink ν Value.Renumbered (load p) (load p') := by
  cases hp with
  | argument i => exact together_getArg i
  | «variable» h => exact together_getLocal h
  | element a i =>
    refine (together_lift Host.inStep_heap).bind fun ν₁ hle h h' hh => together_lift (Host.inStep_ofExcept ?_)
    refine (hh.getItem a (indexOf i)).imp_left fun ⟨v, v', hv, hv', hvv⟩ => ?_
    exact ⟨v, v', hv, hv', fun _ hle' => hvv.mono hle'⟩
  | boxed h =>
    refine (together_lift Host.inStep_heap).bind fun ν₁ hle h₁ h₁' hh => inStep_pure fun _ hle' => ?_
    exact (hh.getBox (hle.boxes _ _ h)).mono hle'

theorem together_store (hp : p.Renumbered ν p') (hv : v.Renumbered ν v') :
    Together sink ν Any (store p v) (store p' v') := by
  cases hp with
  | argument i => exact together_setArg i hv
  | «variable» h => exact together_setLocal h hv
  | element a i => exact together_lift (Host.inStep_setItem a _ hv)
  | boxed h =>
    exact together_lift (Host.inStep_modifyHeap fun _ hle _ _ hh => hh.setBox (hle.boxes _ _ h) (hv.mono hle))

theorem together_readThrough (hv : v.Renumbered ν v') :
    Together sink ν Value.Renumbered (readThrough v) (readThrough v') := by
  cases hv with
  | @constant v h =>
    cases v with
    | address p => cases h
    | _ => exact inStep_pure fun _ _ => .constant h
  | array a => exact inStep_pure fun _ _ => .array a
  | object o => exact inStep_pure fun _ _ => .object o
  | struct t hlength hfields => exact inStep_pure fun _ hle => (Value.Renumbered.struct t hlength hfields).mono hle
  | boxed h => exact inStep_pure fun _ hle => .boxed (hle.boxes _ _ h)
  | address h => exact together_load h

end Exec

/-! ## Bodies -/

/-- A body does **not look at numbers** and reports: with arguments and a world that are the same but for those, it
goes on alike. -/
def HostBody.DiscreetAt (sink : Sink) (body : HostBody) (args : List Value) (w : World) : Prop :=
  ∀ (ν : Numbering) (args' : List Value) (w' : World), List.Forall₂ (Value.Renumbered ν) args args' →
    w.Renumbered sink ν w' → Exec.Agrees (World.Renumbered sink) ν
      (fun ν x x' => x.1.Renumbered ν x'.1 ∧ List.Forall₂ (Value.Renumbered ν) x.2 x'.2)
      ((body args).run w) ((body args').run w')

end Stackwright
