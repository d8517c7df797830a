import Stackwright.Proofs.Tracing.Abreast
import Stackwright.Proofs.Value.Receivers
import Stackwright.Proofs.Value.Renumbering

/-! # Instructions under another numbering

Every instruction goes on in step, with two provisos. A body that is entered must not look at numbers itself; and
structs that are tested for identity must not be nested in a cycle, since how far a comparison looks depends on
how many boxes there are.

* **`Instruction.DiscreetAt sink m i`** — an instruction does not look at numbers on a machine.
* **`Instruction.Related.agrees`** — two instructions that belong together go on in step. -/

namespace Stackwright

namespace Exec

variable {α β : Type} {sink : Sink} {ν : Numbering} {A : Numbering → α → β → Prop} {v v' w w' : Value}
  {p p' : Location}

/-! ## Operands -/

theorem together_refuseCast (found : Option Ty) (hv : v.Renumbered ν v') (t : Ty) :
    Together sink ν A (refuseCast found v t : Exec α) (refuseCast found v' t : Exec β) := by
  cases found with
  | some u => exact (inStep_pure (A := Equal) fun _ _ => rfl).bind fun _ _ x x' hx => hx ▸ together_fail _
  | none =>
    exact (together_lift Host.inStep_heap).bind fun _ hle _ _ hh =>
      inStep_throw fun _ hle' => .fault (.cast hle' hh (hv.mono hle) t)

theorem together_popIndex : Together sink ν Equal popIndex popIndex :=
  together_pop.bind fun _ _ _ _ hv => together_lift (Host.inStep_expectSame _ hv hv.index?)

theorem together_popArray : Together sink ν Equal popArray popArray := by
  refine together_pop.bind fun ν₁ _ v v' hv => ?_
  cases hv with
  | @constant v h =>
    cases v with
    | null => exact together_fail _
    | array a => cases h
    | _ => exact together_lift (Host.inStep_unexpected _ (.constant h))
  | array a => exact inStep_pure fun _ _ => rfl
  | object o => exact together_lift (Host.inStep_unexpected _ (.object o))
  | struct t hlength hfields => exact together_lift (Host.inStep_unexpected _ (.struct t hlength hfields))
  | boxed h => exact together_lift (Host.inStep_unexpected _ (.boxed h))
  | address h => exact together_lift (Host.inStep_unexpected _ (.address h))

theorem together_popAddress : Together sink ν Location.Renumbered popAddress popAddress := by
  refine together_pop.bind fun ν₁ _ v v' hv => ?_
  cases hv with
  | @constant v h =>
    cases v with
    | null => exact together_fail _
    | address p => cases h
    | _ => exact together_lift (Host.inStep_unexpected _ (.constant h))
  | array a => exact together_lift (Host.inStep_unexpected _ (.array a))
  | object o => exact together_lift (Host.inStep_unexpected _ (.object o))
  | struct t hlength hfields => exact together_lift (Host.inStep_unexpected _ (.struct t hlength hfields))
  | boxed h => exact together_lift (Host.inStep_unexpected _ (.boxed h))
  | address h => exact inStep_pure fun _ hle => h.mono hle

theorem together_popFit (kind : Option ScalarKind) :
    Together sink ν Value.Renumbered (popFit kind) (popFit kind) :=
  together_pop.bind fun _ _ _ _ hv => inStep_pure fun _ hle => (hv.fit kind).mono hle

theorem together_onTwo {op op' : Value → Value → Host Value}
    (h : ∀ ν', ν ≤ ν' → ∀ v v' w w' : Value, v.Renumbered ν' v' → w.Renumbered ν' w' →
      Host.InStep sink ν' Value.Renumbered (op v w) (op' v' w')) :
    Together sink ν Any (onTwo op) (onTwo op') :=
  together_pop.bind fun _ hle _ _ hw => together_pop.bind fun _ hle' _ _ hv =>
    (together_lift (h _ (hle.trans hle') _ _ _ _ hv (hw.mono hle'))).bind fun _ _ _ _ hr => together_push hr

/-! ## Boxes and fields -/

/-- A new box in both heaps. -/
theorem together_allocBox (t : Ty) (hv : v.Renumbered ν v') :
    Together sink ν (fun ν b b' => ν.boxes b.index b'.index)
      (liftM (Host.allocate (·.allocBox t v)) : Exec BoxId) (liftM (Host.allocate (·.allocBox t v')) : Exec BoxId) :=
  together_lift (Host.inStep_allocate fun ν' hle _ _ hh =>
    ⟨_, ν'.le_withBox _ _, .inr ⟨rfl, rfl⟩, hh.allocBox t (hv.mono hle)⟩)

theorem together_boxFor (t : Ty) (hv : v.Renumbered ν v') :
    Together sink ν (fun ν b b' => ν.boxes b.index b'.index) (boxFor t v) (boxFor t v') := by
  refine (together_lift Host.inStep_heap).bind fun ν₁ hle h h' hh => ?_
  have hv := hv.mono hle
  have htype := hh.typeOf? hv
  -- a bare value gets a box of its own
  have hbare : Together sink ν₁ (fun ν b b' => ν.boxes b.index b'.index)
      ((h.typeOf? v).elim (refuseCast none v t) fun found =>
        if found.unboxesAs t then liftM (Host.allocate (·.allocBox t v)) else refuseCast (some found) v t)
      ((h'.typeOf? v').elim (refuseCast none v' t) fun found =>
        if found.unboxesAs t then liftM (Host.allocate (·.allocBox t v')) else refuseCast (some found) v' t) := by
    rw [htype]
    cases h.typeOf? v with
    | none =>
      rw [Option.elim_none, Option.elim_none]
      exact together_refuseCast _ hv t
    | some found =>
      rw [Option.elim_some, Option.elim_some]
      split
      · exact together_allocBox t hv
      · exact together_refuseCast _ hv t
  cases hv with
  | @constant v hc =>
    cases v with
    | null => exact together_fail _
    | boxed b => cases hc
    | _ => exact hbare
  | boxed hb =>
    have hcell := hh.boxes _ _ hb
    dsimp only
    rw [hcell.type, htype]
    split
    · exact inStep_pure fun _ hle' => hle'.boxes _ _ hb
    · exact together_refuseCast _ (.boxed hb) t
  | _ => exact hbare

theorem together_slotNumber (f : Field) : Together sink ν Equal (slotNumber f) (slotNumber f) := by
  unfold slotNumber
  split
  · exact inStep_pure fun _ _ => rfl
  · exact together_fail _

theorem together_ofFields (i : Nat) {xs ys : List Value} (hlength : ys.length = xs.length)
    (hfields : ∀ (i : Nat) (x y : Value), xs[i]? = some x → ys[i]? = some y → x.Renumbered ν y) :
    Together sink ν Value.Renumbered
      (match xs[i]? with | some v => pure v | none => fail (.outside i xs.length) : Exec Value)
      (match ys[i]? with | some v => pure v | none => fail (.outside i ys.length) : Exec Value) := by
  rw [hlength]
  rcases Nat.lt_or_ge i xs.length with hi | hi
  · have hx := List.getElem?_eq_getElem hi
    have hy := List.getElem?_eq_getElem (hlength.symm ▸ hi)
    rw [hx, hy]
    exact inStep_pure fun _ hle => (hfields i _ _ hx hy).mono hle
  · rw [List.getElem?_eq_none hi, List.getElem?_eq_none (hlength.symm ▸ hi)]
    exact together_fail _

/-- What is in a box, and what is no box, is the same in both heaps. -/
theorem renumbered_unboxed {h h' : Heap} (hh : h.Renumbered ν h') (hv : v.Renumbered ν v') :
    (h.unboxed v).Renumbered ν (h'.unboxed v') := by
  cases hv with
  | @constant v hc =>
    cases v with
    | boxed b => cases hc
    | _ => exact .constant hc
  | array a => exact .array a
  | object o => exact .object o
  | struct t hlength hfields => exact .struct t hlength hfields
  | boxed hb => exact hh.getBox hb
  | address hp => exact .address hp

theorem together_lookUp {h h' : Heap} (hh : h.Renumbered ν h') (i : Nat) (hv : v.Renumbered ν v') :
    Together sink ν Value.Renumbered (lookUp h i v) (lookUp h' i v') := by
  cases hv with
  | @constant v hc =>
    cases v with
    | null => exact together_fail _
    | object o => cases hc
    | struct t xs => cases hc
    | _ => exact together_lift (Host.inStep_unexpected _ (.constant hc))
  | array a => exact together_lift (Host.inStep_unexpected _ (.array a))
  | object o =>
    refine together_lift (Host.inStep_ofExcept ((hh.getField o i).imp_left fun ⟨v, v', hv, hv', hvv⟩ => ?_))
    exact ⟨v, v', hv, hv', fun _ hle => hvv.mono hle⟩
  | struct t hlength hfields => exact together_ofFields i hlength hfields
  | boxed hb => exact together_lift (Host.inStep_unexpected _ (.boxed hb))
  | address hp => exact together_lift (Host.inStep_unexpected _ (.address hp))

theorem together_fieldOf (i : Nat) (hv : v.Renumbered ν v') :
    Together sink ν Value.Renumbered (fieldOf v i) (fieldOf v' i) := by
  intro ν₁ hle m m' hm
  rw [fieldOf_eq, fieldOf_eq]
  -- the heap is read before the address is, which leaves it as it was
  refine ((together_readThrough (hv.mono hle)) ν₁ le_rfl m m' hm).bind fun ν₂ _ x x' m₁ m₁' hx hx' hm₁ hxx => ?_
  obtain rfl := (quiet_readThrough v).ok hx
  obtain rfl := (quiet_readThrough v').ok hx'
  exact together_lookUp hm₁.world.heap i (renumbered_unboxed hm₁.world.heap hxx) ν₂ le_rfl _ _ hm₁

/-- What is in a struct with another field. -/
theorem renumbered_setField (t : Ty) {xs ys : List Value} (hlength : ys.length = xs.length)
    (hfields : ∀ (i : Nat) (x y : Value), xs[i]? = some x → ys[i]? = some y → x.Renumbered ν y) (i : Nat)
    (hv : v.Renumbered ν v') : (Value.struct t (xs.set i v)).Renumbered ν (.struct t (ys.set i v')) := by
  refine .struct t (by simp [hlength]) fun j x y hx hy => ?_
  rw [List.getElem?_set] at hx hy
  rw [hlength] at hy
  split at hx
  · rename_i hij
    rw [if_pos hij] at hy
    split at hx
    · cases hx
      rename_i hlt
      rw [if_pos hlt] at hy
      cases hy
      exact hv
    · cases hx
  · rename_i hij
    rw [if_neg hij] at hy
    exact hfields j x y hx hy

theorem together_withField (i : Nat) (hv : v.Renumbered ν v') (hw : w.Renumbered ν w') :
    Together sink ν Value.Renumbered (withField v i w) (withField v' i w') := by
  cases hv with
  | @constant v hc =>
    cases v with
    | null => exact together_fail _
    | object o => cases hc
    | struct t xs => cases hc
    | _ => exact together_lift (Host.inStep_unexpected _ (.constant hc))
  | array a => exact together_lift (Host.inStep_unexpected _ (.array a))
  | object o =>
    exact (together_lift (Host.inStep_setField o i hw)).bind fun _ _ _ _ _ => inStep_pure fun _ _ => .object o
  | @struct t xs ys hlength hfields =>
    unfold withField
    dsimp only
    rw [hlength]
    split
    · exact inStep_pure fun _ hle => (renumbered_setField t hlength hfields i hw).mono hle
    · exact together_fail _
  | boxed hb => exact together_lift (Host.inStep_unexpected _ (.boxed hb))
  | address hp => exact together_lift (Host.inStep_unexpected _ (.address hp))

theorem together_setFieldOf (i : Nat) (hv : v.Renumbered ν v') (hw : w.Renumbered ν w') :
    Together sink ν Any (setFieldOf v i w) (setFieldOf v' i w') := by
  cases hv with
  | @constant v hc =>
    cases v with
    | null => exact together_fail _
    | object o => cases hc
    | address p => cases hc
    | boxed b => cases hc
    | _ => exact together_lift (Host.inStep_unexpected _ (.constant hc))
  | array a => exact together_lift (Host.inStep_unexpected _ (.array a))
  | object o => exact together_lift (Host.inStep_setField o i hw)
  | struct t hlength hfields => exact together_lift (Host.inStep_unexpected _ (.struct t hlength hfields))
  | boxed hb =>
    refine (together_lift Host.inStep_heap).bind fun ν₁ hle h h' hh => ?_
    refine (together_withField i (hh.getBox (hle.boxes _ _ hb)) (hw.mono hle)).bind fun ν₂ hle' x x' hx => ?_
    have hb₂ := (hle.trans hle').boxes _ _ hb
    exact together_lift (Host.inStep_modifyHeap fun _ hle₃ _ _ hh' => hh'.setBox (hle₃.boxes _ _ hb₂) (hx.mono hle₃))
  | address hp =>
    refine (together_load hp).bind fun ν₁ hle x x' hx => ?_
    exact (together_withField i hx (hw.mono hle)).bind fun ν₂ hle' y y' hy =>
      together_store (hp.mono (hle.trans hle')) hy

/-! ## Calls -/

variable {m m' : Machine}

/-- A receiver is read in both runs, and null is refused in both. -/
theorem together_openReceiver (f : Method) {vs vs' : List Value}
    (hvs : List.Forall₂ (Value.Renumbered ν) vs vs') :
    Together sink ν (fun ν x x' => List.Forall₂ (Value.Renumbered ν) x.1 x'.1 ∧
      Option.Rel (Location.Renumbered ν) x.2 x'.2) (openReceiver f vs) (openReceiver f vs') := by
  unfold openReceiver
  cases f.isStatic with
  | true => exact inStep_pure fun _ hle => ⟨hvs.imp fun _ _ hv => hv.mono hle, .none⟩
  | false =>
    cases hvs with
    | nil => exact inStep_pure fun _ _ => ⟨.nil, .none⟩
    | @cons v v' rest rest' hv hrest =>
      have hplain : ∀ ν' ≥ ν, Together sink ν' (fun ν x x' => List.Forall₂ (Value.Renumbered ν) x.1 x'.1 ∧
          Option.Rel (Location.Renumbered ν) x.2 x'.2)
          (if (v.isNull && f.isVirtual) = true then fail .nullReference else pure (v :: rest, none))
          (if (v'.isNull && f.isVirtual) = true then fail .nullReference else pure (v' :: rest', none)) := by
        intro ν' hle
        rw [hv.isNull]
        split
        · exact together_fail _
        · exact inStep_pure fun _ hle' => ⟨.cons (hv.mono (hle.trans hle'))
            (hrest.imp fun _ _ hv => hv.mono (hle.trans hle')), .none⟩
      cases hv with
      | @constant v hc =>
        cases v with
        | address p => cases hc
        | _ => exact hplain ν le_rfl
      | address hp =>
        refine (together_load hp).bind fun ν₁ hle x x' hx => ?_
        rw [hx.isNull]
        split
        · exact together_fail _
        · exact inStep_pure fun _ hle' => ⟨.cons (hx.mono hle')
            (hrest.imp fun _ _ hv => hv.mono (hle.trans hle')), .some (hp.mono (hle.trans hle'))⟩
      | _ => exact hplain ν le_rfl

/-- The arguments of a call are popped, and the receiver is opened. -/
theorem together_operands (f : Method) :
    Together sink ν (fun ν x x' => List.Forall₂ (Value.Renumbered ν) x.1 x'.1 ∧
      Option.Rel (Location.Renumbered ν) x.2 x'.2)
      (do openReceiver f (← popMany f.arity)) (do openReceiver f (← popMany f.arity)) :=
  (together_popMany f.arity).bind fun _ _ _ _ hvs => together_openReceiver f hvs

theorem together_settle (f : Method) {origin origin' : Option Location} {result result' : Value}
    {left left' : List Value} (horigin : Option.Rel (Location.Renumbered ν) origin origin')
    (hresult : result.Renumbered ν result') (hleft : List.Forall₂ (Value.Renumbered ν) left left') :
    Together sink ν Any (settle f origin result left) (settle f origin' result' left') := by
  have hlast : ∀ ν' ≥ ν, Together sink ν' Any (settle f none result left) (settle f none result' left') := by
    intro ν' hle
    unfold settle
    dsimp only
    cases f.ret with
    | some t => exact together_push ((hresult.mono hle).fit _)
    | none => exact inStep_pure fun _ _ => trivial
  cases horigin with
  | none => exact hlast ν le_rfl
  | some hp =>
    cases hleft with
    | nil => exact hlast ν le_rfl
    | cons hv _ => exact (together_store hp hv).bind fun ν' hle _ _ _ => hlast ν' hle

/-- A call is made of its operands, the body, and what is left to do. -/
theorem call_eq (f : Method) : call f = (do
    let x ← (do openReceiver f (← popMany f.arity) : Exec _)
    let y ← (f.call x.1 : Host _)
    settle f x.2 y.1 y.2) := by
  rw [call, bind_assoc]
  rfl

end Exec

/-! ## Operations -/

/-- The two topmost values of a machine are not structs that are nested in a cycle. -/
def Machine.Untangled (m : Machine) : Prop :=
  ∀ v ∈ m.frame.stack.take 2, ∀ t xs, v = .struct t xs → v.Acyclic m.world.heap.Holds

namespace Exec

variable {α β : Type} {sink : Sink} {ν : Numbering} {A : Numbering → α → β → Prop} {m m' : Machine}

/-- Only the top is popped. -/
theorem eq_of_pop {v : Value} {m₁ : Machine} (h : pop.run m = .ok v m₁) :
    ∃ rest, m.frame.stack = v :: rest ∧ m₁ = m.withStack rest := by
  obtain ⟨⟨args, locals, stack⟩, world⟩ := m
  cases stack with
  | nil => cases h
  | cons w rest =>
    cases h
    exact ⟨rest, rfl, rfl⟩

/-- Two values are popped and compared for identity, in a way that does not tell numbers. -/
theorem agrees_identical (f : Bool → Exec α) (f' : Bool → Exec β) (hm : m.Renumbered sink ν m')
    (huntangled : m.Untangled) (hf : ∀ ν' ≥ ν, ∀ r, Together sink ν' A (f r) (f' r)) :
    Agrees (Machine.Renumbered sink) ν A
      ((do let b ← pop; let a ← pop; let h ← (Host.heap : Exec Heap); f (h.identical a b)).run m)
      ((do let b ← pop; let a ← pop; let h ← (Host.heap : Exec Heap); f' (h.identical a b)).run m') := by
  refine (together_pop ν le_rfl _ _ hm).bind fun ν₁ hle b b' m₁ m₁' hb _ hm₁ hbb => ?_
  refine (together_pop ν₁ le_rfl _ _ hm₁).bind fun ν₂ hle' a a' m₂ m₂' ha _ hm₂ haa => ?_
  obtain ⟨rest, hstack, rfl⟩ := eq_of_pop hb
  obtain ⟨rest', hstack', rfl⟩ := eq_of_pop ha
  obtain rfl : rest = a :: rest' := hstack'
  have hcycle := huntangled a (by simp [hstack])
  have hcycle' := huntangled b (by simp [hstack])
  have hsame := hm₂.world.heap.identical haa (hbb.mono hle') hcycle hcycle'
  show Agrees _ _ _ ((f (m.world.heap.identical a b)).run _) ((f' (m₂'.world.heap.identical a' b')).run m₂')
  rw [hsame]
  exact hf ν₂ (hle.trans hle') _ ν₂ le_rfl _ _ hm₂

/-- A new array of zeros has the same number in both heaps. -/
theorem together_allocZeros (t : Ty) (n : Nat) :
    Together sink ν Equal (liftM (Host.allocate (·.allocZeros t n)) : Exec ArrayId)
      (liftM (Host.allocate (·.allocZeros t n)) : Exec ArrayId) := by
  refine together_lift (Host.inStep_allocate fun ν' _ h h' hh => ?_)
  obtain ⟨hid, hheap⟩ := hh.allocArray t (Matches.replicate n (Value.renumbered_zeroOf ν' t))
  exact ⟨ν', le_rfl, hid, hheap⟩

theorem together_getItem (a : ArrayId) (i : Int) : Together sink ν Value.Renumbered
    (do let h ← (Host.heap : Exec Heap); (Host.ofExcept (h.getItem a i) : Host Value))
    (do let h ← (Host.heap : Exec Heap); (Host.ofExcept (h.getItem a i) : Host Value)) := by
  refine (together_lift Host.inStep_heap).bind fun ν₁ _ h h' hh => together_lift (Host.inStep_ofExcept ?_)
  refine (hh.getItem a i).imp_left fun ⟨v, v', hv, hv', hvv⟩ => ?_
  exact ⟨v, v', hv, hv', fun _ hle => hvv.mono hle⟩

/-- What is thrown is shown with the numbers that it has. -/
theorem together_throwing {v v' : Value} : v.Renumbered ν v' → Together sink ν A
    (match v with
      | .null => fail .nullReference
      | v => do fail (.thrown (← (Host.display v : Exec String))) : Exec α)
    (match v' with
      | .null => fail .nullReference
      | v => do fail (.thrown (← (Host.display v : Exec String))) : Exec β) := by
  intro hv
  have hthrow : Together sink ν A (do fail (.thrown (← (Host.display v : Exec String))) : Exec α)
      (do fail (.thrown (← (Host.display v' : Exec String))) : Exec β) := by
    intro ν' hle m m' hm
    exact .error le_rfl hm (.fault (.thrown le_rfl hm.world.heap (hv.mono hle)))
  cases hv with
  | @constant v hc =>
    cases v with
    | null => exact together_fail _
    | _ => exact hthrow
  | _ => exact hthrow

/-- The first of some values. -/
theorem renumbered_headD {vs vs' : List Value} (h : List.Forall₂ (Value.Renumbered ν) vs vs') :
    (vs.headD .null).Renumbered ν (vs'.headD .null) := by
  cases h with
  | nil => exact .constant rfl
  | cons hv _ => exact hv

end Exec

/-! ## Bodies that are entered -/

namespace Op

variable {sink : Sink} {ν : Numbering} {m m' : Machine} {o : Op}

/-- An operation does **not look at numbers** on a machine: the body that it enters does not, and structs that it
tests for identity are not nested in a cycle. -/
def DiscreetAt (sink : Sink) (m : Machine) : Op → Prop
  | .call f => ∀ args w, (Op.call f).Enters m args w → f.body.DiscreetAt sink args w
  | .instantiate c => ∀ args w, (Op.instantiate c).Enters m args w → c.body.DiscreetAt sink args w
  | .identical => m.Untangled
  | _ => True

/-- An operation that uses no local does the same in both runs. -/
theorem agrees_plain (hplain : o.isPlain) (hd : o.DiscreetAt sink m) (hm : m.Renumbered sink ν m') :
    Exec.Agrees (Machine.Renumbered sink) ν Exec.Any (o.execute.run m) (o.execute.run m') := by
  open Exec in
  -- all but three go on alike wherever they are done
  have htogether : ∀ e : Exec Unit, Together sink ν Any e e →
      Agrees (Machine.Renumbered sink) ν Any (e.run m) (e.run m') := fun e he => he ν le_rfl m m' hm
  cases o with
  | loadLocal i => cases hplain
  | storeLocal i kind => cases hplain
  | addressLocal i => cases hplain
  | push v => exact htogether _ (together_push (.constant hplain))
  | loadArg i => exact htogether _ ((together_getArg i).bind fun _ _ _ _ hv => together_push hv)
  | storeArg i kind => exact htogether _ ((together_popFit kind).bind fun _ _ _ _ hv => together_setArg i hv)
  | addressArg i => exact htogether _ (together_push (.address (.argument i)))
  | add => exact htogether _ (together_onTwo fun _ _ _ _ _ _ hv hw => Host.inStep_arithmetic _ hv hw)
  | sub => exact htogether _ (together_onTwo fun _ _ _ _ _ _ hv hw => Host.inStep_arithmetic _ hv hw)
  | and => exact htogether _ (together_onTwo fun _ _ _ _ _ _ hv hw => Host.inStep_bitwise _ hv hw)
  | or => exact htogether _ (together_onTwo fun _ _ _ _ _ _ hv hw => Host.inStep_bitwise _ hv hw)
  | not =>
    exact htogether _ (together_pop.bind fun _ _ _ _ hv =>
      (together_lift (Host.inStep_complement hv)).bind fun _ _ _ _ hw => together_push hw)
  | identical =>
    exact agrees_identical (fun r => Exec.push (.ofBool r)) (fun r => Exec.push (.ofBool r)) hm hd
      fun _ _ r => together_push (.constant rfl)
  | dup => exact htogether _ (together_top.bind fun _ _ _ _ hv => together_push hv)
  | pop => exact htogether _ (together_pop.bind fun _ _ _ _ _ => inStep_pure fun _ _ => trivial)
  | convert kind =>
    refine htogether _ (together_pop.bind fun ν₁ _ v v' hv => ?_)
    refine (together_lift (A := Value.Renumbered) (Host.inStep_expect _ hv ?_)).bind fun _ _ _ _ hw => together_push hw
    exact optionRel_imp (fun _ _ hr ν' (hle : ν₁ ≤ ν') => hr.mono hle) (hv.convert? kind)
  | box t =>
    refine htogether _ (together_pop.bind fun _ _ _ _ hv => (together_readThrough hv).bind fun _ _ _ _ hw => ?_)
    exact (together_allocBox t (hw.fit _)).bind fun _ _ _ _ hb => together_push (.boxed hb)
  | openBox t =>
    refine htogether _ (together_pop.bind fun _ _ _ _ hv => (together_boxFor t hv).bind fun _ _ _ _ hb => ?_)
    exact together_push (.address (.boxed hb))
  | loadThrough =>
    exact htogether _ (together_pop.bind fun _ _ _ _ hv => (together_readThrough hv).bind fun _ _ _ _ hw =>
      together_push hw)
  | storeThrough kind =>
    exact htogether _ ((together_popFit kind).bind fun _ _ _ _ hv => together_popAddress.bind fun _ hle _ _ hp =>
      together_store hp (hv.mono hle))
  | zeroThrough t =>
    exact htogether _ (together_popAddress.bind fun ν₁ _ _ _ hp => together_store hp (Value.renumbered_zeroOf ν₁ t))
  | checkCast t =>
    refine htogether _ (together_pop.bind fun ν₁ _ v v' hv =>
      (together_lift Host.inStep_heap).bind fun ν₂ hle h h' hh => ?_)
    have hv := hv.mono hle
    rw [hh.typeOf? hv]
    split
    · split
      · exact together_push hv
      · exact together_refuseCast _ hv t
    · exact together_push hv
  | instantiate c =>
    refine (together_popMany c.params.length ν le_rfl m m' hm).bind fun ν₁ hle vs vs' m₁ m₁' hpop _ hm₁ hvs => ?_
    have hmake : Agrees (World.Renumbered sink) ν₁ Value.Renumbered ((c.make vs).run m₁.world)
        ((c.make vs').run m₁'.world) := by
      refine (Host.inStep_fresh c.owner ν₁ le_rfl _ _ hm₁.world).bind fun ν₂ hle' v v' w w' hfresh _ hw hv => ?_
      have hbody := hd (v :: vs) w (.maker hpop hfresh) ν₂ (v' :: vs') w'
        (.cons hv (hvs.imp fun _ _ hv => hv.mono hle')) hw
      refine hbody.bind fun ν₃ _ y y' w₁ w₁' _ _ hw₁ hy => .ok le_rfl hw₁ ?_
      exact renumbered_headD hy.2
    exact (agrees_lift hm₁ hmake).bind fun ν₂ _ v v' m₂ m₂' _ _ hm₂ hv => together_push hv ν₂ le_rfl _ _ hm₂
  | call f =>
    show Agrees _ _ _ ((Exec.call f).run m) ((Exec.call f).run m')
    rw [call_eq]
    refine (together_operands f ν le_rfl m m' hm).bind fun ν₁ hle x x' m₁ m₁' hx _ hm₁ hxx => ?_
    have henters : (Op.call f).Enters m x.1 m₁.world := @Op.Enters.method m f x.1 x.2 m₁ hx
    have hbody := hd x.1 m₁.world henters ν₁ x'.1 m₁'.world hxx.1 hm₁.world
    refine (agrees_lift hm₁ hbody).bind fun ν₂ hle' y y' m₂ m₂' _ _ hm₂ hyy => ?_
    exact together_settle f (optionRel_imp (fun _ _ hp => hp.mono hle') hxx.2) hyy.1 hyy.2 ν₂ le_rfl _ _ hm₂
  | makeArray element =>
    refine htogether _ (together_popIndex.bind fun ν₁ _ n n' hn => ?_)
    rw [hn]
    split
    · exact together_fail _
    · refine (together_allocZeros element _).bind fun _ _ a a' ha => ?_
      rw [ha]
      exact together_push (.array a)
  | itemCount =>
    refine htogether _ ((together_lift Host.inStep_heap).bind fun ν₁ _ h h' hh =>
      together_popArray.bind fun _ _ a a' ha => ?_)
    rw [ha, hh.itemCount]
    dsimp only
    split
    · exact together_push (.constant rfl)
    · exact together_fail _
  | loadItem =>
    refine htogether _ (together_popIndex.bind fun _ _ i i' hi => together_popArray.bind fun _ _ a a' ha => ?_)
    rw [hi, ha]
    exact (together_getItem a i).bind fun _ _ _ _ hv => together_push hv
  | addressItem =>
    refine htogether _ (together_popIndex.bind fun _ _ i i' hi => together_popArray.bind fun _ _ a a' ha => ?_)
    rw [hi, ha]
    exact (together_getItem a i).bind fun _ _ _ _ _ => together_push (.address (.element a _))
  | storeItem kind =>
    refine htogether _ ((together_popFit kind).bind fun _ _ v v' hv => together_popIndex.bind fun _ hle i i' hi =>
      together_popArray.bind fun _ hle' a a' ha => ?_)
    rw [hi, ha]
    exact together_lift (Host.inStep_setItem a i (hv.mono (hle.trans hle')))
  | getField f =>
    refine htogether _ ((together_slotNumber f).bind fun _ _ i i' hi => together_pop.bind fun _ _ _ _ hv => ?_)
    rw [hi]
    exact (together_fieldOf i hv).bind fun _ _ _ _ hw => together_push hw
  | putField f =>
    refine htogether _ ((together_slotNumber f).bind fun _ _ i i' hi => (together_popFit _).bind fun _ _ w w' hw =>
      together_pop.bind fun _ hle _ _ hv => ?_)
    rw [hi]
    exact together_setFieldOf i hv (hw.mono hle)
  | getStatic f =>
    refine htogether _ ?_
    rw [Op.execute]
    split
    · exact (together_lift Host.inStep_heap).bind fun _ _ _ _ hh => together_push (hh.getStatic _)
    · exact together_fail _
  | putStatic f =>
    refine htogether _ ((together_popFit _).bind fun _ _ v v' hv => ?_)
    cases f.staticId? with
    | some id =>
      exact together_lift (Host.inStep_modifyHeap fun _ hle _ _ hh => hh.setStatic id (hv.mono hle))
    | none => exact together_fail _
  | throw => exact htogether _ (together_pop.bind fun _ _ _ _ hv => together_throwing hv)

/-- **Operations that belong together** do the same. -/
theorem Paired.agrees {g : Pairing} {o' : Op} (h : o.Paired g o') (hν : ν.slots = g.slots)
    (hd : o.DiscreetAt sink m) (hm : m.Renumbered sink ν m') :
    Exec.Agrees (Machine.Renumbered sink) ν Exec.Any (o.execute.run m) (o'.execute.run m') := by
  open Exec in
  cases h with
  | loadLocal h =>
    exact ((together_getLocal (hν ▸ h)).bind fun _ _ _ _ hv => together_push hv) ν le_rfl m m' hm
  | storeLocal kind h =>
    exact ((together_popFit kind).bind fun _ hle _ _ hv => together_setLocal (hle.slots ▸ hν ▸ h) hv) ν le_rfl m m' hm
  | addressLocal h => exact together_push (.address (.variable (hν ▸ h))) ν le_rfl m m' hm
  | other hplain => exact agrees_plain hplain hd hm

end Op

/-! ## Jumps -/

/-- The same jump, with targets that belong together. -/
inductive Jump.Related (R : Nat → Nat → Prop) : Jump Nat → Jump Nat → Prop
  | always {t t' : Nat} (h : R t t') : Related R (.always t) (.always t')
  | ifTrue {t t' : Nat} (h : R t t') : Related R (.ifTrue t) (.ifTrue t')
  | ifFalse {t t' : Nat} (h : R t t') : Related R (.ifFalse t) (.ifFalse t')
  | compare (c : Comparison) {t t' : Nat} (h : R t t') : Related R (.compare c t) (.compare c t')
  | switch {ts ts' : List Nat} (h : List.Forall₂ R ts ts') : Related R (.switch ts) (.switch ts')

namespace Jump

variable {sink : Sink} {ν : Numbering} {m m' : Machine} {R : Nat → Nat → Prop} {j j' : Jump Nat}

/-- A jump does not look at numbers: structs whose identity it tests are not nested in a cycle. -/
def DiscreetAt (m : Machine) : Jump Nat → Prop
  | .compare .equalTo _ | .compare .notEqualTo _ => m.Untangled
  | _ => True

open Exec in
/-- A jump is **taken in both runs** or in neither. -/
theorem Related.agrees (h : j.Related R j') (hd : j.DiscreetAt m) (hm : m.Renumbered sink ν m') :
    Agrees (Machine.Renumbered sink) ν (fun _ => Option.Rel R) (j.follow.run m) (j'.follow.run m') := by
  have htogether : ∀ e e' : Exec (Option Nat), Together sink ν (fun _ => Option.Rel R) e e' →
      Agrees (Machine.Renumbered sink) ν (fun _ => Option.Rel R) (e.run m) (e'.run m') :=
    fun e e' he => he ν le_rfl m m' hm
  -- a target is gone to on a condition
  have hone : ∀ {t t' : Nat}, R t t' → ∀ (c : Prop) [Decidable c],
      Option.Rel R (if c then some t else none) (if c then some t' else none) := by
    intro t t' ht c _
    split
    · exact .some ht
    · exact .none
  have hother : ∀ {t t' : Nat}, R t t' → ∀ (c : Prop) [Decidable c],
      Option.Rel R (if c then none else some t) (if c then none else some t') := by
    intro t t' ht c _
    split
    · exact .none
    · exact .some ht
  cases h with
  | always ht => exact .ok le_rfl hm (.some ht)
  | ifTrue ht =>
    refine htogether _ _ (together_pop.bind fun _ _ _ _ hv => ?_)
    refine (together_lift (Host.inStep_expectSame _ hv hv.condition?)).bind fun _ _ b b' hb => ?_
    rw [hb]
    exact inStep_pure fun _ _ => hone ht _
  | ifFalse ht =>
    refine htogether _ _ (together_pop.bind fun _ _ _ _ hv => ?_)
    refine (together_lift (Host.inStep_expectSame _ hv hv.condition?)).bind fun _ _ b b' hb => ?_
    rw [hb]
    exact inStep_pure fun _ _ => hother ht _
  | @compare c t t' ht =>
    by_cases hequal : c = .equalTo ∨ c = .notEqualTo
    · rcases hequal with rfl | rfl
      · exact agrees_identical (fun r => pure (if r then some t else none))
          (fun r => pure (if r then some t' else none)) hm hd fun _ _ r => inStep_pure fun _ _ => hone ht _
      · exact agrees_identical (fun r => pure (if !r then some t else none))
          (fun r => pure (if !r then some t' else none)) hm hd fun _ _ r => inStep_pure fun _ _ => hone ht _
    · rw [not_or] at hequal
      refine htogether _ _ (together_pop.bind fun _ _ _ _ hw => together_pop.bind fun _ hle _ _ hv => ?_)
      refine (together_lift (Host.inStep_holds hequal.1 hequal.2 hv (hw.mono hle))).bind fun _ _ b b' hb => ?_
      rw [hb]
      exact inStep_pure fun _ _ => hone ht _
  | @switch ts ts' hts =>
    refine htogether _ _ (together_popIndex.bind fun _ _ i i' hi => ?_)
    rw [hi]
    refine inStep_pure fun _ _ => ?_
    split
    · exact .none
    · rcases Nat.lt_or_ge i.toNat ts.length with hlt | hge
      · have hlt' : i.toNat < ts'.length := hts.length_eq ▸ hlt
        rw [List.getElem?_eq_getElem hlt, List.getElem?_eq_getElem hlt']
        exact .some (hts.get hlt hlt')
      · rw [List.getElem?_eq_none hge, List.getElem?_eq_none (hts.length_eq ▸ hge)]
        exact .none

end Jump

/-! ## Instructions -/

/-- The same instruction, with the local that belongs to its own, and with targets that belong together. -/
inductive Instruction.Related (g : Pairing) (R : Nat → Nat → Prop) : Instruction Nat → Instruction Nat → Prop
  | op {o o' : Op} (h : o.Paired g o') : Related g R (.op o) (.op o')
  | jump {j j' : Jump Nat} (h : j.Related R j') : Related g R (.jump j) (.jump j')
  | ret : Related g R .ret .ret

/-- Runs go on in the same way. -/
inductive Progress.Related (R : Nat → Nat → Prop) (ν : Numbering) : Progress → Progress → Prop
  | next : Related R ν .next .next
  | goto {t t' : Nat} (h : R t t') : Related R ν (.goto t) (.goto t')
  | done {v v' : Value} (h : v.Renumbered ν v') : Related R ν (.done v) (.done v')

/-- An instruction does **not look at numbers** on a machine. -/
def Instruction.DiscreetAt (sink : Sink) (m : Machine) : Instruction Nat → Prop
  | .op o => o.DiscreetAt sink m
  | .jump j => j.DiscreetAt m
  | .ret => True

open Exec in
/-- **Instructions that belong together go on in step**, unless they look at numbers. -/
theorem Instruction.Related.agrees {sink : Sink} {ν : Numbering} {m m' : Machine} {g : Pairing}
    {R : Nat → Nat → Prop} {i i' : Instruction Nat} (h : i.Related g R i') (hν : ν.slots = g.slots)
    (hd : i.DiscreetAt sink m) (hm : m.Renumbered sink ν m') (ret : Option Ty) :
    Agrees (Machine.Renumbered sink) ν (Progress.Related R) ((i.execute ret).run m) ((i'.execute ret).run m') := by
  cases h with
  | op h => exact (h.agrees hν hd hm).bind fun _ _ _ _ _ _ _ _ hm' _ => .ok le_rfl hm' .next
  | jump h =>
    refine (h.agrees hd hm).bind fun ν' _ t t' m₁ m₁' _ _ hm' ht => ?_
    cases ht with
    | some ht => exact .ok le_rfl hm' (.goto ht)
    | none => exact .ok le_rfl hm' .next
  | ret =>
    have hresult : Together sink ν Value.Renumbered (Exec.result ret) (Exec.result ret) := by
      cases ret with
      | some t => exact together_popFit _
      | none => exact inStep_pure fun _ _ => .constant rfl
    exact (hresult ν le_rfl m m' hm).bind fun _ _ _ _ _ _ _ _ hm' hv => .ok le_rfl hm' (.done hv)

end Stackwright
