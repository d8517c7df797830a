import Stackwright.Builtin
import Stackwright.Proofs.Machine.Entrances
import Stackwright.Proofs.Tracing.Executing

/-! # Calls that do not look at numbers

What a body of the host makes of its arguments is its own affair, and one that looked at numbers would show them. The
built-in methods do not: what they make of their arguments is the same under another numbering, unless these tell
numbers themselves. The text of an address shows the number of a local, and how far equality looks into what is nested
in a cycle depends on how many boxes there are.

* **`Heap.Telling h v`** — a value whose text or equality tells numbers.
* **`Builtin.discreet`** — built-in methods do not look at numbers otherwise.
* **`Procedure.Discreet p sink args w`** — nothing that a call does looks at numbers. -/

namespace Stackwright

/-- A value **tells numbers**: its text is that of an address, or it is nested in a cycle. -/
def Heap.Telling (h : Heap) (v : Value) : Prop := (∃ n p, h.peel^[n] v = .address p) ∨ ¬ v.Acyclic h.Holds

/-- No argument tells numbers, and no item of an array among the arguments does. -/
def Heap.Untelling (h : Heap) (args : List Value) : Prop :=
  ∀ v ∈ args, ¬ h.Telling v ∧ ∀ a, v = .array a → ∀ x ∈ (h.arrayCell a).items, ¬ h.Telling x

namespace Builtin

open Exec

variable {α β : Type} {sink : Sink} {ν : Numbering} {A : Numbering → α → β → Prop} {args args' : List Value}
  {w w' : World} {v v' : Value}

/-- Outcomes that agree but for numbers and reports. -/
abbrev Agree (sink : Sink) (ν : Numbering) (A : Numbering → α → β → Prop) (c : Host α) (c' : Host β) (w w' : World) :
    Prop :=
  Agrees (World.Renumbered sink) ν A (c.run w) (c'.run w')

/-- A body that computes agrees where what it computes does. -/
theorem discreet_pureBody {compute : List Value → Host Value}
    (h : ∀ ν args' w', List.Forall₂ (Value.Renumbered ν) args args' → w.Renumbered sink ν w' →
      Agree sink ν Value.Renumbered (compute args) (compute args') w w') :
    (pureBody compute).DiscreetAt sink args w := by
  intro ν args' w' hargs hw
  refine (h ν args' w' hargs hw).bind fun ν' hle x x' w₁ w₁' _ _ hw₁ hx => .ok le_rfl hw₁ ⟨hx, ?_⟩
  exact hargs.imp fun _ _ hv => hv.mono hle

/-- What goes on in step does not look at numbers, whatever the world. -/
theorem discreet_of_inStep {compute : List Value → Host Value}
    (h : ∀ ν args', List.Forall₂ (Value.Renumbered ν) args args' →
      Host.InStep sink ν Value.Renumbered (compute args) (compute args')) :
    (pureBody compute).DiscreetAt sink args w :=
  discreet_pureBody fun ν args' w' hargs hw => h ν args' hargs ν le_rfl w w' hw

section arguments

variable (hargs : List.Forall₂ (Value.Renumbered ν) args args') (hw : w.Renumbered sink ν w')

include hargs hw

/-- An argument is there in both or in neither, and what is computed from it agrees. -/
theorem agree_argument (i n : Nat) {k : Value → Host α} {k' : Value → Host β}
    (hk : ∀ v v', v ∈ args → v.Renumbered ν v' → Agree sink ν A (k v) (k' v') w w') :
    Agree sink ν A (argument args i n >>= k) (argument args' i n >>= k') w w' := by
  unfold argument
  rw [← hargs.length_eq]
  rcases Nat.lt_or_ge i args.length with hi | hi
  · have hi' : i < args'.length := hargs.length_eq ▸ hi
    rw [List.getElem?_eq_getElem hi, List.getElem?_eq_getElem hi']
    exact hk _ _ (List.getElem_mem hi) (hargs.get hi hi')
  · rw [List.getElem?_eq_none hi, List.getElem?_eq_none (hargs.length_eq ▸ hi)]
    exact .error le_rfl hw (Halt.renumbered_self _ _)

omit hw in
theorem inStep_argument (i n : Nat) :
    Host.InStep sink ν Value.Renumbered (argument args i n) (argument args' i n) := by
  intro ν' hle w w' hw
  have hargs := hargs.imp fun _ _ hv => Value.Renumbered.mono hle hv
  have h : Agree sink ν' Value.Renumbered (argument args i n >>= pure) (argument args' i n >>= pure) w w' :=
    agree_argument hargs hw i n fun v v' _ hvv => .ok le_rfl hw hvv
  rwa [bind_pure, bind_pure] at h

end arguments

/-- The text of a value is the same unless it tells numbers. -/
theorem agree_display (hw : w.Renumbered sink ν w') (hv : v.Renumbered ν v') (ht : ¬ w.heap.Telling v)
    {k : String → Host α} {k' : String → Host β} (hk : ∀ x, Agree sink ν A (k x) (k' x) w w') :
    Agree sink ν A (Host.display v >>= k) (Host.display v' >>= k') w w' := by
  have hsame : w'.heap.display v' = w.heap.display v :=
    hw.heap.display hv fun n p hp => ht (.inl ⟨n, p, hp⟩)
  show Agree sink ν A (k (w.heap.display v)) (k' (w'.heap.display v')) w w'
  rw [hsame]
  exact hk _

/-- So are the texts of several values. -/
theorem map_display {h h' : Heap} {xs ys : List Value} (hh : h.Renumbered ν h')
    (hxs : List.Forall₂ (Value.Renumbered ν) xs ys) (ht : ∀ x ∈ xs, ¬ h.Telling x) :
    ys.map h'.display = xs.map h.display := by
  induction hxs with
  | nil => rfl
  | cons hv _ ih =>
    have hhead := hh.display hv fun n p hp => ht _ List.mem_cons_self (.inl ⟨n, p, hp⟩)
    rw [List.map_cons, List.map_cons, hhead, ih fun x hx => ht x (List.mem_cons_of_mem _ hx)]

/-- What goes on in step agrees. -/
theorem agree_of_inStep {c : Host α} {c' : Host β} (hw : w.Renumbered sink ν w') (h : Host.InStep sink ν A c c') :
    Agree sink ν A c c' w w' :=
  h ν le_rfl w w' hw

/-! ## Each method -/

theorem discreet_textOf (h : w.heap.Untelling args) : textOf.body.DiscreetAt sink args w :=
  discreet_pureBody fun _ _ _ hargs hw => agree_argument hargs hw 0 1 fun v _ hv hvv =>
    agree_display hw hvv (h v hv).1 fun _ => .ok le_rfl hw (.constant rfl)

theorem discreet_joinTwo (h : w.heap.Untelling args) : joinTwo.body.DiscreetAt sink args w :=
  discreet_pureBody fun _ _ _ hargs hw => agree_argument hargs hw 0 2 fun a _ ha haa =>
    agree_argument hargs hw 1 2 fun b _ hb hbb => agree_display hw haa (h a ha).1 fun _ =>
      agree_display hw hbb (h b hb).1 fun _ => .ok le_rfl hw (.constant rfl)

theorem discreet_joinThree (h : w.heap.Untelling args) : joinThree.body.DiscreetAt sink args w :=
  discreet_pureBody fun _ _ _ hargs hw => agree_argument hargs hw 0 3 fun a _ ha haa =>
    agree_argument hargs hw 1 3 fun b _ hb hbb => agree_argument hargs hw 2 3 fun c _ hc hcc =>
      agree_display hw haa (h a ha).1 fun _ => agree_display hw hbb (h b hb).1 fun _ =>
        agree_display hw hcc (h c hc).1 fun _ => .ok le_rfl hw (.constant rfl)

theorem discreet_report (h : w.heap.Untelling args) : (report sink).body.DiscreetAt sink args w := by
  refine discreet_pureBody fun ν _ w' hargs hw => agree_argument hargs hw 0 1 fun v _ hv hvv =>
    agree_display hw hvv (h v hv).1 fun x => .ok le_rfl ⟨?_, ?_⟩ (.constant rfl)
  · rw [World.heap_report, World.heap_report]
    exact hw.heap
  · exact (World.apart_report x).trans (hw.apart.trans (World.apart_report x).symm)

theorem discreet_textLength : textLength.body.DiscreetAt sink args w := by
  refine discreet_of_inStep fun ν _ hargs => (inStep_argument hargs 0 1).bind fun _ _ v v' hv => ?_
  refine (Host.inStep_expectSame _ hv hv.text?).bind fun _ _ s s' hs => ?_
  rw [hs]
  exact inStep_pure fun _ _ => .constant rfl

theorem discreet_typeOfHandle : typeOfHandle.body.DiscreetAt sink args w :=
  discreet_of_inStep fun _ _ hargs => inStep_argument hargs 0 1

theorem discreet_equals (h : w.heap.Untelling args) : equals.body.DiscreetAt sink args w := by
  refine discreet_pureBody fun ν _ w' hargs hw => agree_argument hargs hw 0 2 fun a a' ha haa =>
    agree_argument hargs hw 1 2 fun b b' hb hbb => ?_
  have hsame : w'.heap.equal a' b' = w.heap.equal a b :=
    hw.heap.equal haa hbb (not_not.1 fun hcycle => (h a ha).1 (.inr hcycle)) (not_not.1 fun hcycle => (h b hb).1 (.inr hcycle))
  show Agrees _ _ _ (.ok (Value.ofBool _) w) (.ok (Value.ofBool _) w')
  rw [hsame, haa.isNull, hbb.isNull]
  exact .ok le_rfl hw (.constant rfl)

/-! ### Formatting -/

theorem inStep_formatArgument (hv : v.Renumbered ν v') :
    Host.InStep sink ν Equal (formatArgument v) (formatArgument v') := by
  cases hv with
  | @constant v hc =>
    cases v with
    | null => exact Host.inStep_fail _
    | text x => exact inStep_pure fun _ _ => rfl
    | _ => exact Host.inStep_unexpected _ (.constant hc)
  | array a => exact Host.inStep_unexpected _ (.array a)
  | object o => exact Host.inStep_unexpected _ (.object o)
  | struct t hlength hfields => exact Host.inStep_unexpected _ (.struct t hlength hfields)
  | boxed hb => exact Host.inStep_unexpected _ (.boxed hb)
  | address hp => exact Host.inStep_unexpected _ (.address hp)

theorem quiet_formatArgument (v : Value) : Quiet (formatArgument v) := by
  unfold formatArgument
  split
  · exact quiet_pure _
  · exact quiet_throw _
  · exact quiet_unexpected _ _

theorem inStep_itemsArgument (hv : v.Renumbered ν v') :
    Host.InStep sink ν (fun ν => List.Forall₂ (Value.Renumbered ν)) (itemsArgument v) (itemsArgument v') := by
  cases hv with
  | @constant v hc =>
    cases v with
    | null => exact Host.inStep_fail _
    | array a => cases hc
    | _ => exact Host.inStep_unexpected _ (.constant hc)
  | array a =>
    exact Host.inStep_heap.bind fun _ _ _ _ hh => inStep_pure fun _ hle =>
      (hh.arrayCell a).items.forall₂.imp fun _ _ hv => hv.mono hle
  | object o => exact Host.inStep_unexpected _ (.object o)
  | struct t hlength hfields => exact Host.inStep_unexpected _ (.struct t hlength hfields)
  | boxed hb => exact Host.inStep_unexpected _ (.boxed hb)
  | address hp => exact Host.inStep_unexpected _ (.address hp)

theorem of_itemsArgument {items : List Value} {w₁ : World} (h : (itemsArgument v).run w = .ok items w₁) :
    w₁ = w ∧ ∃ a, v = .array a ∧ items = (w.heap.arrayCell a).items.toList := by
  cases v <;> cases h
  exact ⟨rfl, _, rfl, rfl⟩

theorem discreet_fillText (h : w.heap.Untelling args) : fillText.body.DiscreetAt sink args w := by
  refine discreet_pureBody fun ν _ w' hargs hw => agree_argument hargs hw 0 2 fun v v' _ hvv => ?_
  refine (agree_of_inStep hw (inStep_formatArgument hvv)).bind fun ν₁ hle x x' w₁ w₁' hx _ hw₁ hxx => ?_
  obtain rfl := (quiet_formatArgument v).ok hx
  refine agree_argument (hargs.imp fun _ _ hv => hv.mono hle) hw₁ 1 2 fun u u' hu huu => ?_
  refine (agree_of_inStep hw₁ (inStep_itemsArgument huu)).bind fun ν₂ _ items items' w₂ w₂' hitems _ hw₂ hii => ?_
  obtain ⟨rfl, a, rfl, rfl⟩ := of_itemsArgument hitems
  have hsame := map_display hw₂.heap hii fun x hx => (h _ hu).2 a rfl x (Array.mem_toList_iff.1 hx)
  show Agree sink ν₂ Value.Renumbered (do return .text (← Host.ofExcept (Template.format x _)))
    (do return .text (← Host.ofExcept (Template.format x' _))) w₂ w₂'
  rw [hsame, hxx]
  refine agree_of_inStep hw₂ ((Host.inStep_ofExcept (A := Equal) ?_).bind fun _ _ y y' hy => ?_)
  · cases Template.format x ((w₂.heap.arrayCell a).items.toList.map w₂.heap.display) with
    | ok y => exact .inl ⟨y, y, rfl, rfl, fun _ _ => rfl⟩
    | error f => exact .inr ⟨f, rfl, rfl⟩
  · rw [hy]
    exact inStep_pure fun _ _ => .constant rfl

/-! ### Stores -/

theorem inStep_arrayArgument (hv : v.Renumbered ν v') :
    Host.InStep sink ν Equal (arrayArgument v) (arrayArgument v') := by
  cases hv with
  | @constant v hc =>
    cases v with
    | array a => cases hc
    | _ => exact Host.inStep_unexpected _ (.constant hc)
  | array a => exact inStep_pure fun _ _ => rfl
  | object o => exact Host.inStep_unexpected _ (.object o)
  | struct t hlength hfields => exact Host.inStep_unexpected _ (.struct t hlength hfields)
  | boxed hb => exact Host.inStep_unexpected _ (.boxed hb)
  | address hp => exact Host.inStep_unexpected _ (.address hp)

theorem inStep_itemFor (element : Ty) (hv : v.Renumbered ν v') :
    Host.InStep sink ν Value.Renumbered (itemFor element v) (itemFor element v') := by
  refine Host.inStep_heap.bind fun ν₁ hle h h' hh => ?_
  have hv := hv.mono hle
  -- all but null and boxes are taken by their type
  have htyped : Host.InStep sink ν₁ Value.Renumbered
      ((h.typeOf? v).elim (pure v) fun t =>
        if element.accepts t then pure v else Host.fail (.invalidCast t.path element))
      ((h'.typeOf? v').elim (pure v') fun t =>
        if element.accepts t then pure v' else Host.fail (.invalidCast t.path element)) := by
    rw [hh.typeOf? hv]
    cases h.typeOf? v with
    | none => exact inStep_pure fun _ hle => hv.mono hle
    | some t =>
      rw [Option.elim_some, Option.elim_some]
      split
      · exact inStep_pure fun _ hle => hv.mono hle
      · exact Host.inStep_fail _
  generalize element.isValue = value
  cases hv with
  | @constant v hc =>
    cases v with
    | null =>
      cases value with
      | true => exact inStep_pure fun ν' _ => Value.renumbered_zeroOf ν' element
      | false => exact htyped
    | boxed b => cases hc
    | _ => exact htyped
  | @boxed b b' hb =>
    cases value with
    | true =>
      dsimp only
      rw [(hh.boxes _ _ hb).type]
      split
      · exact inStep_pure fun _ hle' => (hh.getBox hb).mono hle'
      · exact Host.inStep_fail _
    | false => exact htyped
  | _ => exact htyped

theorem discreet_storeItem : storeItem.body.DiscreetAt sink args w := by
  refine discreet_of_inStep fun ν _ hargs => (inStep_argument hargs 0 3).bind fun ν₁ hle v v' hv => ?_
  refine (inStep_arrayArgument hv).bind fun ν₂ hle₂ a a' ha => ?_
  have hargs₂ := hargs.imp fun _ _ hv => Value.Renumbered.mono (hle.trans hle₂) hv
  refine (inStep_argument hargs₂ 2 3).bind fun ν₃ hle₃ i i' hi => ?_
  refine (Host.inStep_expectSame _ hi hi.index?).bind fun ν₄ hle₄ j j' hj => ?_
  refine Host.inStep_heap.bind fun ν₅ hle₅ h h' hh => ?_
  have hargs₅ := hargs₂.imp fun _ _ hv => Value.Renumbered.mono (hle₃.trans (hle₄.trans hle₅)) hv
  refine (inStep_argument hargs₅ 1 3).bind fun ν₆ hle₆ x x' hx => ?_
  rw [ha, hj, (hh.arrayCell a).element]
  refine (inStep_itemFor _ hx).bind fun ν₇ _ y y' hy => ?_
  exact (Host.inStep_setItem a j hy).bind fun _ _ _ _ _ => inStep_pure fun _ _ => .constant rfl

/-! ### All methods -/

/-- The built-in methods that a procedure may call, with the report to a sink. -/
def methods (sink : Sink) : List Method :=
  [textOf, joinTwo, joinThree, textLength, fillText, equals, storeItem, typeOfHandle, report sink]

/-- **Built-in methods do not look at numbers** unless their arguments tell them. -/
theorem discreet {f : Method} (hf : f ∈ methods sink) (h : w.heap.Untelling args) : f.body.DiscreetAt sink args w := by
  simp only [methods, List.mem_cons, List.not_mem_nil, or_false] at hf
  rcases hf with rfl | rfl | rfl | rfl | rfl | rfl | rfl | rfl | rfl
  · exact discreet_textOf h
  · exact discreet_joinTwo h
  · exact discreet_joinThree h
  · exact discreet_textLength
  · exact discreet_fillText h
  · exact discreet_equals h
  · exact discreet_storeItem
  · exact discreet_typeOfHandle
  · exact discreet_report h

end Builtin

/-! ## Calls of procedures -/

/-- A body that is entered **does not look at numbers**: it is one of the host that does not, or a built-in one that is
given nothing that tells them. -/
inductive Entrance.Discreet (sink : Sink) : Entrance → Prop
  /-- The body of a method does not. -/
  | method {f : Method} {args : List Value} {w : World} (h : f.body.DiscreetAt sink args w) :
      Discreet sink ⟨.call f, args, w⟩
  /-- The body of a constructor does not. -/
  | maker {c : Constructor} {args : List Value} {w : World} (h : c.body.DiscreetAt sink args w) :
      Discreet sink ⟨.instantiate c, args, w⟩
  /-- A built-in method is given nothing that tells numbers. -/
  | builtin {f : Method} {args : List Value} {w : World} (hf : f ∈ Builtin.methods sink)
      (h : w.heap.Untelling args) : Discreet sink ⟨.call f, args, w⟩

/-- An instruction that tests **identity**. -/
def Instruction.TestsIdentity : Instruction Nat → Prop
  | .op .identical | .jump (.compare .equalTo _) | .jump (.compare .notEqualTo _) => True
  | _ => False

/-- An instruction does not look at numbers if the body that it enters does not, and if structs that it tests for
identity are not nested in a cycle. -/
theorem Instruction.discreetAt_of {sink : Sink} {m : Machine} {i : Instruction Nat}
    (hentered : ∀ e ∈ i.entrance? m, e.Discreet sink) (hidentity : i.TestsIdentity → m.Untangled) :
    i.DiscreetAt sink m := by
  cases i with
  | ret => trivial
  | jump j =>
    cases j with
    | compare c t => cases c <;> first | exact hidentity trivial | trivial
    | _ => trivial
  | op o =>
    cases o with
    | identical => exact hidentity trivial
    | call f =>
      intro args w henters
      have he : (Op.call f).entrance? m = some ⟨.call f, args, w⟩ := Op.entrance?_eq_some_iff.2 ⟨rfl, henters⟩
      cases hentered _ he with
      | method h => exact h
      | builtin hf h => exact Builtin.discreet hf h
    | instantiate c =>
      intro args w henters
      have he : (Op.instantiate c).entrance? m = some ⟨.instantiate c, args, w⟩ := Op.entrance?_eq_some_iff.2 ⟨rfl, henters⟩
      cases hentered _ he with
      | maker h => exact h
    | _ => trivial

namespace Procedure

/-- The bodies that a call **enters** in some number of steps. -/
def entered (p : Procedure) (k : Nat) (args : List Value) (w : World) : List Entrance :=
  if args.length = p.signature.args.length then p.entrances k 0 ⟨p.frame args, w⟩ else []

/-- Nothing that a call does **looks at numbers**: no body that it enters does, and no structs that it tests for
identity are nested in a cycle. -/
structure Discreet (sink : Sink) (p : Procedure) (args : List Value) (w : World) : Prop where
  /-- The bodies that it enters do not. -/
  bodies : ∀ k, ∀ e ∈ p.entered k args w, e.Discreet sink
  /-- Structs that are tested for identity are not nested in a cycle. -/
  untangled : ∀ j n m i, p.whereabouts j 0 ⟨p.frame args, w⟩ = .reached n m → p.code[n]? = some i →
    i.TestsIdentity → m.Untangled

/-- Then no instruction looks at numbers where it is done. -/
theorem Discreet.at {sink : Sink} {p : Procedure} {args : List Value} {w : World} (h : Discreet sink p args w)
    (hargs : args.length = p.signature.args.length) {j n : Nat} {m : Machine} {i : Instruction Nat}
    (hat : p.whereabouts j 0 ⟨p.frame args, w⟩ = .reached n m) (hi : p.code[n]? = some i) : i.DiscreetAt sink m := by
  refine Instruction.discreetAt_of (fun e he => h.bodies (j + 1) e ?_) (h.untangled j n m i hat hi)
  rw [entered, if_pos hargs, entrances_add hat, entrances_one hi]
  exact List.mem_append_right _ (Option.mem_toList.2 he)

end Procedure

end Stackwright
