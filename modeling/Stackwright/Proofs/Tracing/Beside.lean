import Stackwright.Proofs.Tracing.Abreast
import Stackwright.Proofs.Tracing.Showing

/-! # What is done beside a run

A full trace puts two kinds of code between the instructions of a program: reports of lines, and dumps. Such an
**interlude** uses locals that nothing else uses, makes boxes and reports, and leaves everything else as it is; so a
machine that was the same as another one but for numbers and reports still is. An interlude that does not come to
its end is the dump of what cannot be shown.

* **`Machine.Beside own sink m m'`** — a machine changed beside: in its own locals, its boxes and its reports.
* **`Exec.Beside own sink e`** — `e` does no more than that.
* **`Interlude sink own n is`** — what a full trace puts between instructions.
* **`Machine.ShowsTop m t`** — what is on top can be shown as a value of a type.
* **`Procedure.crosses_interlude`** — an interlude comes to its end, or it is the dump of what cannot be shown. -/

namespace Stackwright

/-! ## Machines -/

/-- A machine changed **beside**: what may be different is the stack, its own locals, which boxes there are
besides, and what was reported. -/
structure Machine.Beside (own : Nat → Prop) (sink : Sink) (m m' : Machine) : Prop where
  /-- The arguments are the same. -/
  args : m'.frame.args = m.frame.args
  /-- There are as many locals. -/
  size : m'.frame.locals.size = m.frame.locals.size
  /-- The other locals are the same. -/
  locals : ∀ i, ¬ own i → m'.frame.locals[i]? = m.frame.locals[i]?
  /-- The heap has more boxes. -/
  heap : m.world.heap.Adds m'.world.heap
  /-- The world is the same apart from the heap and from reports. -/
  apart : m'.world.apart sink = m.world.apart sink

namespace Machine

variable {own : Nat → Prop} {sink : Sink} {m m' m'' : Machine}

theorem Beside.refl (own : Nat → Prop) (sink : Sink) (m : Machine) : m.Beside own sink m :=
  ⟨rfl, rfl, fun _ _ => rfl, .refl _, rfl⟩

theorem Beside.trans (h : m.Beside own sink m') (h' : m'.Beside own sink m'') : m.Beside own sink m'' where
  args := h'.args.trans h.args
  size := h'.size.trans h.size
  locals i hi := (h'.locals i hi).trans (h.locals i hi)
  heap := h.heap.trans h'.heap
  apart := h'.apart.trans h.apart

theorem beside_withStack (own : Nat → Prop) (sink : Sink) (m : Machine) (stack : List Value) :
    m.Beside own sink (m.withStack stack) :=
  ⟨rfl, rfl, fun _ _ => rfl, .refl _, rfl⟩

/-- Another world, with more boxes and reports. -/
theorem beside_world (own : Nat → Prop) {w : World} (hheap : m.world.heap.Adds w.heap)
    (hapart : w.apart sink = m.world.apart sink) : m.Beside own sink { m with world := w } :=
  ⟨rfl, rfl, fun _ _ => rfl, hheap, hapart⟩

/-- What is done beside the second run leaves the worlds the same but for numbers. -/
theorem Renumbered.beside_world {ν : Numbering} (h : m.Renumbered sink ν m') (hb : m'.Beside own sink m'') :
    m.world.Renumbered sink ν m''.world :=
  ⟨h.world.heap.adds hb.heap, hb.apart.trans h.world.apart⟩

/-- With the stack as it was the machines are the same but for numbers. -/
theorem Renumbered.beside {ν : Numbering} (h : m.Renumbered sink ν m') (hb : m'.Beside own sink m'')
    (hown : ∀ i k, ν.slots i k → ¬ own k) (hstack : m''.frame.stack = m'.frame.stack) :
    m.Renumbered sink ν m'' where
  args := hb.args ▸ h.args
  locals i k hik := by
    rw [hb.locals k (hown i k hik)]
    exact h.locals i k hik
  apart := h.apart
  stack := hstack ▸ h.stack
  world := h.beside_world hb

end Machine

/-! ## Computations -/

/-- A computation that changes a machine **beside** at most, whether or not it answers. -/
structure Exec.Beside {α : Type} (own : Nat → Prop) (sink : Sink) (e : Exec α) : Prop where
  /-- It answers beside. -/
  ok : ∀ {m m' : Machine} {x : α}, e.run m = .ok x m' → m.Beside own sink m'
  /-- It stops beside. -/
  error : ∀ {m m' : Machine} {r : Halt}, e.run m = .error r m' → m.Beside own sink m'

namespace Exec

variable {α β : Type} {own : Nat → Prop} {sink : Sink} {e : Exec α} {f : α → Exec β}

theorem Quiet.beside (h : Quiet e) : e.Beside own sink := by
  constructor
  · intro m m' x hrun
    rw [h.ok hrun]
    exact .refl own sink m
  · intro m m' r hrun
    rw [h.error hrun]
    exact .refl own sink m

theorem Beside.bind (he : e.Beside own sink) (hf : ∀ x, (f x).Beside own sink) : (e >>= f).Beside own sink := by
  constructor
  · intro m m' y hrun
    rw [run_bind] at hrun
    split at hrun
    · rename_i x m₁ hfirst
      exact (he.ok hfirst).trans ((hf x).ok hrun)
    · cases hrun
  · intro m m' r hrun
    rw [run_bind] at hrun
    split at hrun
    · rename_i x m₁ hfirst
      exact (he.ok hfirst).trans ((hf x).error hrun)
    · rename_i hfirst
      cases hrun
      exact he.error hfirst

/-- A computation of the world that makes boxes and reports at most. -/
theorem beside_lift {c : Host α}
    (hc : Keeping (fun w w' => w.heap.Adds w'.heap ∧ w'.apart sink = w.apart sink) c) :
    (liftM c : Exec α).Beside own sink := by
  constructor
  · intro m m' x hrun
    rw [run_lift] at hrun
    split at hrun <;> cases hrun
    rename_i w hw
    obtain ⟨hheap, hapart⟩ := hc.1 _ _ _ hw
    exact Machine.beside_world own hheap hapart
  · intro m m' r hrun
    rw [run_lift] at hrun
    split at hrun <;> cases hrun
    rename_i w hw
    obtain ⟨hheap, hapart⟩ := hc.2 _ _ _ hw
    exact Machine.beside_world own hheap hapart

theorem beside_push (v : Value) : (push v).Beside own sink where
  ok hrun := by
    cases hrun
    exact Machine.beside_withStack ..
  error hrun := by cases hrun

theorem beside_setStack (vs : List Value) : (setStack vs).Beside own sink where
  ok hrun := by
    cases hrun
    exact Machine.beside_withStack ..
  error hrun := by cases hrun

theorem beside_pop : pop.Beside own sink := by
  refine (quiet_get (σ := Machine)).beside.bind fun m => ?_
  split
  · exact (quiet_throw _).beside
  · exact (beside_setStack _).bind fun _ => (quiet_pure _).beside

theorem beside_popMany (n : Nat) : (popMany n).Beside own sink := by
  refine (quiet_get (σ := Machine)).beside.bind fun m => ?_
  dsimp only
  split
  · exact (quiet_throw _).beside
  · exact (beside_setStack _).bind fun _ => (quiet_pure _).beside

theorem beside_setLocal {i : Nat} (hi : own i) (v : Value) : (setLocal i v).Beside own sink := by
  refine (quiet_get (σ := Machine)).beside.bind fun m₀ => Beside.bind ?_ fun _ => ⟨fun {m m' x} hrun => ?_, nofun⟩
  · unfold checkSlot
    split
    · exact (quiet_pure _).beside
    · exact (quiet_throw _).beside
  · cases hrun
    refine ⟨rfl, Array.size_setIfInBounds .., fun j hj => ?_, .refl _, rfl⟩
    have hne : i ≠ j := by
      rintro rfl
      exact hj hi
    exact Array.getElem?_setIfInBounds_ne hne

theorem beside_allocBox (t : Ty) (v : Value) :
    (liftM (Host.allocate (·.allocBox t v)) : Exec BoxId).Beside own sink := by
  refine beside_lift ⟨fun w w' x hrun => ?_, fun w w' r hrun => ?_⟩
  · cases hrun
    exact ⟨.allocBox _ _ _, World.apart_heap _⟩
  · cases hrun

/-- A method that **only computes** is called beside. -/
theorem beside_call_pure {g : Method} {compute : List Value → Host Value}
    (hbody : g.body = Builtin.pureBody compute)
    (hc : ∀ args, Keeping (fun w w' => w'.heap = w.heap ∧ w'.apart sink = w.apart sink) (compute args)) :
    (call g).Beside own sink := by
  refine (beside_popMany g.arity).bind fun vs => ?_
  have hcomputed := computed (S := fun w w' => w'.heap = w.heap ∧ w'.apart sink = w.apart sink) hbody hc
    (fun _ => ⟨rfl, rfl⟩) (fun _ _ hw => hw.1) vs
  have hworld : ∀ {m : Machine} {w : World}, w.heap = m.world.heap ∧ w.apart sink = m.world.apart sink →
      m.Beside own sink { m with world := w } := fun hw =>
    Machine.beside_world own (hw.1 ▸ .refl _) hw.2
  constructor
  · intro m m' x hrun
    cases (congrArg (Computed _ g m) hrun).mp (hcomputed m) with
    | ok result hw => exact (hworld hw).trans (Machine.beside_withStack ..)
  · intro m m' r hrun
    cases (congrArg (Computed _ g m) hrun).mp (hcomputed m) with
    | error r hw => exact hworld hw

/-- So is a method that computes from the heap and changes nothing. -/
theorem beside_call_quiet {g : Method} {compute : List Value → Host Value}
    (hbody : g.body = Builtin.pureBody compute) (hc : ∀ args, Quiet (compute args)) : (call g).Beside own sink :=
  beside_call_pure hbody fun args => (hc args).keeping fun _ => ⟨rfl, rfl⟩

/-- A report is made beside. -/
theorem beside_report : (call (Builtin.report sink)).Beside own sink := by
  refine beside_call_pure (g := Builtin.report sink) rfl fun args => ?_
  cases args with
  | nil =>
    refine ⟨fun w w' x h => (by cases h), fun w w' r h => ?_⟩
    cases h
    exact ⟨rfl, rfl⟩
  | cons v vs =>
    refine ⟨fun w w' x h => ?_, fun w w' r h => (by cases h)⟩
    cases h
    exact ⟨World.heap_report _ _ _, World.apart_report _⟩

end Exec

/-! ## The operations of an interlude -/

/-- An operation that an interlude **may do**: it stores into no local but its own, and calls no method but the
built-in ones for text and reports. -/
inductive Op.IsAside (own : Nat → Prop) (sink : Sink) : Op → Prop
  | push (v : Value) : IsAside own sink (.push v)
  | dup : IsAside own sink .dup
  | pop : IsAside own sink .pop
  | loadLocal (i : Nat) : IsAside own sink (.loadLocal i)
  | storeLocal {i : Nat} (hi : own i) (kind : Option ScalarKind) : IsAside own sink (.storeLocal i kind)
  | add : IsAside own sink .add
  | convert (kind : ScalarKind) : IsAside own sink (.convert kind)
  | box (t : Ty) : IsAside own sink (.box t)
  | itemCount : IsAside own sink .itemCount
  | loadItem : IsAside own sink .loadItem
  | addressItem : IsAside own sink .addressItem
  | loadThrough : IsAside own sink .loadThrough
  | textOf : IsAside own sink (.call Builtin.textOf)
  | joinTwo : IsAside own sink (.call Builtin.joinTwo)
  | joinThree : IsAside own sink (.call Builtin.joinThree)
  | report : IsAside own sink (.call (Builtin.report sink))

open Exec in
/-- Such an operation is done **beside**. -/
theorem Op.IsAside.beside {own : Nat → Prop} {sink : Sink} {o : Op} (h : o.IsAside own sink) :
    o.execute.Beside own sink := by
  -- most replace operands by what is computed from them without changing anything
  have hindex : popIndex.Beside own sink := beside_pop.bind fun v => (quiet_lift (quiet_expect _ v _)).beside
  have harray : popArray.Beside own sink := by
    refine beside_pop.bind fun v => ?_
    split
    · exact (quiet_pure _).beside
    · exact (quiet_throw _).beside
    · exact (quiet_lift (quiet_unexpected _ _)).beside
  have hheap : (liftM Host.heap : Exec Heap).Beside own sink := (quiet_lift quiet_heap).beside
  cases h with
  | push v => exact beside_push v
  | dup =>
    refine Beside.bind ((quiet_get (σ := Machine)).bind fun m => ?_).beside fun v => beside_push v
    split
    · exact quiet_throw _
    · exact quiet_pure _
  | pop => exact beside_pop.bind fun _ => (quiet_pure _).beside
  | loadLocal i => exact (quiet_getLocal i).beside.bind fun v => beside_push v
  | storeLocal hi kind =>
    exact (beside_pop.bind fun v => (quiet_pure _).beside).bind fun v => beside_setLocal hi v
  | add =>
    refine beside_pop.bind fun b => beside_pop.bind fun a => Beside.bind ?_ fun _ => beside_push _
    exact (quiet_lift ((quiet_scalarOf a).bind fun _ => (quiet_scalarOf b).bind fun _ => quiet_pure _)).beside
  | convert kind =>
    exact beside_pop.bind fun v => (quiet_lift (quiet_expect _ v _)).beside.bind fun _ => beside_push _
  | box t =>
    exact beside_pop.bind fun v => (quiet_readThrough v).beside.bind fun _ => (beside_allocBox t _).bind fun _ =>
      beside_push _
  | itemCount =>
    refine hheap.bind fun h => harray.bind fun a => ?_
    dsimp only
    split
    · exact beside_push _
    · exact (quiet_throw _).beside
  | loadItem =>
    exact hindex.bind fun _ => harray.bind fun _ => hheap.bind fun _ =>
      (quiet_lift (quiet_ofExcept _)).beside.bind fun v => beside_push v
  | addressItem =>
    exact hindex.bind fun _ => harray.bind fun _ => hheap.bind fun _ =>
      (quiet_lift (quiet_ofExcept _)).beside.bind fun _ => beside_push _
  | loadThrough => exact beside_pop.bind fun v => (quiet_readThrough v).beside.bind fun _ => beside_push _
  | textOf =>
    exact beside_call_quiet (g := Builtin.textOf) rfl fun args =>
      (quiet_argument args 0 1).bind fun v => (quiet_display v).bind fun _ => quiet_pure _
  | joinTwo =>
    exact beside_call_quiet (g := Builtin.joinTwo) rfl fun args =>
      (quiet_argument args 0 2).bind fun a => (quiet_argument args 1 2).bind fun b =>
        (quiet_display a).bind fun _ => (quiet_display b).bind fun _ => quiet_pure _
  | joinThree =>
    exact beside_call_quiet (g := Builtin.joinThree) rfl fun args =>
      (quiet_argument args 0 3).bind fun a => (quiet_argument args 1 3).bind fun b =>
        (quiet_argument args 2 3).bind fun c => (quiet_display a).bind fun _ =>
          (quiet_display b).bind fun _ => (quiet_display c).bind fun _ => quiet_pure _
  | report => exact beside_report

/-- An instruction that an interlude may have: such an operation, or a jump. -/
inductive Instruction.IsAside (own : Nat → Prop) (sink : Sink) : Instruction Nat → Prop
  | op {o : Op} (h : o.IsAside own sink) : IsAside own sink (.op o)
  | always (t : Nat) : IsAside own sink (.jump (.always t))
  | compare (c : Comparison) (t : Nat) : IsAside own sink (.jump (.compare c t))

open Exec in
theorem Instruction.IsAside.beside {own : Nat → Prop} {sink : Sink} {i : Instruction Nat}
    (h : i.IsAside own sink) (ret : Option Ty) : (i.execute ret).Beside own sink := by
  have hgo : ∀ j : Jump Nat, j.follow.Beside own sink →
      ((Instruction.jump j).execute ret).Beside own sink := by
    intro j hj
    refine hj.bind fun target => ?_
    split
    · exact (quiet_pure _).beside
    · exact (quiet_pure _).beside
  cases h with
  | op h => exact h.beside.bind fun _ => (quiet_pure _).beside
  | always t => exact hgo _ (quiet_pure _).beside
  | compare c t =>
    exact hgo _ (beside_pop.bind fun b => beside_pop.bind fun a =>
      (quiet_lift (quiet_holds c a b)).beside.bind fun _ => (quiet_pure _).beside)

/-! ## Dumps -/

namespace Ty

variable {own : Nat → Prop} {sink : Sink} {n j : Nat} {i : Instruction Nat}

theorem isAside_straight {os : List Op} (h : ∀ o ∈ os, o.IsAside own sink) (hi : i ∈ Op.straight os) :
    i.IsAside own sink := by
  obtain ⟨o, ho, rfl⟩ := List.mem_map.1 hi
  exact .op (h o ho)

theorem isAside_nullGuard {body : List (Instruction Nat)} (h : ∀ i ∈ body, i.IsAside own sink)
    (hi : i ∈ nullGuard n body) : i.IsAside own sink := by
  simp only [nullGuard, Op.straight, List.map_cons, List.map_nil, List.cons_append, List.nil_append,
    List.mem_cons] at hi
  rcases hi with rfl | rfl | rfl | rfl | rfl | rfl | hi
  · exact .op .dup
  · exact .op (.push _)
  · exact .compare _ _
  · exact .op .pop
  · exact .op (.push _)
  · exact .always _
  · exact h i hi

theorem isAside_countLoop {l x : Nat} {body : List (Instruction Nat)} (hl : own l)
    (h : ∀ i ∈ body, i.IsAside own sink) (hi : i ∈ countLoop l x n body) : i.IsAside own sink := by
  simp only [countLoop, Op.straight, List.map_cons, List.map_nil, List.mem_append, List.mem_cons,
    List.not_mem_nil, or_false] at hi
  rcases hi with (((rfl | rfl) | rfl) | hi) | (rfl | rfl | rfl | rfl | rfl | rfl | rfl | rfl) | rfl
  · exact .op (.push _)
  · exact .op (.storeLocal hl _)
  · exact .always _
  · exact h i hi
  · exact .op (.loadLocal _)
  · exact .op (.push _)
  · exact .op .add
  · exact .op (.storeLocal hl _)
  · exact .op (.loadLocal _)
  · exact .op (.loadLocal _)
  · exact .op .itemCount
  · exact .op (.convert _)
  · exact .compare _ _

theorem isAside_itemHead (e : Ty) {o : Op} (ho : o ∈ e.itemHead j) : o.IsAside own sink := by
  rw [itemHead, itemLoad] at ho
  split at ho <;> simp only [List.cons_append, List.nil_append, List.mem_cons, List.not_mem_nil, or_false] at ho
  · rcases ho with rfl | rfl | rfl | rfl | rfl
    · exact .loadLocal _
    · exact .loadLocal _
    · exact .loadLocal _
    · exact .addressItem
    · exact .loadThrough
  · rcases ho with rfl | rfl | rfl | rfl
    · exact .loadLocal _
    · exact .loadLocal _
    · exact .loadLocal _
    · exact .loadItem

theorem isAside_arrayCode {e : Ty} {item : Nat → List (Instruction Nat)} (hown : ∀ i < 3, own (j + i))
    (h : ∀ n, ∀ i ∈ item n, i.IsAside own sink) (hi : i ∈ e.arrayCode n j item) : i.IsAside own sink := by
  rw [arrayCode, List.mem_append, List.mem_append] at hi
  rcases hi with (hi | hi) | hi
  · refine isAside_straight (fun o ho => ?_) hi
    simp only [arrayHead, List.mem_cons, List.not_mem_nil, or_false] at ho
    rcases ho with rfl | rfl | rfl
    · exact .storeLocal (hown 0 (by omega)) _
    · exact .push _
    · exact .storeLocal (hown 1 (by omega)) _
  · refine isAside_countLoop (hown 2 (by omega)) (fun i hi => ?_) hi
    rw [List.mem_append, List.mem_append] at hi
    rcases hi with (hi | hi) | hi
    · exact isAside_straight (fun o ho => isAside_itemHead e ho) hi
    · exact h _ i hi
    · refine isAside_straight (fun o ho => ?_) hi
      simp only [itemLast, List.mem_cons, List.not_mem_nil, or_false] at ho
      rcases ho with rfl | rfl | rfl
      · exact .push _
      · exact .joinThree
      · exact .storeLocal (hown 1 (by omega)) _
  · refine isAside_straight (fun o ho => ?_) hi
    simp only [arrayLast, List.mem_cons, List.not_mem_nil, or_false] at ho
    rcases ho with rfl | rfl | rfl
    · exact .loadLocal _
    · exact .push _
    · exact .joinTwo

theorem isAside_textCode {t : Ty} (hown : ∀ i < t.textSlots, own (j + i)) (hi : i ∈ t.textCode n j) :
    i.IsAside own sink := by
  induction t using Emit.toFullText.induct generalizing n j i with
  | case1 e ih =>
    rw [textCode] at hi
    refine isAside_nullGuard (fun i hi => isAside_arrayCode (fun l hl => hown l ?_) (fun n' i' hi' =>
      ih (fun l hl => ?_) hi') hi) hi
    · rw [textSlots]
      omega
    · have hslot := hown (l + 3) (by rw [textSlots]; omega)
      rwa [Nat.add_assoc, Nat.add_comm 3]
  | case2 t hne hvalue =>
    rw [textCode_of_not_array hne, if_pos hvalue] at hi
    refine isAside_straight (fun o ho => ?_) hi
    simp only [List.mem_cons, List.not_mem_nil, or_false] at ho
    rcases ho with rfl | rfl
    · exact .box _
    · exact .textOf
  | case3 t hne hvalue =>
    rw [textCode_of_not_array hne, if_neg hvalue] at hi
    refine isAside_nullGuard (fun i hi => isAside_straight (fun o ho => ?_) hi) hi
    obtain rfl := List.mem_singleton.1 ho
    exact .textOf

/-- A **dump** does nothing but show, in locals of its own. -/
theorem isAside_dumpCode {t : Ty} (hown : ∀ i ≤ t.textSlots, own (j + i)) (hi : i ∈ t.dumpCode sink n j) :
    i.IsAside own sink := by
  rw [dumpCode, List.mem_append, List.mem_append] at hi
  rcases hi with (hi | hi) | hi
  · refine isAside_straight (fun o ho => ?_) hi
    obtain rfl := List.mem_singleton.1 ho
    exact .dup
  · exact isAside_textCode (fun l hl => hown l (Nat.le_of_lt hl)) hi
  · refine isAside_straight (fun o ho => ?_) hi
    simp only [List.mem_cons, List.not_mem_nil, or_false] at ho
    rcases ho with rfl | rfl | rfl | rfl | rfl
    · exact .storeLocal (hown _ (Nat.le_refl _)) _
    · exact .push _
    · exact .loadLocal _
    · exact .joinTwo
    · exact .report

end Ty

/-! ## Interludes -/

/-- An **interlude**: the code of a report, or of a dump with locals of its own. -/
inductive Interlude (sink : Sink) (own : Nat → Prop) (n : Nat) : List (Instruction Nat) → Prop
  /-- A line is reported. -/
  | report (text : String) : Interlude sink own n (Op.straight [.push (.text text), .call (Builtin.report sink)])
  /-- The top is shown. -/
  | dump (t : Ty) {j : Nat} (hown : ∀ i ≤ t.textSlots, own (j + i)) : Interlude sink own n (t.dumpCode sink n j)

namespace Interlude

variable {sink : Sink} {own own' : Nat → Prop} {n : Nat} {is : List (Instruction Nat)}

theorem mono (h : Interlude sink own n is) (hown : ∀ i, own i → own' i) : Interlude sink own' n is := by
  cases h with
  | report text => exact .report text
  | dump t h => exact .dump t fun i hi => hown _ (h i hi)

theorem isAside (h : Interlude sink own n is) {i : Instruction Nat} (hi : i ∈ is) : i.IsAside own sink := by
  cases h with
  | report text =>
    refine Ty.isAside_straight (fun o ho => ?_) hi
    simp only [List.mem_cons, List.not_mem_nil, or_false] at ho
    rcases ho with rfl | rfl
    · exact .push _
    · exact .report
  | dump t h => exact Ty.isAside_dumpCode h hi

end Interlude

/-! ## What can be shown -/

/-- What is on top **can be shown** as a value of a type: it is a value that can be, or the address of a place
where there is a value type, or where there is a reference that is neither null nor an array. -/
def Machine.ShowsTop (m : Machine) (t : Ty) : Prop :=
  ∃ v rest, m.frame.stack = v :: rest ∧ (m.world.heap.Shows t v ∨
    ∃ l w, v = .address l ∧ m.read l = .ok w ∧ (t.isValue ∨ t.isArray = false ∧ w ≠ .null))

section shows

variable {ν : Numbering}

/-- Whether a value can be shown does not depend on numbers. -/
theorem Heap.Shows.renumbered {h h' : Heap} {t : Ty} {v v' : Value} (hs : h.Shows t v)
    (hh : h.Renumbered ν h') (hv : v.Renumbered ν v') : h'.Shows t v' := by
  have hplain : (∀ l, v ≠ .address l) → ∀ l, v' ≠ .address l := by
    rintro hne l rfl
    cases hv with
    | constant => exact hne l rfl
    | address => exact hne _ rfl
  induction t using Emit.toFullText.induct generalizing v v' with
  | case1 e ih =>
    rcases hs with rfl | ⟨a, rfl, hcount, hitems⟩
    · cases hv with
      | constant => exact .inl rfl
    · have hsame : v' = .array a := by
        cases hv with
        | constant => rfl
        | array => rfl
      refine .inr ⟨a, hsame, hh.itemCount a ▸ hcount, fun i w' hw' => ?_⟩
      obtain ⟨w, w'', hw, hw'', hww⟩ | ⟨f, -, hf⟩ := hh.getItem a i
      · cases hw'.symm.trans hw''
        refine ih (hitems i w hw) hww fun hne l hl => ?_
        subst hl
        cases hww with
        | constant => exact hne l rfl
        | address => exact hne _ rfl
      · cases hw'.symm.trans hf
  | case2 t hne => exact (Heap.shows_of_not_array hne).2 (hplain ((Heap.shows_of_not_array hne).1 hs))
  | case3 t hne => exact (Heap.shows_of_not_array hne).2 (hplain ((Heap.shows_of_not_array hne).1 hs))

/-- Locations that belong together hold the same. -/
theorem Machine.Renumbered.read {sink : Sink} {m m' : Machine} {l l' : Location} {v : Value}
    (hm : m.Renumbered sink ν m') (hl : l.Renumbered ν l') (h : m.read l = .ok v) :
    ∃ v' ν', ν ≤ ν' ∧ m'.read l' = .ok v' ∧ v.Renumbered ν' v' := by
  have hload : Exec.Agrees (Machine.Renumbered sink) ν Value.Renumbered ((Exec.load l).run m) ((Exec.load l').run m') :=
    Exec.together_load hl ν le_rfl m m' hm
  rw [Exec.run_load, Exec.run_load, h] at hload
  cases hread : m'.read l' with
  | ok v' =>
    rw [hread] at hload
    cases hload with
    | ok hle _ hv => exact ⟨v', _, hle, rfl, hv⟩
  | error f =>
    rw [hread] at hload
    cases hload

theorem Machine.ShowsTop.renumbered {sink : Sink} {m m' : Machine} {t : Ty} (h : m.ShowsTop t)
    (hm : m.Renumbered sink ν m') : m'.ShowsTop t := by
  obtain ⟨v, rest, hstack, h⟩ := h
  obtain ⟨v', rest', hv, -, hstack'⟩ := List.forall₂_cons_left_iff.1 (hstack ▸ hm.stack)
  refine ⟨v', rest', hstack', h.imp (fun h => h.renumbered hm.world.heap hv) ?_⟩
  rintro ⟨l, w, rfl, hread, hw⟩
  cases hv with
  | constant h => cases h
  | address hl =>
    obtain ⟨w', ν', -, hread', hww⟩ := hm.read hl hread
    refine ⟨_, w', rfl, hread', hw.imp_right (And.imp_right fun hne hnull => hne ?_)⟩
    subst hnull
    cases hww with
    | constant => rfl

end shows

/-! ## Crossing interludes -/

/-- Where an interlude stands in the code there is nothing else. -/
theorem Interlude.isAside_of_has {sink : Sink} {own : Nat → Prop} {n : Nat} {is : List (Instruction Nat)}
    {p : Procedure} (hi : Interlude sink own n is) (h : p.Has n is) (n' : Nat)
    (hn' : Procedure.Stretch n (n + is.length) n') (i : Instruction Nat) (hcode : p.code[n']? = some i) :
    i.IsAside own sink := by
  obtain ⟨hfirst, hlast⟩ := hn'
  obtain ⟨k, rfl⟩ := Nat.exists_eq_add_of_le hfirst
  have hk : k < is.length := by omega
  have hsome := h k _ (List.getElem?_eq_getElem hk)
  cases hcode.symm.trans hsome
  exact hi.isAside (List.getElem_mem hk)

namespace Procedure

variable {p : Procedure} {P : Nat → Prop} {own : Nat → Prop} {sink : Sink} {n n' : Nat} {m m' : Machine}

/-- A run **balks** at what cannot be shown: it stops in a dump of it, and what it did by then is beside. -/
def Balks (p : Procedure) (own : Nat → Prop) (sink : Sink) (n : Nat) (m : Machine) : Prop :=
  ∃ t j, p.Has n (t.dumpCode sink n j) ∧ ¬ m.ShowsTop t ∧ ∃ n' m₁ i e m',
    p.Along (Stretch n (n + (t.dumpCode sink n j).length)) n m n' m₁ ∧
      Stretch n (n + (t.dumpCode sink n j).length) n' ∧ p.code[n']? = some i ∧
      (i.execute p.signature.ret).run m₁ = .error e m' ∧ m.Beside own sink m'

end Procedure

end Stackwright
