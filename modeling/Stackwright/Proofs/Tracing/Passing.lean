import Stackwright.Proofs.Machine.Aside
import Stackwright.Proofs.Machine.Stretches
import Stackwright.Proofs.Machine.Visits
import Stackwright.Proofs.Tracing.Dumps

/-! # What dumps do

The code that shows a value **acts aside**: it takes nothing off the stack but what it put there, it uses
locals of its own, and it makes boxes at most. So a run behind a dump is where it was before, as far as the
code around the dump can tell. The text of an array is put together in a loop; since only what a run leaves
behind is claimed, the loop may go on for as long as it likes.

* **`Procedure.Has p n is`** — the code of a procedure has given instructions from a position on.
* **`Procedure.Passes p k n n' a b`** — the code between two positions acts aside.
* **`Procedure.passes_dump`** — a dump leaves the stack as it was. -/

namespace Stackwright

/-! ## The operations of a dump -/

namespace Exec

variable (k : Nat)

theorem acts_top : (Op.execute .dup).Acts k 1 2 := by
  have htop : Quiet top := quiet_get.bind fun m => by
    split
    · exact quiet_throw _
    · exact quiet_pure _
  exact (htop.acts k 1).bind fun v => (acts_push k v).under 1

theorem acts_drop : (Op.execute .pop).Acts k 1 0 := (acts_pop k).bind fun _ => (quiet_pure _).acts k 0

/-- A value on top is there twice behind a copy. -/
theorem exists_of_dup {m m' : Machine} (h : (Op.execute .dup).run m = .ok () m') :
    ∃ v rest, m.frame.stack = v :: rest ∧ m'.frame.stack = v :: v :: rest := by
  obtain ⟨⟨args, locals, stack⟩, world⟩ := m
  cases stack with
  | nil => cases h
  | cons v rest =>
    cases h
    exact ⟨v, rest, rfl, rfl⟩

/-- An operand is replaced by what is computed from it without changing anything. -/
theorem acts_replace {f : Value → Exec Value} (hf : ∀ v, Quiet (f v)) :
    (do push (← f (← pop)) : Exec Unit).Acts k 1 1 :=
  (acts_pop k).bind fun v => ((hf v).acts k 0).bind fun w => acts_push k w

theorem acts_loadThrough : (Op.execute .loadThrough).Acts k 1 1 := acts_replace k quiet_readThrough

theorem acts_convert (kind : ScalarKind) : (Op.execute (.convert kind)).Acts k 1 1 :=
  acts_replace k fun v => quiet_lift (quiet_expect _ v _)

theorem acts_loadLocal (i : Nat) : (Op.execute (.loadLocal i)).Acts k 0 1 :=
  ((quiet_getLocal i).acts k 0).bind fun v => acts_push k v

theorem acts_loadArg (i : Nat) : (Op.execute (.loadArg i)).Acts k 0 1 :=
  ((quiet_getArg i).acts k 0).bind fun v => acts_push k v

/-- A value for a location of some kind is popped. -/
theorem acts_popFit (kind : Option ScalarKind) : (popFit kind).Acts k 1 0 :=
  (acts_pop k).bind fun _ => (quiet_pure _).acts k 0

variable {k}

theorem acts_storeLocal {i : Nat} (hi : k ≤ i) (kind : Option ScalarKind) :
    (Op.execute (.storeLocal i kind)).Acts k 1 0 :=
  (acts_popFit k kind).bind fun _ => acts_setLocal hi _ 0

variable (k)

theorem acts_add : (Op.execute .add).Acts k 2 1 := by
  have hadd : ∀ a b, Quiet (Host.arithmetic Scalar.add a b) := fun a b =>
    (quiet_scalarOf a).bind fun _ => (quiet_scalarOf b).bind fun _ => quiet_pure _
  exact ((acts_pop k).under 1).bind fun b => (acts_pop k).bind fun a =>
    ((quiet_lift (hadd a b)).acts k 0).bind fun _ => acts_push k _

theorem acts_box (t : Ty) : (Op.execute (.box t)).Acts k 1 1 :=
  (acts_pop k).bind fun v => ((quiet_readThrough v).acts k 0).bind fun _ =>
    (acts_allocBox t _ k 0).bind fun _ => acts_push k _

/-- An index is popped. -/
theorem acts_popIndex : popIndex.Acts k 1 0 :=
  (acts_pop k).bind fun v => (quiet_lift (quiet_expect _ v _)).acts k 0

/-- An array is popped. -/
theorem acts_popArray : popArray.Acts k 1 0 := by
  refine (acts_pop k).bind fun v => ?_
  split
  · exact (quiet_pure _).acts k 0
  · exact (quiet_throw _).acts k 0
  · exact (quiet_lift (quiet_unexpected _ _)).acts k 0

theorem acts_itemCount : (Op.execute .itemCount).Acts k 1 1 := by
  refine ((quiet_lift quiet_heap).acts k 1).bind fun h => (acts_popArray k).bind fun a => ?_
  dsimp only
  split
  · exact acts_push k _
  · exact ((quiet_throw _).acts k 0).bind fun v => acts_push k v

theorem acts_loadItem : (Op.execute .loadItem).Acts k 2 1 :=
  ((acts_popIndex k).under 1).bind fun _ => (acts_popArray k).bind fun _ =>
    ((quiet_lift quiet_heap).acts k 0).bind fun _ =>
      ((quiet_lift (quiet_ofExcept _)).acts k 0).bind fun v => acts_push k v

theorem acts_addressItem : (Op.execute .addressItem).Acts k 2 1 :=
  ((acts_popIndex k).under 1).bind fun _ => (acts_popArray k).bind fun _ =>
    ((quiet_lift quiet_heap).acts k 0).bind fun _ =>
      ((quiet_lift (quiet_ofExcept _)).acts k 0).bind fun _ => acts_push k _

/-! ### Methods -/

theorem quiet_argument (args : List Value) (i n : Nat) : Quiet (Builtin.argument args i n) := by
  unfold Builtin.argument
  split
  · exact quiet_pure _
  · exact quiet_throw _

theorem acts_textOf : (Op.execute (.call Builtin.textOf)).Acts k 1 1 :=
  acts_call_pure (g := Builtin.textOf) rfl (fun args => Quiet.sparesHeap
    ((quiet_argument args 0 1).bind fun v => (quiet_display v).bind fun _ => quiet_pure _)) k

theorem acts_joinTwo : (Op.execute (.call Builtin.joinTwo)).Acts k 2 1 :=
  acts_call_pure (g := Builtin.joinTwo) rfl (fun args => Quiet.sparesHeap
    ((quiet_argument args 0 2).bind fun a => (quiet_argument args 1 2).bind fun b =>
      (quiet_display a).bind fun _ => (quiet_display b).bind fun _ => quiet_pure _)) k

theorem acts_joinThree : (Op.execute (.call Builtin.joinThree)).Acts k 3 1 :=
  acts_call_pure (g := Builtin.joinThree) rfl (fun args => Quiet.sparesHeap
    ((quiet_argument args 0 3).bind fun a => (quiet_argument args 1 3).bind fun b =>
      (quiet_argument args 2 3).bind fun c => (quiet_display a).bind fun _ =>
        (quiet_display b).bind fun _ => (quiet_display c).bind fun _ => quiet_pure _)) k

/-- A report takes its text. -/
theorem acts_report (sink : Sink) : (Op.execute (.call (Builtin.report sink))).Acts k 1 0 := by
  refine acts_call_pure (g := Builtin.report sink) rfl (fun args => ?_) k
  cases args with
  | nil =>
    refine ⟨fun w w' x h => (by cases h), fun w w' r h => ?_⟩
    cases h
    rfl
  | cons v vs =>
    refine ⟨fun w w' x h => ?_, fun w w' r h => (by cases h)⟩
    cases h
    exact World.heap_report _ _ _

theorem quiet_holds (c : Comparison) (a b : Value) : Quiet (Host.holds c a b) := by
  cases c with
  | equalTo => exact quiet_heap.bind fun _ => quiet_pure _
  | notEqualTo => exact quiet_heap.bind fun _ => quiet_pure _
  | _ =>
    -- two numbers are read, and nothing is done about a pair without an order
    refine (quiet_scalarOf a).bind fun x => (quiet_scalarOf b).bind fun y => ?_
    split
    · exact quiet_pure _
    · exact quiet_pure _

/-- The operands of a comparison are popped. -/
theorem acts_compare (c : Comparison) (t : Nat) : (Jump.compare c t).follow.Acts k 2 0 :=
  ((acts_pop k).under 1).bind fun b => (acts_pop k).bind fun a =>
    ((quiet_lift (quiet_holds c a b)).acts k 0).bind fun _ => (quiet_pure _).acts k 0

end Exec

/-! ## Code that acts aside -/

namespace Procedure

/-- The code of a procedure **has** given instructions from a position on. -/
def Has (p : Procedure) (n : Nat) (is : List (Instruction Nat)) : Prop :=
  ∀ (j : Nat) (i : Instruction Nat), is[j]? = some i → p.code[n + j]? = some i

/-- The code between two positions **acts aside**, and in place of `a` operands it leaves `b`. -/
def Passes (p : Procedure) (k n n' a b : Nat) : Prop :=
  ∀ (m : Machine) (ys rest : List Value), m.frame.stack = ys ++ rest → ys.length = a →
    p.Leads n n' (fun _ m' => m.Aside k m')
      (fun m' => m.Aside k m' ∧ ∃ zs, zs.length = b ∧ m'.frame.stack = zs ++ rest) n m

variable {p : Procedure} {k n n' mid a b c : Nat} {is is' : List (Instruction Nat)} {m m₁ : Machine}
  {rest : List Value}

theorem has_append : p.Has n (is ++ is') ↔ p.Has n is ∧ p.Has (n + is.length) is' := by
  constructor
  · intro h
    refine ⟨fun j i hi => h j i ?_, fun j i hi => ?_⟩
    · rw [List.getElem?_append_left (List.getElem?_eq_some_iff.1 hi).1, hi]
    · rw [Nat.add_assoc]
      refine h _ i ?_
      rw [List.getElem?_append_right (Nat.le_add_right ..), Nat.add_sub_cancel_left, hi]
  · rintro ⟨h, h'⟩ j i hi
    rcases Nat.lt_or_ge j is.length with hlt | hge
    · rw [List.getElem?_append_left hlt] at hi
      exact h j i hi
    · rw [List.getElem?_append_right hge] at hi
      have := h' _ i hi
      rwa [show n + is.length + (j - is.length) = n + j by omega] at this

theorem has_cons {i : Instruction Nat} :
    p.Has n (i :: is) ↔ p.code[n]? = some i ∧ p.Has (n + 1) is := by
  rw [← List.singleton_append, has_append]
  refine and_congr_left fun _ => ⟨fun h => h 0 i rfl, fun h j i' hi => ?_⟩
  cases j with
  | zero =>
    cases hi
    exact h
  | succ j => simp at hi

/-- Operations as instructions are operations in a row. -/
theorem has_straight {os : List Op} : p.Has n (Op.straight os) ↔ p.HasAt n os := by
  induction os generalizing n with
  | nil => exact iff_of_true (fun j i hi => by simp [Op.straight] at hi) trivial
  | cons o os ih =>
    rw [Op.straight, List.map_cons, has_cons, HasAt]
    exact and_congr_right fun _ => ih

/-! ### Putting it together -/

/-- What is left behind is measured from where the run began. -/
theorem LeadsFor.rebase {first last steps : Nat} (hm : m.Aside k m₁)
    (h : p.LeadsFor first last (fun _ m' => m₁.Aside k m')
      (fun m' => m₁.Aside k m' ∧ ∃ zs, zs.length = b ∧ m'.frame.stack = zs ++ rest) steps n m₁) :
    p.LeadsFor first last (fun _ m' => m.Aside k m')
      (fun m' => m.Aside k m' ∧ ∃ zs, zs.length = b ∧ m'.frame.stack = zs ++ rest) steps n m₁ :=
  h.imp (fun _ _ h => hm.trans h) fun _ h => ⟨hm.trans h.1, h.2⟩

theorem passes_all {os : List Op} (h : p.HasAt n os) (hos : (Exec.all os).Acts k a b)
    (hn : n' = n + os.length) : p.Passes k n n' a b := by
  subst hn
  intro m ys rest hstack hlength steps
  refine .all h (Nat.le_refl _) (Nat.le_refl _) (fun m' hrun steps' _ => .done ?_) fun e m' hrun => ?_
  · exact ⟨hos.ok hrun, hos.stack hstack hlength hrun⟩
  · exact hos.error hrun

theorem Passes.seq (h : p.Passes k n mid a b) (h' : p.Passes k mid n' b c) (hn : n ≤ mid)
    (hmid : mid ≤ n') : p.Passes k n n' a c := by
  intro m ys rest hstack hlength steps
  refine (h m ys rest hstack hlength steps).seq hmid fun steps' _ m₁ hm₁ => ?_
  obtain ⟨haside, zs, hzs, hstack₁⟩ := hm₁
  exact ((h' m₁ zs rest hstack₁ hzs steps').earlier hn).rebase haside

/-- Operands further down are left alone. -/
theorem Passes.under (h : p.Passes k n n' a b) (c : Nat) : p.Passes k n n' (a + c) (b + c) := by
  intro m ys rest hstack hlength steps
  have hsplit : m.frame.stack = ys.take a ++ (ys.drop a ++ rest) := by
    rw [hstack, ← List.append_assoc, List.take_append_drop]
  refine (h m _ _ hsplit (by simp [hlength]) steps).imp (fun _ _ h => h) fun m' h => ⟨h.1, ?_⟩
  obtain ⟨zs, hzs, hstack'⟩ := h.2
  exact ⟨zs ++ ys.drop a, by simp [hzs, hlength], by rw [hstack', List.append_assoc]⟩

/-! ### The guard against null -/

theorem has_nullGuard {body : List (Instruction Nat)} (h : p.Has n (nullGuard n body)) :
    p.HasAt n [.dup, .push .null] ∧
      p.code[n + 2]? = some (.jump (.compare .notEqualTo (n + 6))) ∧
      p.HasAt (n + 3) [.pop, .push (.text "<null>")] ∧
      p.code[n + 5]? = some (.jump (.always (n + 6 + body.length))) ∧ p.Has (n + 6) body := by
  simp only [nullGuard, Op.straight, List.map_cons, List.map_nil, List.cons_append, List.nil_append,
    has_cons] at h
  obtain ⟨h₀, h₁, h₂, h₃, h₄, h₅, hbody⟩ := h
  exact ⟨⟨h₀, h₁, trivial⟩, h₂, ⟨h₃, h₄, trivial⟩, h₅, hbody⟩

/-- Code behind a **guard against null** acts aside if it does so by itself. -/
theorem passes_nullGuard {body : List (Instruction Nat)} (h : p.Has n (nullGuard n body))
    (hbody : p.Passes k (n + 6) (n + 6 + body.length) 1 1) :
    p.Passes k n (n + 6 + body.length) 1 1 := by
  obtain ⟨hhead, htest, hnull, hjump, -⟩ := has_nullGuard h
  have hhead : p.Passes k n (n + 2) 1 3 := passes_all hhead
    (Exec.acts_cons (Exec.acts_top k) (Exec.acts_cons ((Exec.acts_push k _).under 2)
      (Exec.acts_nil k 3))) rfl
  have hnull : p.Passes k (n + 3) (n + 5) 1 1 := passes_all hnull
    (Exec.acts_cons (Exec.acts_drop k) (Exec.acts_cons (Exec.acts_push k _) (Exec.acts_nil k 1))) rfl
  intro m ys rest hstack hlength steps
  refine (hhead m ys rest hstack hlength steps).seq (by omega)
    fun steps₁ _ m₁ ⟨haside₁, zs, hzs, hstack₁⟩ => ?_
  refine .jump htest (by omega) (by omega) (fun target m₂ hrun steps₂ _ => ?_) fun e m₂ hrun =>
    haside₁.trans ((Exec.acts_compare k _ _).error hrun)
  have haside₂ := haside₁.trans ((Exec.acts_compare k _ _).ok hrun)
  obtain ⟨xs, hxs, hstack₂⟩ := ((Exec.acts_compare k _ _).under 1).stack hstack₁ hzs hrun
  have htarget := (Jump.compare .notEqualTo (n + 6)).answers_follow m₁ m₂ target hrun
  -- the comparison goes to the body, or to the text of null and from there past the body
  cases target with
  | some t =>
    obtain rfl := List.mem_singleton.1 (htarget t rfl)
    exact ((hbody m₂ xs rest hstack₂ hxs steps₂).earlier (by omega)).rebase haside₂
  | none =>
    refine ((hnull m₂ xs rest hstack₂ hxs steps₂).seq (by omega)
      fun steps₃ _ m₃ ⟨haside₃, us, hus, hstack₃⟩ => ?_).earlier (by omega) |>.rebase haside₂
    refine .jump hjump (by omega) (by omega) (fun target m₄ hrun steps₄ _ => ?_) fun e m₄ hrun => ?_
    · cases hrun
      exact .done ⟨haside₃, us, hus, hstack₃⟩
    · cases hrun

/-! ### The counted loop -/

theorem has_countLoop {l x : Nat} {body : List (Instruction Nat)}
    (h : p.Has n (countLoop l x n body)) :
    p.HasAt n [.push (.ofInt32 0), .storeLocal l (some .i32)] ∧
      p.code[n + 2]? = some (.jump (.always (n + 3 + body.length + 4))) ∧ p.Has (n + 3) body ∧
      p.HasAt (n + 3 + body.length) [.loadLocal l, .push (.ofInt32 1), .add,
        .storeLocal l (some .i32)] ∧
      p.HasAt (n + 3 + body.length + 4) [.loadLocal l, .loadLocal x, .itemCount, .convert .i32] ∧
      p.code[n + 3 + body.length + 8]? = some (.jump (.compare .lessThan (n + 3))) := by
  simp only [countLoop, Op.straight, List.map_cons, List.map_nil, List.cons_append, List.nil_append,
    has_cons, has_append] at h
  obtain ⟨h₀, h₁, h₂, hbody, h₃, h₄, h₅, h₆, h₇, h₈, h₉, h₁₀, h₁₁, -⟩ := h
  exact ⟨⟨h₀, h₁, trivial⟩, h₂, hbody, ⟨h₃, h₄, h₅, h₆, trivial⟩, ⟨h₇, h₈, h₉, h₁₀, trivial⟩, h₁₁⟩

/-- A **counted loop** acts aside if its body does. -/
theorem passes_countLoop {l x : Nat} {body : List (Instruction Nat)}
    (h : p.Has n (countLoop l x n body)) (hl : k ≤ l)
    (hbody : p.Passes k (n + 3) (n + 3 + body.length) 0 0) :
    p.Passes k n (n + 3 + body.length + 9) 0 0 := by
  obtain ⟨hhead, hjump, -, hback, htest, hless⟩ := has_countLoop h
  have hhead : p.Passes k n (n + 2) 0 0 := passes_all hhead
    (Exec.acts_cons (Exec.acts_push k _) (Exec.acts_cons (Exec.acts_storeLocal hl _)
      (Exec.acts_nil k 0))) rfl
  have hback : p.Passes k (n + 3 + body.length) (n + 3 + body.length + 4) 0 0 := passes_all hback
    (Exec.acts_cons (Exec.acts_loadLocal k l) (Exec.acts_cons ((Exec.acts_push k _).under 1)
      (Exec.acts_cons (Exec.acts_add k) (Exec.acts_cons (Exec.acts_storeLocal hl _)
        (Exec.acts_nil k 0))))) rfl
  have htest : p.Passes k (n + 3 + body.length + 4) (n + 3 + body.length + 8) 0 2 := passes_all htest
    (Exec.acts_cons (Exec.acts_loadLocal k l) (Exec.acts_cons ((Exec.acts_loadLocal k x).under 1)
      (Exec.acts_cons ((Exec.acts_itemCount k).under 1) (Exec.acts_cons
        ((Exec.acts_convert k _).under 1) (Exec.acts_nil k 2))))) rfl
  -- from the test on, by induction on the number of steps
  have hloop : ∀ steps m rest, m.frame.stack = rest →
      p.LeadsFor n (n + 3 + body.length + 9) (fun _ m' => m.Aside k m')
        (fun m' => m.Aside k m' ∧ ∃ zs : List Value, zs.length = 0 ∧ m'.frame.stack = zs ++ rest)
        steps (n + 3 + body.length + 4) m := by
    intro steps
    induction steps using Nat.strong_induction_on with
    | _ steps ih =>
      intro m rest hstack
      refine ((htest m [] rest hstack rfl steps).earlier (by omega)).seq (by omega)
        fun steps₁ hle₁ m₁ ⟨haside₁, zs, hzs, hstack₁⟩ => ?_
      refine .jump hless (by omega) (by omega) (fun target m₂ hrun steps₂ hlt₂ => ?_) fun e m₂ hrun =>
        haside₁.trans ((Exec.acts_compare k _ _).error hrun)
      have haside₂ := haside₁.trans ((Exec.acts_compare k _ _).ok hrun)
      obtain ⟨xs, hxs, hstack₂⟩ := (Exec.acts_compare k _ _).stack hstack₁ hzs hrun
      have htarget := (Jump.compare .lessThan (n + 3)).answers_follow m₁ m₂ target hrun
      cases target with
      | none => exact .done ⟨haside₂, xs, hxs, hstack₂⟩
      | some t =>
        obtain rfl := List.mem_singleton.1 (htarget t rfl)
        refine (((hbody.seq hback (by omega) (by omega)) m₂ xs rest hstack₂ hxs steps₂).earlier
          (by omega)).rebase haside₂ |>.seq (by omega) fun steps₃ hle₃ m₃ ⟨haside₃, us, hus, hstack₃⟩ => ?_
        obtain rfl := List.length_eq_zero_iff.1 hus
        exact (ih steps₃ (by omega) m₃ rest hstack₃).rebase haside₃
  intro m ys rest hstack hlength steps
  refine (hhead m ys rest hstack hlength steps).seq (by omega)
    fun steps₁ _ m₁ ⟨haside₁, zs, hzs, hstack₁⟩ => ?_
  obtain rfl := List.length_eq_zero_iff.1 hzs
  refine .jump hjump (by omega) (by omega) (fun target m₂ hrun steps₂ _ => ?_) fun e m₂ hrun => ?_
  · cases hrun
    exact (hloop steps₂ _ rest hstack₁).rebase haside₁
  · cases hrun

/-! ### Text -/

theorem acts_itemLoad (e : Ty) (k : Nat) : (Exec.all e.itemLoad).Acts k 2 1 := by
  unfold Ty.itemLoad
  split
  · exact Exec.acts_cons (Exec.acts_addressItem k) (Exec.acts_cons (Exec.acts_loadThrough k)
      (Exec.acts_nil k 1))
  · exact Exec.acts_cons (Exec.acts_loadItem k) (Exec.acts_nil k 1)

theorem acts_itemHead (e : Ty) (k j : Nat) : (Exec.all (e.itemHead j)).Acts k 0 2 := by
  rw [Ty.itemHead, Exec.all_append]
  exact (Exec.acts_cons (Exec.acts_loadLocal k _) (Exec.acts_cons ((Exec.acts_loadLocal k _).under 1)
    (Exec.acts_cons ((Exec.acts_loadLocal k _).under 2) (Exec.acts_nil k 3)))).bind fun _ =>
      (acts_itemLoad e k).under 1

theorem acts_itemLast {k j : Nat} (hj : k ≤ j) : (Exec.all (Ty.itemLast j)).Acts k 2 0 :=
  Exec.acts_cons ((Exec.acts_push k _).under 2) (Exec.acts_cons (Exec.acts_joinThree k)
    (Exec.acts_cons (Exec.acts_storeLocal (Nat.le_succ_of_le hj) _) (Exec.acts_nil k 0)))

/-- The code for the text of an **array** acts aside if that for its items does. -/
theorem passes_arrayCode {e : Ty} {j : Nat} {item : Nat → List (Instruction Nat)} (hj : k ≤ j)
    (h : p.Has n (e.arrayCode n j item))
    (hitem : ∀ n, p.Has n (item n) → p.Passes k n (n + (item n).length) 1 1) :
    p.Passes k n (n + (e.arrayCode n j item).length) 1 1 := by
  let head := Op.straight (e.itemHead j)
  let text := item (n + 6 + (e.itemHead j).length)
  let last := Op.straight (Ty.itemLast j)
  obtain ⟨hrest, htail⟩ := has_append.1 h
  obtain ⟨hhead, hloop⟩ := has_append.1 hrest
  have hloop : p.Has (n + 3) (countLoop (j + 2) j (n + 3) (head ++ text ++ last)) := hloop
  obtain ⟨-, -, hbody, -, -, -⟩ := has_countLoop hloop
  obtain ⟨hbody, hlast⟩ := has_append.1 hbody
  obtain ⟨hload, htext⟩ := has_append.1 hbody
  have hbodylength : (head ++ text ++ last).length =
      (e.itemHead j).length + text.length + (Ty.itemLast j).length := by
    simp [head, last, Nat.add_assoc]
  have hheadlength : head.length = (e.itemHead j).length := by simp [head]
  rw [List.length_append, hheadlength] at hlast
  rw [hheadlength] at htext
  -- the body of the loop
  have hload : p.Passes k (n + 3 + 3) (n + 6 + (e.itemHead j).length) 0 2 :=
    passes_all (has_straight.1 hload) (acts_itemHead e k j) rfl
  have htext : p.Passes k (n + 6 + (e.itemHead j).length)
      (n + 6 + (e.itemHead j).length + text.length) 2 2 := (hitem _ htext).under 1
  have hlast : p.Passes k (n + 6 + (e.itemHead j).length + text.length)
      (n + 3 + 3 + (head ++ text ++ last).length) 2 0 :=
    passes_all (has_straight.1 (by rwa [Nat.add_assoc (n + 6)])) (acts_itemLast hj)
      (by rw [hbodylength]; omega)
  have hbody : p.Passes k (n + 3 + 3) (n + 3 + 3 + (head ++ text ++ last).length) 0 0 :=
    (hload.seq htext (by omega) (by omega)).seq hlast (by omega) (by rw [hbodylength]; omega)
  have hloops := passes_countLoop hloop (Nat.le_add_right_of_le hj) hbody
  -- what is around the loop
  have hhead : p.Passes k n (n + 3) 1 0 := passes_all (has_straight.1 hhead)
    (Exec.acts_cons (Exec.acts_storeLocal hj _) (Exec.acts_cons (Exec.acts_push k _)
      (Exec.acts_cons (Exec.acts_storeLocal (Nat.le_succ_of_le hj) _) (Exec.acts_nil k 0)))) rfl
  have hend : n + (Op.straight (Ty.arrayHead j) ++ countLoop (j + 2) j (n + 3)
      (head ++ text ++ last)).length = n + 3 + 3 + (head ++ text ++ last).length + 9 := by
    simp [Ty.arrayHead, countLoop]
    omega
  have hsize : n + (e.arrayCode n j item).length =
      n + 3 + 3 + (head ++ text ++ last).length + 9 + 3 := by
    rw [← hend, Nat.add_assoc n]
    exact congrArg (n + ·) (List.length_append ..)
  have htail : p.Passes k (n + 3 + 3 + (head ++ text ++ last).length + 9)
      (n + (e.arrayCode n j item).length) 0 1 := by
    rw [hend] at htail
    exact passes_all (has_straight.1 htail) (Exec.acts_cons (Exec.acts_loadLocal k _)
      (Exec.acts_cons ((Exec.acts_push k _).under 1) (Exec.acts_cons (Exec.acts_joinTwo k)
        (Exec.acts_nil k 1)))) hsize
  exact (hhead.seq hloops (by omega) (by omega)).seq htail (by omega) (by omega)

theorem passes_referenceText {body : List (Instruction Nat)} (h : p.Has n (nullGuard n body))
    (hbody : p.Passes k (n + 6) (n + 6 + body.length) 1 1) :
    p.Passes k n (n + (nullGuard n body).length) 1 1 := by
  have hsize : n + (nullGuard n body).length = n + 6 + body.length := by
    simp [nullGuard]
    omega
  rw [hsize]
  exact passes_nullGuard h hbody

/-- The code for the **text** of a value takes the value and leaves a text. -/
theorem passes_textCode {t : Ty} {j : Nat} (hj : k ≤ j) (h : p.Has n (t.textCode n j)) :
    p.Passes k n (n + (t.textCode n j).length) 1 1 := by
  induction t using Emit.toFullText.induct generalizing n j with
  | case1 e ih =>
    rw [Ty.textCode] at h ⊢
    obtain ⟨-, -, -, -, hbody⟩ := has_nullGuard h
    exact passes_referenceText h (passes_arrayCode hj hbody fun n' hn' =>
      ih (Nat.le_add_right_of_le hj) hn')
  | case2 t hne hvalue =>
    rw [Ty.textCode_of_not_array hne, if_pos hvalue] at h ⊢
    exact passes_all (has_straight.1 h) (Exec.acts_cons (Exec.acts_box k t)
      (Exec.acts_cons (Exec.acts_textOf k) (Exec.acts_nil k 1))) rfl
  | case3 t hne hvalue =>
    rw [Ty.textCode_of_not_array hne, if_neg hvalue] at h ⊢
    obtain ⟨-, -, -, -, hbody⟩ := has_nullGuard h
    exact passes_referenceText h (passes_all (has_straight.1 hbody)
      (Exec.acts_cons (Exec.acts_textOf k) (Exec.acts_nil k 1)) rfl)

/-- A **dump** leaves the stack as it was, and all else but its own locals and boxes. -/
theorem leads_dump {t : Ty} {sink : Sink} {j : Nat} (hj : k ≤ j) (h : p.Has n (t.dumpCode sink n j))
    (m : Machine) :
    p.Leads n (n + (t.dumpCode sink n j).length) (fun _ m' => m.Aside k m')
      (fun m' => m.Aside k m' ∧ m'.frame.stack = m.frame.stack) n m := by
  obtain ⟨hhead, hlast⟩ := has_append.1 h
  obtain ⟨hdup, htext⟩ := has_append.1 hhead
  have hend : n + (Op.straight [.dup] ++ t.textCode (n + 1) j).length =
      n + 1 + (t.textCode (n + 1) j).length := by
    simp [Op.straight]
    omega
  have hsize : n + (t.dumpCode sink n j).length = n + 1 + (t.textCode (n + 1) j).length + 5 := by
    rw [← hend, Nat.add_assoc n]
    exact congrArg (n + ·) (List.length_append ..)
  rw [hend] at hlast
  have htext : p.Passes k (n + 1) (n + 1 + (t.textCode (n + 1) j).length) 1 1 :=
    passes_textCode hj htext
  have hslot : k ≤ j + t.textSlots := Nat.le_add_right_of_le hj
  have hlast : p.Passes k (n + 1 + (t.textCode (n + 1) j).length)
      (n + (t.dumpCode sink n j).length) 1 0 :=
    passes_all (has_straight.1 hlast) (Exec.acts_cons (Exec.acts_storeLocal hslot _)
      (Exec.acts_cons (Exec.acts_push k _) (Exec.acts_cons ((Exec.acts_loadLocal k _).under 1)
        (Exec.acts_cons (Exec.acts_joinTwo k) (Exec.acts_cons (Exec.acts_report k sink)
          (Exec.acts_nil k 0)))))) hsize
  intro steps
  -- the copy of the value is all that is used
  refine .op (has_cons.1 hdup).1 (Nat.le_refl _) (by omega) (fun m₁ hrun steps₁ _ => ?_) fun e m₁ hrun =>
    (Exec.acts_top k).error hrun
  obtain ⟨v, rest, hstack, hstack₁⟩ : ∃ v rest, m.frame.stack = v :: rest ∧
      m₁.frame.stack = v :: v :: rest :=
    Exec.exists_of_dup hrun
  have hall := ((htext.seq hlast (by omega) (by omega)) m₁ [v] (v :: rest) hstack₁ rfl steps₁).earlier
    (Nat.le_succ n)
  refine (hall.rebase ((Exec.acts_top k).ok hrun)).imp (fun _ _ h => h) fun m' h => ⟨h.1, ?_⟩
  obtain ⟨zs, hzs, hstack'⟩ := h.2
  obtain rfl := List.length_eq_zero_iff.1 hzs
  rw [hstack', hstack]
  rfl

end Procedure

end Stackwright
