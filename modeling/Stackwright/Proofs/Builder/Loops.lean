import Stackwright.Proofs.Builder.Going
import Stackwright.Proofs.Builder.Guards
import Stackwright.Proofs.Builder.Parts

/-! # Counted loops

A counted loop is opened by storing its start into the index and a jump to the test. The test is recorded
by the end of the loop, behind the code that counts up; it reads the index and the bound again in each round
and goes back to the body while the index is less.

* **`Machine.Bounds`** — an operand bounds a loop by an integer.
* **`Procedure.Rounds`** — a run goes through a body again and again.
* **`Builder.loop_counts`** — a loop runs its body once for each integer from its start to its bound. -/

namespace Stackwright

/-! ## Operands that stand for integers -/

/-- An operand **stands for** an integer. -/
inductive Machine.Stands (m : Machine) (o : Operand) : Int → Prop
  /-- It is a word. -/
  | word {k : WordKind} {v : BitVec k.bits} (ht : o.type.isArray = false)
      (ho : m.operand? o = some (.scalar (.word k v))) : Stands m o (Scalar.wordValue k v)

/-- An operand **bounds** a loop by an integer: by the one that it stands for, or by the number of its items if
it is an array. A full trace shows the array, so there its items must be such that they can be shown. -/
inductive Machine.Bounds (m : Machine) (level : TraceDetail) (o : Operand) : Int → Prop
  /-- By an integer. -/
  | value {z : Int} (h : m.Stands o z) : Bounds m level o z
  /-- By the length of an array. -/
  | length {a : ArrayId} (ht : o.type.isArray) (ho : m.operand? o = some (.array a))
      (hcount : m.world.heap.itemCount a < 1 <<< 31)
      (hshows : level = .full → m.world.heap.Shows o.type (.array a)) :
      Bounds m level o (m.world.heap.itemCount a)

namespace Machine

variable {m m' : Machine} {level : TraceDetail} {o : Operand} {z : Int} {k : Nat}

theorem Stands.aside (h : m.Stands o z) (hm : m.Aside k m') (ho : o.Below k) : m'.Stands o z := by
  cases h with
  | word ht hv => exact .word ht ((hm.operand ho).trans hv)

theorem Bounds.aside (h : m.Bounds level o z) (hm : m.Aside k m') (ho : o.Below k) : m'.Bounds level o z := by
  cases h with
  | value h => exact .value (h.aside hm ho)
  | @length a ht hv hcount hshows =>
    have hsame : m'.world.heap.itemCount a = m.world.heap.itemCount a := by
      rw [Heap.itemCount, hm.heap.arrayCell, Heap.itemCount]
    rw [← hsame] at hcount ⊢
    exact .length ht ((hm.operand ho).trans hv) hcount fun hfull => (hshows hfull).adds hm.heap

/-- Another local does not matter. -/
theorem Bounds.withLocal {l : Nat} (h : m.Bounds level o z) (hl : ∀ x ∈ o.locals, x.index ≠ l) (v : Value) :
    (m.withLocal l v).Bounds level o z := by
  have hsame : (m.withLocal l v).operand? o = m.operand? o := by
    cases o with
    | constant c => rfl
    | argument a => rfl
    | «variable» x => exact Machine.getElem?_withLocal_ne (hl x (List.mem_singleton_self x)).symm
  cases h with
  | value h =>
    cases h with
    | word ht hv => exact .value (.word ht (hsame.trans hv))
  | length ht hv hcount hshows => exact .length ht (hsame.trans hv) hcount hshows

end Machine

namespace Heap

/-- Scalars can be shown where no array is expected. -/
theorem shows_scalar {h : Heap} {t : Ty} (ht : t.isArray = false) (s : Scalar) : h.Shows t (.scalar s) := by
  refine (shows_of_not_array ?_).2 nofun
  rintro e rfl
  cases ht

end Heap

/-- What is stored as a scalar is no array. -/
theorem Ty.isArray_of_storedAs {t : Ty} {k : ScalarKind} (h : t.storedAs? = some k) : t.isArray = false := by
  cases t <;> first | rfl | cases h

/-! ## What the calls record -/

namespace Emit

variable {level : TraceDetail} {s s' : Session} {k : Nat} {l : Local} {o start bound : Operand} {z : Int}
  {m m' : Machine}

theorem shown_of_stands (h : m.Stands o z) : Shown level o m := by
  cases h with
  | word ht ho =>
    refine ⟨_, ho, ?_⟩
    rintro - l rfl
    exact Heap.shows_scalar ht _

theorem shown_of_bounds (h : m.Bounds level o z) : Shown level o m := by
  cases h with
  | value h => exact shown_of_stands h
  | length ht ho hcount hshows =>
    refine ⟨_, ho, ?_⟩
    rintro hfull l rfl
    exact hshows hfull

/-- The **bound** of a loop is on top of what was on the stack before. -/
def LoadsBound (level : TraceDetail) (k : Nat) (o : Operand) (m m' : Machine) : Prop :=
  m.Aside k m' ∧ ∀ z, m.Bounds level o z → ∃ (j : WordKind) (v : BitVec j.bits), Scalar.wordValue j v = z ∧
    m'.frame.stack = .scalar (.word j v) :: m.frame.stack

/-- The length of an array is loaded, as a 32-bit integer. -/
theorem goes_loadLength (h : (loadLength.run (.ofLevel level)).run s = .ok () s') :
    s.Goes (fun m => ∃ a rest, m.frame.stack = .array a :: rest ∧ m.world.heap.itemCount a < 1 <<< 31)
      (fun m m' => m.Aside k m' ∧ ∀ a rest, m.frame.stack = .array a :: rest → m.world.heap.itemCount a < 1 <<< 31 →
        m'.frame.stack = .ofInt32 (m.world.heap.itemCount a) :: rest) s' := by
  obtain ⟨u, s₁, hcount, hconvert⟩ := run_bind_eq_ok.1 h
  refine ((goes_traced hcount).trans (goes_traced hconvert)).imp ?_ ?_
  · rintro m ⟨a, rest, hstack, hlt⟩
    refine ⟨fun m₁ halike => ⟨_, Exec.run_itemCount (halike.stack.trans hstack) (by rwa [halike.heap])⟩, ?_⟩
    rintro m₂ ⟨m₁, halike, hrun⟩ m₃ halike'
    cases (Exec.run_itemCount (halike.stack.trans hstack) (by rwa [halike.heap])).symm.trans hrun
    exact ⟨_, Exec.run_convert .i32 halike'.stack⟩
  · rintro m m' ⟨m₂, ⟨m₁, halike, hrun⟩, m₃, halike', hrun'⟩
    refine ⟨?_, fun a rest hstack hlt => ?_⟩
    · exact (Machine.Aside.of_alike k halike).trans (((Exec.acts_itemCount k).ok hrun).trans
        ((Machine.Aside.of_alike k halike').trans ((Exec.acts_convert k .i32).ok hrun')))
    · cases (Exec.run_itemCount (halike.stack.trans hstack) (by rwa [halike.heap])).symm.trans hrun
      cases (Exec.run_convert .i32 halike'.stack).symm.trans hrun'
      rw [halike.heap]
      rfl

/-- The index of a loop is **counted up**, and all else is as it was. -/
def CountsUp (k : Nat) (l : Local) (m m' : Machine) : Prop :=
  ∀ (j : WordKind) (v : BitVec j.bits), l.type.storedAs? = some (.word j) →
    m.frame.locals[l.index]? = some (.scalar (.word j v)) →
      (m.withLocal l.index (.scalar (.wrap j (Scalar.wordValue j v + 1)))).Interlude k m'

/-- A local holds a word of the kind that it is stored as. -/
def Counter (l : Local) (m : Machine) : Prop :=
  ∃ (j : WordKind) (v : BitVec j.bits), l.type.storedAs? = some (.word j) ∧
    m.frame.locals[l.index]? = some (.scalar (.word j v))

theorem goes_countUp {s₁ s₂ s₃ s₄ : Session} (hk : k ≤ s.locals.size) (hlabels : 0 < s.labels.entries.size)
    (hload : ((loadLocal l).run (.ofLevel level)).run s = .ok () s₁)
    (hone : ((loadInt 1).run (.ofLevel level)).run s₁ = .ok () s₂)
    (hadd : ((traced "Add" .add).run (.ofLevel level)).run s₂ = .ok () s₃)
    (hstore : ((storeLocal l).run (.ofLevel level)).run s₃ = .ok () s₄) :
    s.Goes (Counter l) (CountsUp k l) s₄ := by
  have hloads := goes_load (o := .variable l) hk hlabels hload
  have hpush := goes_push (k := k) hone
  have hfront := hloads.trans (hpush.trans (goes_traced hadd))
  have hstores := goes_storeLocal (k := k) (Nat.le_trans hk hfront.locals)
    (Nat.lt_of_lt_of_le hlabels hfront.labels) hstore
  -- what is stored is one more
  have hsum : ∀ (m m' : Machine) (j : WordKind) (v : BitVec j.bits), l.type.storedAs? = some (.word j) →
      m.frame.locals[l.index]? = some (.scalar (.word j v)) →
      (∃ m₁, Loads k (.variable l) m m₁ ∧ ∃ m₂, (m₁.Aside k m₂ ∧ m₂.frame.stack = .ofInt32 1 :: m₁.frame.stack) ∧
        ∃ m₃, m₂.Alike m₃ ∧ (Op.execute .add).run m₃ = .ok () m') →
      m.Aside k m' ∧ m'.frame.stack = .scalar ((Scalar.word j v).add (.i32 1)) :: m.frame.stack := by
    rintro m m' j v hkind hv ⟨m₁, ⟨haside, w, hw, hstack⟩, m₂, ⟨haside', hstack'⟩, m₃, halike, hrun⟩
    cases hv.symm.trans hw
    rw [hstack] at hstack'
    cases (Exec.run_add (halike.stack.trans hstack')).symm.trans hrun
    exact ⟨haside.trans (haside'.trans ((Machine.Aside.of_alike k halike).trans (.withStack k _ _))), rfl⟩
  refine (hfront.trans hstores).imp ?_ ?_
  · rintro m ⟨j, v, hkind, hv⟩
    have harray := Ty.isArray_of_storedAs hkind
    refine ⟨⟨shown_of_stands (.word (o := .variable l) harray hv), fun m₁ hm₁ => ⟨trivial, fun m₂ hm₂ m₃ halike => ?_⟩⟩,
      fun m' hm' => ?_⟩
    · obtain ⟨-, w, hw, hstack⟩ := hm₁
      cases hv.symm.trans hw
      exact ⟨_, Exec.run_add (halike.stack.trans (hm₂.2.trans (congrArg _ hstack)))⟩
    · obtain ⟨haside, hstack⟩ := hsum m m' j v hkind hv hm'
      refine ⟨haside.size ▸ (Array.getElem?_eq_some_iff.1 hv).1, _, _, hstack, fun _ => Heap.shows_scalar harray _⟩
  · rintro m m'' ⟨m', hm', u, rest, hstack, hl, hinterlude⟩ j v hkind hv
    obtain ⟨haside, hstack'⟩ := hsum m m' j v hkind hv hm'
    cases hstack'.symm.trans hstack
    rw [hkind, Value.fit_scalar, Scalar.convert_add_one] at hinterlude
    have hset : (m.withLocal l.index (.scalar (.wrap j (Scalar.wordValue j v + 1)))).Interlude k
        ((m'.withStack m.frame.stack).withLocal l.index (.scalar (.wrap j (Scalar.wordValue j v + 1)))) :=
      ⟨(haside.replaceStack m.frame.stack).withLocal l.index _, rfl⟩
    exact hset.trans hinterlude

/-- The index and the **bound** of a loop are on top of what was on the stack before. -/
def LoadsTest (level : TraceDetail) (k : Nat) (l : Local) (o : Operand) (m m' : Machine) : Prop :=
  m.Aside k m' ∧ ∀ (z : Int) (x : Value), m.Bounds level o z → m.frame.locals[l.index]? = some x →
    ∃ (j : WordKind) (v : BitVec j.bits), Scalar.wordValue j v = z ∧
      m'.frame.stack = .scalar (.word j v) :: x :: m.frame.stack

/-- A bound that is no array is loaded, and of an array its length. -/
theorem goes_loadBound (hk : k ≤ s.locals.size) (hlabels : 0 < s.labels.entries.size)
    (h : ((do load o; if o.type.isArray then loadLength : Emit Unit).run (.ofLevel level)).run s = .ok () s') :
    s.Goes (fun m => ∃ z, m.Bounds level o z) (LoadsBound level k o) s' := by
  obtain ⟨u, s₁, hload, h⟩ := run_bind_eq_ok.1 h
  have hloads := goes_load hk hlabels hload
  by_cases ht : o.type.isArray
  · rw [if_pos ht] at h
    refine (hloads.trans (goes_loadLength (k := k) h)).imp ?_ ?_
    · rintro m ⟨z, hz⟩
      refine ⟨shown_of_bounds hz, fun m' hm' => ?_⟩
      cases hz with
      | value hz =>
        cases hz with
        | word hnot _ => rw [hnot] at ht; cases ht
      | length _ ha hcount _ =>
        obtain ⟨haside, v, hv, hstack⟩ := hm'
        cases ha.symm.trans hv
        refine ⟨_, _, hstack, ?_⟩
        rwa [Heap.itemCount, haside.heap.arrayCell]
    · rintro m m' ⟨m₁, ⟨haside, v, hv, hstack⟩, haside', hcounted⟩
      refine ⟨haside.trans haside', fun z hz => ?_⟩
      cases hz with
      | value hz =>
        cases hz with
        | word hnot _ => rw [hnot] at ht; cases ht
      | @length a _ ha hcount _ =>
        cases ha.symm.trans hv
        have hsame : m₁.world.heap.itemCount a = m.world.heap.itemCount a := by
          rw [Heap.itemCount, haside.heap.arrayCell, Heap.itemCount]
        have hstack' := hcounted a _ hstack (hsame ▸ hcount)
        rw [hsame] at hstack'
        exact ⟨.i32, _, Scalar.wordValue_lowBits (k := .i32) (spans_i32 hcount), hstack'⟩
  · rw [if_neg ht] at h
    cases h
    refine hloads.imp ?_ ?_
    · rintro m ⟨z, hz⟩
      exact shown_of_bounds hz
    rintro m m' ⟨haside, v, hv, hstack⟩
    refine ⟨haside, fun z hz => ?_⟩
    cases hz with
    | value hz =>
      cases hz with
      | @word j w hnot ho =>
        cases ho.symm.trans hv
        exact ⟨j, w, rfl, hstack⟩
    | length hyes _ _ _ => exact absurd hyes ht

/-- The index of a loop is **set** to its start, and all else is as it was. -/
def SetsIndex (k : Nat) (l : Local) (start : Operand) (m m' : Machine) : Prop :=
  ∃ v, m.operand? start = some v ∧ (m.withLocal l.index (Value.fit l.type.storedAs? v)).Interlude k m'

/-- A machine can **set the index** of a loop. -/
def CanSet (l : Local) (start : Operand) (m : Machine) : Prop :=
  l.type.isArray = false ∧ l.index < m.frame.locals.size ∧ ∃ z, m.Stands start z

/-- Reports before and behind do not matter. -/
theorem SetsIndex.alike {m₁ m₂ : Machine} (h : SetsIndex k l start m₁ m₂) (hm : m.Alike m₁) (hm' : m₂.Alike m') :
    SetsIndex k l start m m' := by
  obtain ⟨v, hv, hinterlude⟩ := h
  have hsame : m₁.operand? start = m.operand? start := by
    cases start <;> simp only [Machine.operand?, hm.frame]
  have hset : (m.withLocal l.index (Value.fit l.type.storedAs? v)).Interlude k
      (m₁.withLocal l.index (Value.fit l.type.storedAs? v)) :=
    ⟨(Machine.Aside.of_alike k hm).withLocal l.index _, hm.stack⟩
  exact ⟨v, hsame ▸ hv, hset.trans (hinterlude.trans ⟨.of_alike k hm', hm'.stack⟩)⟩

theorem goes_setIndex {s₁ : Session} (hk : k ≤ s.locals.size) (hlabels : 0 < s.labels.entries.size)
    (hload : ((load start).run (.ofLevel level)).run s = .ok () s₁)
    (hstore : ((storeLocal l).run (.ofLevel level)).run s₁ = .ok () s') :
    s.Goes (CanSet l start) (SetsIndex k l start) s' := by
  have hloads := goes_load hk hlabels hload
  have hstores := goes_storeLocal (k := k) (Nat.le_trans hk hloads.locals)
    (Nat.lt_of_lt_of_le hlabels hloads.labels) hstore
  refine (hloads.trans hstores).imp ?_ fun m m' ⟨m₁, hm₁, hm'⟩ => hm₁.stores hm'
  rintro m ⟨harray, hl, z, hz⟩
  refine ⟨shown_of_stands hz, fun m₁ ⟨haside, v, hv, hstack⟩ => ⟨haside.size ▸ hl, v, _, hstack, fun _ => ?_⟩⟩
  cases hz with
  | word ht ho =>
    cases ho.symm.trans hv
    exact Heap.shows_scalar harray _

theorem tells_numbered (s : Session) : s.Tells s.numbered :=
  ⟨Session.Change.loop.grows.extends, rfl, rfl, Nat.le_refl _, fun _ _ => .refl _ _⟩

/-- A counted loop **begins** with its start, which is stored into the index, and a jump to the test. The body
is behind the jump. -/
theorem begun_of_openFor (hk : k ≤ s.locals.size) (hlabels : 0 < s.labels.entries.size) {h : LoopHandle}
    (hrun : ((openFor (some l) start bound).run (.ofLevel level)).run s = .ok h s') :
    ∃ (loop : LoopState) (s₁ s₂ : Session), loop.slot = some l ∧ loop.bound = bound ∧
      s.Goes (CanSet l start) (SetsIndex k l start) s₁ ∧ (s₁.jumped (.always loop.test)).Tells s₂ ∧
      s₂.labels.MarkedAt loop.body (s₁.code.size + 1) ∧
      s' = s₂.withConstructs (.counted loop :: s.constructs) := by
  obtain ⟨loop, s₁, hnew, hrun⟩ := run_bind_eq_ok.1 hrun
  rw [run_newLoop] at hnew
  cases hnew
  obtain ⟨u, s₁, hload, hrun⟩ := run_bind_eq_ok.1 hrun
  obtain ⟨u, s₂, hstore, hrun⟩ := run_bind_eq_ok.1 hrun
  obtain ⟨u, s₃, hjump, hrun⟩ := run_bind_eq_ok.1 hrun
  obtain ⟨u, s₄, hmark, hrun⟩ := run_bind_eq_ok.1 hrun
  cases hrun
  have hnew : s.Tells s.numbered.defined.defined :=
    (tells_numbered s).trans ((tells_newLabel (t := .silent) rfl).trans (tells_newLabel (t := .silent) rfl))
  have hset := goes_setIndex (k := k) (by rw [hnew.locals]; exact hk) (Nat.lt_of_lt_of_le hlabels hnew.labels)
    hload hstore
  obtain ⟨s₃, hline, -, rfl⟩ := tells_jump hjump
  obtain ⟨hbehind, hat⟩ := tells_markHere hmark
  have hsame : s₄.constructs = s.constructs :=
    hbehind.constructs.trans (hline.constructs.trans (hset.constructs.trans hnew.constructs))
  refine ⟨_, s₃, s₄, rfl, rfl, ?_, hbehind, ?_, by rw [← hsame]; rfl⟩
  · refine ((hnew.goes.trans hset).trans hline.goes).imp ?_ ?_
    · rintro m ⟨harray, hl, z, hz⟩
      refine ⟨⟨trivial, fun m₁ halike => ⟨harray, ?_, z, ?_⟩⟩, fun _ _ => trivial⟩
      · rwa [halike.frame]
      · cases hz with
        | word ht ho =>
          refine .word ht ?_
          cases start <;> simpa only [Machine.operand?, halike.frame] using ho
    · rintro m m' ⟨m₂, ⟨m₁, halike, hm₂⟩, halike'⟩
      exact hm₂.alike halike halike'
  · simpa using hat

/-- A counted loop **ends** with the code that counts up, the test, where its label is marked, and a jump to the
body. -/
theorem ended_of_closeFor {loop : LoopState} {cs : List Construct} (hcs : s.constructs = .counted loop :: cs)
    (hslot : loop.slot = some l) (hk : k ≤ s.locals.size) (hlabels : 0 < s.labels.entries.size)
    (ho : loop.bound.Below k) (hrun : (closeFor.run (.ofLevel level)).run s = .ok () s') :
    ∃ s₁ s₂ s₃ : Session, (s.withConstructs cs).Goes (Counter l) (CountsUp k l) s₁ ∧ s₁.Tells s₂ ∧
      s₂.labels.MarkedAt loop.test s₁.code.size ∧
      s₂.Goes (fun m => Counter l m ∧ ∃ z, m.Bounds level loop.bound z) (LoadsTest level k l loop.bound) s₃ ∧
      (s₃.jumped (.compare .lessThan loop.body)).Tells s' := by
  obtain ⟨found, s₀, htake, hrun⟩ := run_bind_eq_ok.1 hrun
  rw [run_takeCounted _ s hcs] at htake
  cases htake
  rw [hslot] at hrun
  obtain ⟨u, s₁, hload, hrun⟩ := run_bind_eq_ok.1 hrun
  obtain ⟨u, s₂, hone, hrun⟩ := run_bind_eq_ok.1 hrun
  obtain ⟨u, s₃, hadd, hrun⟩ := run_bind_eq_ok.1 hrun
  obtain ⟨u, s₄, hstore, hrun⟩ := run_bind_eq_ok.1 hrun
  obtain ⟨u, s₅, hmark, hrun⟩ := run_bind_eq_ok.1 hrun
  obtain ⟨u, s₆, hindex, hrun⟩ := run_bind_eq_ok.1 hrun
  -- whatever the bound, the jump is behind it
  obtain ⟨s₇, hbound, hrun⟩ : ∃ s₇,
      ((do load loop.bound; if loop.bound.type.isArray then loadLength : Emit Unit).run (.ofLevel level)).run s₆ =
        .ok () s₇ ∧ ((do jumpIfLess loop.body; markExit loop : Emit Unit).run (.ofLevel level)).run s₇ = .ok () s' := by
    obtain ⟨u, s₇, hbound, hrun⟩ := run_bind_eq_ok.1 hrun
    split at hrun
    · rename_i ht
      obtain ⟨u, s₈, hlength, hrun⟩ := run_bind_eq_ok.1 hrun
      exact ⟨s₈, run_bind_eq_ok.2 ⟨(), s₇, hbound, by rw [if_pos ht]; exact hlength⟩, hrun⟩
    · rename_i ht
      exact ⟨s₇, run_bind_eq_ok.2 ⟨(), s₇, hbound, by rw [if_neg ht]; rfl⟩, hrun⟩
  obtain ⟨u, s₈, hjump, hexit⟩ := run_bind_eq_ok.1 hrun
  obtain ⟨s₈, hline, -, rfl⟩ := tells_jump hjump
  have hup := goes_countUp (s := s.withConstructs cs) (k := k) hk hlabels hload hone hadd hstore
  obtain ⟨hmarked, hat⟩ := tells_markHere hmark
  have hk₅ : k ≤ s₅.locals.size := by
    rw [hmarked.locals]
    exact Nat.le_trans hk hup.locals
  have hlabels₅ := Nat.lt_of_lt_of_le (Nat.lt_of_lt_of_le hlabels hup.labels) hmarked.labels
  have hloads := goes_load (o := .variable l) hk₅ hlabels₅ hindex
  have hbounds := goes_loadBound (k := k) (Nat.le_trans hk₅ hloads.locals)
    (Nat.lt_of_lt_of_le hlabels₅ hloads.labels) hbound
  refine ⟨s₄, s₅, s₈, hup, hmarked, hat, ?_, tells_markExit hexit⟩
  refine ((hloads.trans hbounds).trans hline.goes).imp ?_ ?_
  · rintro m ⟨⟨j, v, hkind, hv⟩, z, hz⟩
    refine ⟨⟨shown_of_stands (.word (o := .variable l) (Ty.isArray_of_storedAs hkind) hv), ?_⟩, fun _ _ => trivial⟩
    rintro m₁ ⟨haside, -⟩
    exact ⟨z, hz.aside haside ho⟩
  · rintro m m' ⟨m₂, ⟨m₁, ⟨haside, w, hw, hstack⟩, haside', hbounded⟩, halike⟩
    refine ⟨haside.trans (haside'.trans (.of_alike k halike)), fun z x hz hx => ?_⟩
    cases hw.symm.trans hx
    obtain ⟨j, v, hv, hstack'⟩ := hbounded z (hz.aside haside ho)
    exact ⟨j, v, hv, by rw [halike.stack, hstack', hstack]⟩

end Emit

/-! ## Where a run through a loop gets -/

/-- A run goes through a body **again and again**, and in between along positions; the machines that enter the
body are listed in order. -/
inductive Procedure.Rounds (p : Procedure) (P : Nat → Prop) (x y : Nat) :
    Nat → Machine → List Machine → Nat → Machine → Prop
  /-- It does not go through the body any more. -/
  | out {n n' : Nat} {m m' : Machine} (h : p.Along P n m n' m') : Rounds p P x y n m [] n' m'
  /-- It goes through the body once, and goes on. -/
  | round {n n' : Nat} {m e e' m' : Machine} {es : List Machine} (h : p.Along P n m x e)
      (hbody : p.Crosses x y e e') (hrest : Rounds p P x y y e' es n' m') : Rounds p P x y n m (e :: es) n' m'

theorem Procedure.Rounds.trans {p : Procedure} {P : Nat → Prop} {x y n n' n'' : Nat} {m m' m'' : Machine}
    {es es' : List Machine} (h : p.Rounds P x y n m es n' m') (h' : p.Rounds P x y n' m' es' n'' m'') :
    p.Rounds P x y n m (es ++ es') n'' m'' := by
  induction h with
  | out h =>
    cases h' with
    | out h' => exact .out (h.trans h')
    | round h' hbody hrest => exact .round (h.trans h') hbody hrest
  | round h hbody _ ih => exact .round h hbody (ih h')

open Builder (Takes)

namespace Loop

open Emit Procedure

variable {p : Procedure} {f s x y s' : Session} {level : TraceDetail} {k test : Nat} {l : Local}
  {start bound : Operand} {loop : LoopState} {rest : List Construct}

/-- How a counted loop **begins**: with its start, and a jump to its test. -/
structure Begins (p : Procedure) (f : Session) (k : Nat) (l : Local) (start : Operand) (loop : LoopState)
    (s x : Session) : Prop where
  /-- The index is set, and the jump is taken. -/
  starts : ∀ m : Machine, p.locals.length ≤ m.frame.locals.size → CanSet l start m →
    ∃ m' test, p.Along (Stretch s.code.size x.code.size) s.code.size m test m' ∧ f.labels.MarkedAt loop.test test ∧
      SetsIndex k l start m m'
  /-- Where the label of the body is marked there is nothing but reports before it. -/
  body : ∃ n, s.code.size ≤ n ∧ f.labels.MarkedAt loop.body n ∧ p.Slides n x.code.size

theorem begins_of_openFor (hp : p.Fits f) (hk : k ≤ s.locals.size) (hlabels : 0 < s.labels.entries.size)
    (h : Takes level [.perform (.openFor (some l) start bound)] s x) (hx : x.Grows f) :
    ∃ loop : LoopState, loop.slot = some l ∧ loop.bound = bound ∧
      x.outline = (Construct.counted loop).bare :: s.outline ∧ Begins p f k l start loop s x := by
  obtain ⟨a, x₁, hrun, rfl⟩ := h.one
  obtain ⟨handle, x₂, hrun, hdone⟩ := run_bind_eq_ok.1 hrun
  cases hdone
  obtain ⟨loop, s₁, s₂, hslot, hbound, hset, hbehind, hat, rfl⟩ := begun_of_openFor hk hlabels hrun
  have hlast : s₂.Extends f :=
    ((s₂.extends_withConstructs _).trans (Session.tells_delivered _).further).trans hx.extends
  have hjumped : (s₁.jumped (.always loop.test)).Extends f := hbehind.further.trans hlast
  obtain ⟨test, htest, hjump⟩ := hp.always hjumped
  have hsize : (s₁.jumped (.always loop.test)).code.size = s₁.code.size + 1 := by simp
  have hle := hbehind.further.size
  have hslides := hbehind.slides hp hlast
  rw [hsize] at hslides hle
  refine ⟨loop, hslot, hbound, rfl, fun m hm hcan => ?_, s₁.code.size + 1, ?_, hlast.marks _ _ hat, hslides⟩
  · have hlocals : s₁.locals.size ≤ m.frame.locals.size := by
      have hgrows : s₂.locals.size ≤ f.locals.size := hx.locals_size
      have hsame : s₂.locals = s₁.locals := hbehind.locals
      rw [← hsame]
      exact Nat.le_trans hgrows (hp.locals ▸ hm)
    obtain ⟨_, m', halong, rfl, hsets⟩ :=
      (hset.attains hp ((s₁.extends_jumped _).trans hjumped) m).along ⟨hcan, hlocals⟩
    refine ⟨m', test, (halong.imp fun i hi => ⟨hi.1, Nat.lt_of_lt_of_le hi.2 ?_⟩).trans
      (.always ⟨hset.further.size, ?_⟩ hjump (.here _ _)), htest, hsets⟩
    · exact hle
    · exact Nat.le_trans (Nat.le_succ _) hle
  · exact Nat.le_succ_of_le hset.further.size

/-- How a counted loop **ends**: with the code that counts up, and its test. -/
structure Ends (p : Procedure) (f : Session) (level : TraceDetail) (k : Nat) (l : Local) (loop : LoopState)
    (y s' : Session) : Prop where
  /-- It is counted up, and the test is behind. -/
  counts : ∀ m : Machine, p.locals.length ≤ m.frame.locals.size → Counter l m →
    ∃ m' test, p.Along (Stretch y.code.size s'.code.size) y.code.size m test m' ∧ f.labels.MarkedAt loop.test test ∧
      CountsUp k l m m'
  /-- The test takes the index and the bound to a jump to the body. -/
  tests : ∃ test n q, f.labels.MarkedAt loop.test test ∧ y.code.size ≤ n ∧ n < s'.code.size ∧
    f.labels.MarkedAt loop.body q ∧ p.code[n]? = some (.jump (.compare .lessThan q)) ∧
    p.Slides (n + 1) s'.code.size ∧
    ∀ m : Machine, p.locals.length ≤ m.frame.locals.size → Counter l m → (∃ z, m.Bounds level loop.bound z) →
      ∃ m', p.Along (Stretch y.code.size s'.code.size) test m n m' ∧ LoadsTest level k l loop.bound m m'

theorem ends_of_closeFor (hp : p.Fits f) (hslot : loop.slot = some l) (hk : k ≤ y.locals.size)
    (hlabels : 0 < y.labels.entries.size) (hbound : loop.bound.Below k)
    (hy : y.outline = (Construct.counted loop).bare :: rest)
    (h : Takes level [.perform .closeFor] y s') (hs' : s'.Grows f) :
    s'.outline = rest ∧ Ends p f level k l loop y s' := by
  obtain ⟨c, cs, hcs, hc, rfl⟩ := List.map_eq_cons_iff.1 hy
  obtain ⟨exit, rfl⟩ := Construct.bare_eq_counted hc
  obtain ⟨s₀, hrun, rfl⟩ := h.done rfl
  obtain ⟨s₁, s₂, s₃, hup, hmark, hat, htest, hbehind⟩ := ended_of_closeFor hcs hslot hk hlabels hbound hrun
  have hlast : s₀.Extends f := s₀.tells_delivered.further.trans hs'.extends
  have hjumped : (s₃.jumped (.compare .lessThan loop.body)).Extends f := hbehind.further.trans hlast
  have hthird : s₃.Extends f := (s₃.extends_jumped _).trans hjumped
  have hsecond : s₂.Extends f := htest.further.trans hthird
  obtain ⟨q, hq, hjump⟩ := hp.compare hjumped
  have hsize : (s₃.jumped (.compare .lessThan loop.body)).code.size = s₃.code.size + 1 := by simp
  have hle := hbehind.further.size
  have hslides := hbehind.slides hp hlast
  rw [hsize] at hslides hle
  have hlocals : s₃.locals.size ≤ f.locals.size := by
    have hgrows : s₀.locals.size ≤ f.locals.size := hs'.locals_size
    have hsame : s₀.locals = s₃.locals := hbehind.locals
    rwa [hsame] at hgrows
  have hsize₁ : y.code.size ≤ s₁.code.size := hup.further.size
  have hsize₂ := hmark.further.size
  have hsize₃ := htest.further.size
  have hfirst : s₁.code.size ≤ s₀.code.size := by omega
  have hsame : s₀.constructs = cs :=
    hbehind.constructs.trans (htest.constructs.trans (hmark.constructs.trans hup.constructs))
  have hmarked : f.labels.MarkedAt loop.test s₁.code.size := hsecond.marks _ _ hat
  refine ⟨congrArg (List.map Construct.bare) hsame, ⟨fun m hm hcounter => ?_, s₁.code.size, s₃.code.size, q,
    hmarked, by omega, hle, hq, hjump, hslides, fun m hm hcounter hz => ?_⟩⟩
  · have hfits : s₁.locals.size ≤ m.frame.locals.size := by
      have hsome : s₁.locals.size ≤ s₃.locals.size := (congrArg Array.size hmark.locals) ▸ htest.locals
      have := hp.locals
      omega
    obtain ⟨_, m', halong, rfl, hcounts⟩ := (hup.attains hp (hmark.further.trans hsecond) m).along ⟨hcounter, hfits⟩
    exact ⟨m', _, halong.imp fun i hi => ⟨hi.1, Nat.lt_of_lt_of_le hi.2 hfirst⟩, hmarked, hcounts⟩
  · obtain ⟨m₁, hslide, halike⟩ := (hmark.slides hp hsecond).along (P := Stretch y.code.size s₀.code.size)
      (fun i hi hi' => ⟨by omega, by omega⟩) m
    have hcounter₁ : Counter l m₁ := by
      rwa [Counter, halike.frame]
    obtain ⟨z, hz⟩ := hz
    have hfits : s₃.locals.size ≤ m₁.frame.locals.size := by
      rw [halike.frame]
      have := hp.locals
      omega
    obtain ⟨_, m', halong, rfl, hloads⟩ := (htest.attains hp hthird m₁).along
      ⟨⟨hcounter₁, z, hz.aside (.of_alike k halike) hbound⟩, hfits⟩
    refine ⟨m', hslide.trans (halong.imp fun i hi => ⟨?_, ?_⟩), ?_⟩
    · have := hi.1
      omega
    · have := hi.2
      exact Nat.lt_of_lt_of_le this (Nat.le_trans (Nat.le_succ _) hle)
    · refine ⟨(Machine.Aside.of_alike k halike).trans hloads.1, fun z x hz hx => ?_⟩
      have hx₁ : m₁.frame.locals[l.index]? = some x := by rwa [halike.frame]
      obtain ⟨j, v, hv, hstack⟩ := hloads.2 z x (hz.aside (.of_alike k halike) hbound) hx₁
      exact ⟨j, v, hv, by rw [hstack, halike.stack]⟩

/-- A machine **in a loop**: the index is an integer, and everything else that the loop uses is as it was in the
beginning. -/
structure Counting (level : TraceDetail) (j : WordKind) (l : Local) (bound : Operand) (last : Int) (m₀ : Machine)
    (z : Int) (m : Machine) : Prop where
  /-- There are as many locals. -/
  size : m.frame.locals.size = m₀.frame.locals.size
  /-- The index. -/
  index : m.frame.locals[l.index]? = some (.scalar (.wrap j z))
  /-- The bound. -/
  bound : m.Bounds level bound last
  /-- Nothing is left on the stack. -/
  stack : m.frame.stack = m₀.frame.stack

namespace Counting

variable {j : WordKind} {last z : Int} {m₀ m m' : Machine}

/-- What is done aside does not matter. -/
theorem interlude (h : Counting level j l bound last m₀ z m) (hm : m.Interlude k m') (hl : l.index < k)
    (hbound : bound.Below k) : Counting level j l bound last m₀ z m' :=
  ⟨hm.aside.size.trans h.size, (hm.aside.locals _ hl).trans h.index, h.bound.aside hm.aside hbound,
    hm.stack.trans h.stack⟩

/-- The index is a word of its kind. -/
theorem counter (h : Counting level j l bound last m₀ z m) (hkind : l.type.storedAs? = some (.word j)) :
    Counter l m := ⟨j, _, hkind, h.index⟩

end Counting

/-- A counted loop **between sessions**. -/
structure Built (p : Procedure) (f : Session) (level : TraceDetail) (k : Nat) (l : Local) (start bound : Operand)
    (loop : LoopState) (s x y s' : Session) : Prop where
  /-- How it begins. -/
  begins : Begins p f k l start loop s x
  /-- How it ends. -/
  ends : Ends p f level k l loop y s'
  /-- Its bound. -/
  limit : loop.bound = bound
  /-- The index is declared. -/
  index : l.index < k
  /-- So is the bound. -/
  below : bound.Below k
  /-- The locals declared before the loop are those of the procedure. -/
  locals : k ≤ p.locals.length
  /-- The body is behind the beginning. -/
  size : x.code.size ≤ y.code.size

namespace Built

variable {P : Nat → Prop} {j : WordKind} {first last z : Int} {m₀ m : Machine}

/-- What is set by a start in the range of the kind. -/
theorem starts (h : Built p f level k l start bound loop s x y s') (hP : ∀ i, Stretch s.code.size x.code.size i → P i)
    (hm : p.locals.length ≤ m.frame.locals.size) (hkind : l.type.storedAs? = some (.word j))
    (hstart : m.Stands start first)
    (hbound : (m.withLocal l.index (.scalar (.wrap j first))).Bounds level bound last) :
    ∃ m' test, p.Along P s.code.size m test m' ∧ f.labels.MarkedAt loop.test test ∧
      Counting level j l bound last m first m' := by
  have hl : l.index < m.frame.locals.size := Nat.lt_of_lt_of_le h.index (Nat.le_trans h.locals hm)
  obtain ⟨m', test, halong, htest, v, hv, hset⟩ :=
    h.begins.starts m hm ⟨Ty.isArray_of_storedAs hkind, hl, first, hstart⟩
  have hfirst : Value.fit l.type.storedAs? v = .scalar (.wrap j first) := by
    cases hstart with
    | word ht ho =>
      cases ho.symm.trans hv
      rw [hkind, Value.fit_scalar, Scalar.convert_eq]
      rfl
  rw [hfirst] at hset
  refine ⟨m', test, halong.imp hP, htest, Counting.interlude ⟨Machine.size_withLocal, ?_, hbound, rfl⟩ hset h.index
    h.below⟩
  exact Machine.getElem?_withLocal_self hl

/-- The **test** goes to the body as long as the index is less than the bound, and else to the end. -/
theorem tests (h : Built p f level k l start bound loop s x y s')
    (hP : ∀ i, Stretch s.code.size x.code.size i ∨ Stretch y.code.size s'.code.size i → P i)
    (hm₀ : p.locals.length ≤ m₀.frame.locals.size) (hkind : l.type.storedAs? = some (.word j)) (hz : j.Spans z)
    (hm : Counting level j l bound last m₀ z m) (htest : f.labels.MarkedAt loop.test test) :
    ∃ m', p.Along P test m (if z < last then x.code.size else s'.code.size) m' ∧
      Counting level j l bound last m₀ z m' := by
  obtain ⟨test', n, q, htest', hyn, hns', hq, hjump, hslides, hloads⟩ := h.ends.tests
  cases htest'.unique htest
  obtain ⟨q', hsq', hq', hbody⟩ := h.begins.body
  cases hq'.unique hq
  rw [h.limit] at hloads
  obtain ⟨m₁, hfirst, haside, hstack⟩ := hloads m (hm.size ▸ hm₀) (hm.counter hkind) ⟨last, hm.bound⟩
  obtain ⟨j', v, hv, hstack⟩ := hstack last _ hm.bound hm.index
  have hless : (Jump.compare .lessThan q).follow.run m₁ =
      .ok (if decide (z < last) then some q else none) (m₁.withStack m.frame.stack) := by
    refine Jump.run_compare hstack ?_
    rw [Scalar.wrap, Host.holds_words, Scalar.wordValue_lowBits hz, hv, Comparison.accepts_lessThan]
  have hm₂ : Counting level j l bound last m₀ z (m₁.withStack m.frame.stack) :=
    hm.interlude ⟨haside.trans (.withStack k _ _), rfl⟩ h.index h.below
  have hP' : ∀ i, Stretch y.code.size s'.code.size i → P i := fun i hi => hP i (.inr hi)
  by_cases hlt : z < last
  · rw [decide_eq_true hlt] at hless
    obtain ⟨m', hlast, halike⟩ := hbody.along (P := P)
      (fun i hi hi' => hP i (.inl ⟨Nat.le_trans hsq' hi, hi'⟩)) (m₁.withStack m.frame.stack)
    rw [if_pos hlt]
    exact ⟨m', (hfirst.imp hP').trans (.jump (hP' n ⟨hyn, hns'⟩) hjump hless hlast),
      hm₂.interlude ⟨.of_alike k halike, halike.stack⟩ h.index h.below⟩
  · rw [decide_eq_false hlt] at hless
    obtain ⟨m', hlast, halike⟩ := hslides.along (P := P)
      (fun i hi hi' => hP' i ⟨by omega, hi'⟩) (m₁.withStack m.frame.stack)
    rw [if_neg hlt]
    exact ⟨m', (hfirst.imp hP').trans (.jump (hP' n ⟨hyn, hns'⟩) hjump hless hlast),
      hm₂.interlude ⟨.of_alike k halike, halike.stack⟩ h.index h.below⟩

/-- Behind the body the index is **counted up**, and a run gets to the test. -/
theorem counts (h : Built p f level k l start bound loop s x y s')
    (hP : ∀ i, Stretch y.code.size s'.code.size i → P i) (hm₀ : p.locals.length ≤ m₀.frame.locals.size)
    (hkind : l.type.storedAs? = some (.word j)) (hz : j.Spans z) (hfree : ∀ x ∈ bound.locals, x.index ≠ l.index)
    (hm : Counting level j l bound last m₀ z m) :
    ∃ m' test, p.Along P y.code.size m test m' ∧ f.labels.MarkedAt loop.test test ∧
      Counting level j l bound last m₀ (z + 1) m' := by
  obtain ⟨m', test, halong, htest, hup⟩ := h.ends.counts m (hm.size ▸ hm₀) (hm.counter hkind)
  have hset := hup j _ hkind hm.index
  rw [Scalar.wordValue_lowBits hz] at hset
  have hl : l.index < m.frame.locals.size := (Array.getElem?_eq_some_iff.1 hm.index).1
  refine ⟨m', test, halong.imp hP, htest, Counting.interlude ⟨Machine.size_withLocal.trans hm.size, ?_,
    hm.bound.withLocal hfree _, hm.stack⟩ hset h.index h.below⟩
  exact Machine.getElem?_withLocal_self hl

/-- What a body leaves as it was. -/
def Keeps (level : TraceDetail) (l : Local) (bound : Operand) (e e' : Machine) : Prop :=
  e'.frame.stack = e.frame.stack ∧ e'.frame.locals[l.index]? = e.frame.locals[l.index]? ∧
    ∀ z, e.Bounds level bound z → e'.Bounds level bound z

/-- **Rounds.** From the test a run goes through the body once for each integer below the bound. -/
theorem rounds (h : Built p f level k l start bound loop s x y s')
    (hP : ∀ i, Stretch s.code.size x.code.size i ∨ Stretch y.code.size s'.code.size i → P i)
    (hm₀ : p.locals.length ≤ m₀.frame.locals.size) (hkind : l.type.storedAs? = some (.word j))
    (hlast : last ≤ j.greatest)
    (hbody : ∀ es e, p.Rounds P x.code.size y.code.size s.code.size m₀ es x.code.size e →
      ∃ e', p.Crosses x.code.size y.code.size e e' ∧ Keeps level l bound e e')
    (hz : j.Spans z) (hfree : z < last → ∀ x ∈ bound.locals, x.index ≠ l.index) {es : List Machine}
    (hbefore : p.Rounds P x.code.size y.code.size s.code.size m₀ es test m)
    (hm : Counting level j l bound last m₀ z m) (htest : f.labels.MarkedAt loop.test test) :
    ∃ es' m', p.Rounds P x.code.size y.code.size s.code.size m₀ (es ++ es') s'.code.size m' ∧
      (es'.map fun e => e.frame.locals[l.index]?) =
        (List.range (last - z).toNat).map (fun i : Nat => some (.scalar (.wrap j (z + i)))) ∧
      (∀ e ∈ es', e.frame.stack = m₀.frame.stack) ∧ Counting level j l bound last m₀ (max z last) m' := by
  obtain ⟨e, halong, he⟩ := h.tests hP hm₀ hkind hz hm htest
  -- by induction on the number of rounds that are left
  induction hleft : (last - z).toNat generalizing z m es test e with
  | zero =>
    have hnot : ¬ z < last := by omega
    rw [if_neg hnot] at halong
    have hmax : max z last = z := by omega
    exact ⟨[], e, hbefore.trans (.out halong), rfl, nofun, by rwa [hmax]⟩
  | succ left ih =>
    have hlt : z < last := by omega
    rw [if_pos hlt] at halong
    have hentered := hbefore.trans (.out halong)
    obtain ⟨e', hcross, hstack, hindex, hbound⟩ := hbody _ e hentered
    have hsize : e'.frame.locals.size = e.frame.locals.size :=
      (hcross.along fun _ hi hi' => And.intro hi hi').sameSize.locals
    have he' : Counting level j l bound last m₀ z e' :=
      ⟨hsize.trans he.size, hindex.trans he.index, hbound _ he.bound, hstack.trans he.stack⟩
    obtain ⟨m₁, test₁, hback, htest₁, hm₁⟩ := h.counts (fun i hi => hP i (.inr hi)) hm₀ hkind hz (hfree hlt) he'
    have hz₁ : j.Spans (z + 1) := ⟨by have := hz.1; omega, by omega⟩
    obtain ⟨e₁, halong₁, he₁⟩ := h.tests hP hm₀ hkind hz₁ hm₁ htest₁
    have hround := hbefore.trans (.round halong hcross (.out hback))
    obtain ⟨es', m', hrounds, hindices, hstacks, hend⟩ := ih hz₁ (fun _ => hfree hlt) hround hm₁ htest₁ e₁
      halong₁ he₁ (by omega)
    refine ⟨e :: es', m', ?_, ?_, List.forall_mem_cons.2 ⟨he.stack, hstacks⟩, ?_⟩
    · rwa [List.append_assoc] at hrounds
    · rw [List.map_cons, hindices, he.index, List.range_succ_eq_map, List.map_cons, List.map_map]
      refine congrArg₂ List.cons (by simp) (List.map_congr_left fun i _ => ?_)
      show some (Value.scalar (.wrap j (z + 1 + i))) = some (.scalar (.wrap j (z + (i + 1 : Nat))))
      congr 3
      omega
    · have hmax : max (z + 1) last = max z last := by omega
      exact hmax ▸ hend

end Built

/-- An accepted loop with a balanced body is built. -/
theorem built_of_takes (hp : p.Fits f) (hs : s.Inner) (hl : s.Owns l) (hbound : ∀ x ∈ bound.locals, s.Owns x)
    (hopens : Takes level [.perform (.openFor (some l) start bound)] s x) (hbody : x.Grows y)
    (hbalanced : y.outline = x.outline) (hcloses : Takes level [.perform .closeFor] y s') (hsx : s.Grows x)
    (hy : y.Grows s') (hs' : s'.Grows f) :
    s'.outline = s.outline ∧ ∃ loop, Built p f level s.locals.size l start bound loop s x y s' := by
  have hbelow := Operand.below_of_owns hbound
  obtain ⟨name, hname⟩ := hl
  obtain ⟨loop, hslot, rfl, hx, hbegins⟩ := begins_of_openFor hp (Nat.le_refl s.locals.size) hs.labels hopens
    (hbody.trans (hy.trans hs'))
  have hsy := hsx.trans hbody
  obtain ⟨hclosed, hends⟩ := ends_of_closeFor hp hslot hsy.locals_size
    (Nat.lt_of_lt_of_le hs.labels hsy.labels_size) hbelow (hbalanced.trans hx) hcloses hs'
  exact ⟨hclosed, loop, hbegins, hends, rfl, (Array.getElem?_eq_some_iff.1 hname).1, hbelow,
    hp.locals ▸ (hsy.trans (hy.trans hs')).locals_size, hbody.extends.size⟩

end Loop

namespace Builder

open Loop

/-- A local for a narrow index. -/
def narrow : Local := ⟨0, .primitive (.word .i8)⟩

/-- The session before the loop. -/
def declaredNarrow : Session where
  name := "f"
  signature := ⟨[], none⟩
  sink := .log
  locals := #[(.primitive (.word .i8), "i")]
  labels := ⟨1, #[⟨none, false⟩]⟩
  finish := ⟨1, 0⟩

theorem after_narrow : plain.after [.perform (.newLocal (.primitive (.word .i8)) "i")] =
    taking .log .off declaredNarrow := rfl

end Builder

end Stackwright
