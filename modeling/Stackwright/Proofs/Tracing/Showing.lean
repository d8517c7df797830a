import Stackwright.Proofs.Emission.Loading
import Stackwright.Proofs.Machine.Paths
import Stackwright.Proofs.Scalar.Words

/-! # Dumps come to an end

A run through a dump crosses it, or stops in it: the text of an array is put together in a loop that counts
up to its length, which does not change on the way. It stops only where it comes to a value that has no
text: an address, an array that is too long to be counted, or no array where one is expected.

* **`Heap.Shows h t v`** — a value can be shown as one of a type.
* **`Procedure.attains_dump`** — a dump comes to an end, and shows what can be shown. -/

namespace Stackwright

/-! ## Locals -/

/-- A machine with another value in a local. -/
def Machine.withLocal (m : Machine) (i : Nat) (v : Value) : Machine :=
  { m with frame := { m.frame with locals := m.frame.locals.setIfInBounds i v } }

namespace Machine

variable {m : Machine} {i j : Nat} {v : Value}

@[simp] theorem stack_withLocal : (m.withLocal i v).frame.stack = m.frame.stack := rfl

@[simp] theorem args_withLocal : (m.withLocal i v).frame.args = m.frame.args := rfl

@[simp] theorem world_withLocal : (m.withLocal i v).world = m.world := rfl

@[simp] theorem size_withLocal : (m.withLocal i v).frame.locals.size = m.frame.locals.size :=
  Array.size_setIfInBounds

theorem getElem?_withLocal_self (hi : i < m.frame.locals.size) :
    (m.withLocal i v).frame.locals[i]? = some v := by
  rw [withLocal, Array.getElem?_setIfInBounds, if_pos rfl, if_pos hi]

theorem getElem?_withLocal_ne (hij : i ≠ j) :
    (m.withLocal i v).frame.locals[j]? = m.frame.locals[j]? := by
  rw [withLocal, Array.getElem?_setIfInBounds, if_neg hij]

end Machine

namespace Exec

variable {m m' : Machine} {i : Nat} {v : Value} {rest : List Value} {kind : Option ScalarKind}

/-- What is stored into a local is made to fit it. -/
theorem run_storeLocal (hi : i < m.frame.locals.size) (hstack : m.frame.stack = v :: rest) :
    (Op.execute (.storeLocal i kind)).run m =
      .ok () ((m.withStack rest).withLocal i (Value.fit kind v)) := by
  have hpop : (popFit kind).run m = .ok (Value.fit kind v) (m.withStack rest) := by
    rw [popFit, run_bind_ok (run_pop hstack)]
    rfl
  rw [Op.execute, run_bind_ok hpop, setLocal, run_bind, run_get]
  dsimp only
  rw [Machine.locals_withStack, checkSlot, if_pos hi]
  rfl

/-- Only a local that is there is stored into. -/
theorem lt_of_storeLocal (h : (Op.execute (.storeLocal i kind)).run m = .ok () m') :
    i < m.frame.locals.size := by
  by_contra hi
  rw [Op.execute, run_bind] at h
  split at h
  · rename_i v m₁ hpop
    have hsize : m₁.frame.locals.size = m.frame.locals.size := ((acts_popFit 0 kind).ok hpop).size
    rw [setLocal, run_bind, run_get] at h
    dsimp only at h
    rw [checkSlot, if_neg (by omega)] at h
    cases h
  · cases h

/-- Only a local that is there is loaded. -/
theorem of_loadLocal (h : (Op.execute (.loadLocal i)).run m = .ok () m') :
    ∃ v, m.frame.locals[i]? = some v ∧ m' = m.withStack (v :: m.frame.stack) := by
  cases hi : m.frame.locals[i]? with
  | some v =>
    rw [run_loadLocal hi] at h
    cases h
    exact ⟨v, rfl, rfl⟩
  | none =>
    have hload : (getLocal i).run m = .error (.fault (.outside i m.frame.locals.size)) m := by
      show (slotAt m.frame.locals i).run m = _
      rw [slotAt, hi]
      rfl
    rw [Op.execute, run_bind_error hload] at h
    cases h

end Exec

/-! ## What can be shown -/

/-- A value **can be shown** as one of a type: it is no address, and where an array is expected it is null or
an array that can be counted and whose items can be shown. -/
def Heap.Shows (h : Heap) : Ty → Value → Prop
  | .array e, v => v = .null ∨ ∃ a, v = .array a ∧ h.itemCount a < 1 <<< 31 ∧
      ∀ (i : Int) (w : Value), h.getItem a i = .ok w → h.Shows e w
  | _, v => ∀ l, v ≠ .address l

namespace Heap

variable {h h' : Heap} {t : Ty} {v : Value}

theorem shows_of_not_array (ht : ∀ e, t = .array e → False) : h.Shows t v ↔ ∀ l, v ≠ .address l := by
  cases t with
  | array e => exact (ht e rfl).elim
  | _ => rfl

/-- Boxes do not matter. -/
theorem Shows.adds (hv : h.Shows t v) (hh : h.Adds h') : h'.Shows t v := by
  induction t using Emit.toFullText.induct generalizing v with
  | case1 e ih =>
    rcases hv with hv | ⟨a, hv, hcount, hitems⟩
    · exact .inl hv
    · refine .inr ⟨a, hv, ?_, fun i w hw => ih (hitems i w ?_)⟩
      · rwa [itemCount, hh.arrayCell]
      · rwa [getItem, hh.arrayCell] at hw
  | case2 t hne => exact (shows_of_not_array hne).2 ((shows_of_not_array hne).1 hv)
  | case3 t hne => exact (shows_of_not_array hne).2 ((shows_of_not_array hne).1 hv)

end Heap

/-- What can be counted is a 32-bit integer. -/
theorem spans_i32 {i : Nat} (hi : i < 1 <<< 31) : WordKind.Spans .i32 i := by
  rw [Nat.one_shiftLeft] at hi
  constructor <;> simp only [WordKind.least, WordKind.greatest, WordKind.signed, WordKind.bits, if_true] <;> omega

/-- What can be counted is an index, too. -/
theorem Value.index?_ofInt32 {i : Nat} (hi : i < 1 <<< 31) : (Value.ofInt32 i).index? = some (i : Int) := by
  have hword : Scalar.wordValue .i32 (Scalar.lowBits 32 i) = i := Scalar.wordValue_lowBits (k := .i32) (spans_i32 hi)
  obtain ⟨z, hz, rfl | ⟨-, hlarge⟩⟩ := Value.index?_word .i32 (Scalar.lowBits 32 i)
  · rw [hword] at hz
    exact hz
  · rw [hword] at hlarge
    rw [Nat.one_shiftLeft] at hi
    omega

namespace Exec

variable {m : Machine} {v : Value} {rest : List Value}

/-- A row whose first operation is done goes on with the others. -/
theorem run_all_cons {o : Op} {os : List Op} {m m' : Machine} (h : o.execute.run m = .ok () m') :
    (all (o :: os)).run m = (all os).run m' := by
  rw [all, run_bind_ok h]

/-- A value that is neither null nor an address has a text. -/
theorem run_textOf (hstack : m.frame.stack = v :: rest) (hnull : v ≠ .null) (hv : ∀ l, v ≠ .address l) :
    ∃ x, (Op.execute (.call Builtin.textOf)).run m = .ok () (m.withStack (.text x :: rest)) := by
  obtain ⟨⟨args, locals, stack⟩, world⟩ := m
  obtain rfl : stack = v :: rest := hstack
  cases v with
  | null => exact absurd rfl hnull
  | address l => exact absurd rfl (hv l)
  | _ => exact ⟨_, rfl⟩

/-- Two texts in a row have one. -/
theorem run_joinTwo {a b : Value} (hstack : m.frame.stack = b :: a :: rest) :
    ∃ x, (Op.execute (.call Builtin.joinTwo)).run m = .ok () (m.withStack (.text x :: rest)) := by
  obtain ⟨⟨args, locals, stack⟩, world⟩ := m
  obtain rfl : stack = b :: a :: rest := hstack
  exact ⟨_, rfl⟩

@[inherit_doc run_joinTwo]
theorem run_joinThree {a b c : Value} (hstack : m.frame.stack = c :: b :: a :: rest) :
    ∃ x, (Op.execute (.call Builtin.joinThree)).run m = .ok () (m.withStack (.text x :: rest)) := by
  obtain ⟨⟨args, locals, stack⟩, world⟩ := m
  obtain rfl : stack = c :: b :: a :: rest := hstack
  exact ⟨_, rfl⟩

/-- The top is there twice behind a copy. -/
theorem run_dup (hstack : m.frame.stack = v :: rest) :
    (Op.execute .dup).run m = .ok () (m.withStack (v :: v :: rest)) := by
  obtain ⟨⟨args, locals, stack⟩, world⟩ := m
  obtain rfl : stack = v :: rest := hstack
  rfl

/-- A text on top is reported. -/
theorem run_reportTop {x : String} (sink : Sink) (hstack : m.frame.stack = .text x :: rest) :
    ∃ m', (Op.execute (.call (Builtin.report sink))).run m = .ok () m' := by
  obtain ⟨m', hrun, -⟩ := run_report sink x (m.withStack rest)
  have hpush : (Op.execute (.push (.text x))).run (m.withStack rest) = .ok () m := by
    obtain ⟨⟨args, locals, stack⟩, world⟩ := m
    obtain rfl : stack = .text x :: rest := hstack
    rfl
  rw [run_all_cons hpush, all_singleton] at hrun
  exact ⟨m', hrun⟩

/-- Scalars are added. -/
theorem run_add {a b : Scalar} (hstack : m.frame.stack = .scalar b :: .scalar a :: rest) :
    (Op.execute .add).run m = .ok () (m.withStack (.scalar (a.add b) :: rest)) := by
  rw [Op.execute, onTwo, run_bind_ok (run_pop hstack), run_bind_ok (run_pop rfl)]
  rfl

/-- The length of an array, if it can be counted. -/
theorem run_itemCount {a : ArrayId} (hstack : m.frame.stack = .array a :: rest)
    (hcount : m.world.heap.itemCount a < 1 <<< 31) :
    (Op.execute .itemCount).run m = .ok () (m.withStack (.ofInt32 (m.world.heap.itemCount a) :: rest)) := by
  obtain ⟨⟨args, locals, stack⟩, world⟩ := m
  obtain rfl : stack = .array a :: rest := hstack
  show (if world.heap.itemCount a < 1 <<< 31 then push (.ofInt32 (world.heap.itemCount a))
    else fail _ : Exec Unit).run ⟨⟨args, locals, rest⟩, world⟩ = _
  rw [if_pos hcount]
  rfl

/-- Only the length of an array that can be counted is there. -/
theorem of_itemCount {m' : Machine} (hstack : m.frame.stack = v :: rest)
    (h : (Op.execute .itemCount).run m = .ok () m') :
    ∃ a, v = .array a ∧ m.world.heap.itemCount a < 1 <<< 31 := by
  obtain ⟨⟨args, locals, stack⟩, world⟩ := m
  obtain rfl : stack = v :: rest := hstack
  cases v with
  | array a =>
    have h : (if world.heap.itemCount a < 1 <<< 31 then push (.ofInt32 (world.heap.itemCount a))
      else fail (.indexOutOfRange (world.heap.itemCount a) (world.heap.itemCount a)) : Exec Unit).run
        ⟨⟨args, locals, rest⟩, world⟩ = .ok () m' := h
    split at h
    · rename_i hcount
      exact ⟨a, rfl, hcount⟩
    · cases h
  | _ => cases h

/-- An item of an array that can be counted is there. -/
theorem run_itemLoad (e : Ty) {a : ArrayId} {i : Nat} (hstack : m.frame.stack = .ofInt32 i :: .array a :: rest)
    (hi : i < m.world.heap.itemCount a) (hcount : m.world.heap.itemCount a < 1 <<< 31) :
    ∃ w, m.world.heap.getItem a i = .ok w ∧ (all e.itemLoad).run m = .ok () (m.withStack (w :: rest)) := by
  have hwide : i < 2 ^ 63 := by
    rw [Nat.one_shiftLeft] at hcount
    omega
  have hindex := Value.index?_ofInt32 (Nat.lt_trans hi hcount)
  have hitem : ∃ w, m.world.heap.getItem a i = .ok w := by
    have hi : i < (m.world.heap.arrayCell a).items.size := hi
    refine ⟨(m.world.heap.arrayCell a).items[i], ?_⟩
    rw [Heap.getItem, if_neg (by omega), Int.toNat_natCast, Array.getElem?_eq_getElem hi]
  obtain ⟨w, hitem⟩ := hitem
  refine ⟨w, hitem, ?_⟩
  have hpop : popIndex.run m = .ok (i : Int) (m.withStack (.array a :: rest)) := by
    rw [popIndex, run_bind_ok (run_pop hstack), hindex]
    rfl
  have harray : popArray.run (m.withStack (.array a :: rest)) = .ok a (m.withStack rest) := rfl
  rw [Ty.itemLoad]
  split
  · have haddress : (Op.execute .addressItem).run m = .ok () (m.withStack (.address (.element a i) :: rest)) := by
      rw [Op.execute, run_bind_ok hpop, run_bind_ok harray]
      show (do
        let _ ← Host.ofExcept (m.world.heap.getItem a i)
        push (.address (.element a (i : Int).toNat)) : Exec Unit).run (m.withStack rest) = _
      rw [hitem]
      rfl
    have hplace : indexOf i = i := by
      rw [indexOf, BitVec.toInt_eq_toNat_bmod, BitVec.toNat_ofNat, Int.bmod_def]
      omega
    have hholds : (m.withStack (.address (.element a i) :: rest)).Holds (.element a i) w := by
      have hread : (m.withStack (.address (.element a i) :: rest)).read (.element a i) = .ok w := by
        rw [Machine.read, hplace]
        exact hitem
      rw [Machine.Holds, run_load, hread]
    rw [run_all_cons haddress, all_singleton, run_loadThrough rfl hholds]
    rfl
  · rw [all_singleton, Op.execute, run_bind_ok hpop, run_bind_ok harray]
    show (Host.ofExcept (m.world.heap.getItem a i) >>= push : Exec Unit).run (m.withStack rest) = _
    rw [hitem]
    rfl

end Exec

/-! ## Dumps -/

namespace Procedure

variable {p : Procedure} {S : Prop} {n n' k : Nat} {m : Machine} {v : Value} {rest : List Value}
  {P : Nat → Prop}

/-- The positions of a stretch. -/
def Stretch (first last : Nat) (i : Nat) : Prop := first ≤ i ∧ i < last

/-- What is known of all crossings is known of what a run through a stretch attains. -/
theorem Attains.crosses {first last : Nat} {E : Halt → Machine → Prop} {Q : Machine → Prop}
    (h : p.Attains (Stretch first last) S first m fun n' _ => n' = last) (hl : p.Leads first last E Q first m) :
    p.Attains (Stretch first last) S first m fun n' m' => n' = last ∧ Q m' := by
  rcases h with ⟨n', m', halong, rfl⟩ | hstop
  · exact .inl ⟨n', m', halong, rfl, hl.crosses (halong.within fun _ hi => hi)⟩
  · exact .inr hstop

theorem length_nullGuard (body : List (Instruction Nat)) : (nullGuard n body).length = 6 + body.length := by
  simp [nullGuard]
  omega

/-- Code behind a **guard against null** comes to an end if it does so by itself. -/
theorem attains_nullGuard {body : List (Instruction Nat)} (h : p.Has n (nullGuard n body))
    (hstack : m.frame.stack = v :: rest)
    (hbody : v ≠ .null → p.Attains (Stretch (n + 6) (n + 6 + body.length)) S (n + 6) m
      fun n' _ => n' = n + 6 + body.length) :
    p.Attains (Stretch n (n + 6 + body.length)) S n m fun n' _ => n' = n + 6 + body.length := by
  obtain ⟨hhead, htest, hnull, hjump, -⟩ := has_nullGuard h
  obtain ⟨⟨args, locals, stack⟩, world⟩ := m
  obtain rfl : stack = v :: rest := hstack
  have hcopied : (Exec.all [.dup, .push .null]).run ⟨⟨args, locals, v :: rest⟩, world⟩ =
      .ok () ⟨⟨args, locals, .null :: v :: v :: rest⟩, world⟩ := rfl
  refine .done hhead (fun i hi hi' => ⟨hi, by simp only [List.length_cons, List.length_nil] at hi'; omega⟩) hcopied ?_
  show p.Attains _ S (n + 2) _ _
  have hcompare : (Jump.compare .notEqualTo (n + 6)).follow.run ⟨⟨args, locals, .null :: v :: v :: rest⟩, world⟩ =
      .ok (if v.isNull then none else some (n + 6)) ⟨⟨args, locals, v :: rest⟩, world⟩ := by
    cases v <;> rfl
  by_cases hv : v.isNull
  · rw [if_pos hv] at hcompare
    have hlast : p.Attains (Stretch n (n + 6 + body.length)) S (n + 5) ⟨⟨args, locals, .text "<null>" :: rest⟩, world⟩
        fun n' _ => n' = n + 6 + body.length :=
      (Along.always ⟨by omega, by omega⟩ hjump (.here _ _)).attains (.here rfl)
    have hmiddle : p.Attains (Stretch n (n + 6 + body.length)) S (n + 3) ⟨⟨args, locals, v :: rest⟩, world⟩
        fun n' _ => n' = n + 6 + body.length :=
      .done hnull (fun i hi hi' => ⟨by omega, by simp only [List.length_cons, List.length_nil] at hi'; omega⟩)
        rfl hlast
    exact .taken ⟨by omega, by omega⟩ htest hcompare rfl hmiddle
  · rw [if_neg hv] at hcompare
    have hnot : v ≠ .null := fun hnull => hv (by rw [hnull]; rfl)
    exact .taken ⟨by omega, by omega⟩ htest hcompare rfl
      ((hbody hnot).imp (fun i hi => ⟨by have := hi.1; omega, hi.2⟩) id fun _ _ h => h)

/-! ### The counted loop -/

/-- A machine in the **loop** of a dump: the index and the array are in their locals, and nothing but boxes
has come to the heap since the loop began. -/
structure Looping (m₀ : Machine) (l x : Nat) (v : Value) (rest : List Value) (i : Nat) (m : Machine) :
    Prop where
  /-- There are as many locals. -/
  size : m.frame.locals.size = m₀.frame.locals.size
  /-- The heap has more boxes. -/
  heap : m₀.world.heap.Adds m.world.heap
  /-- The index. -/
  index : m.frame.locals[l]? = some (.ofInt32 i)
  /-- The array. -/
  array : m.frame.locals[x]? = some v
  /-- Nothing is left on the stack. -/
  stack : m.frame.stack = rest

namespace Looping

variable {m₀ : Machine} {l x i : Nat} {a : ArrayId}

/-- What the test of a loop leaves. -/
theorem run_test (h : Looping m₀ l x (.array a) rest i m) (hcount : m₀.world.heap.itemCount a < 1 <<< 31) :
    (Exec.all [.loadLocal l, .loadLocal x, .itemCount, .convert .i32]).run m =
      .ok () (m.withStack (.ofInt32 (m₀.world.heap.itemCount a) :: .ofInt32 i :: rest)) := by
  have hsame : m.world.heap.itemCount a = m₀.world.heap.itemCount a := by
    rw [Heap.itemCount, h.heap.arrayCell, Heap.itemCount]
  rw [← hsame] at hcount ⊢
  have hindex := Exec.run_loadLocal h.index
  have harray : (Op.execute (.loadLocal x)).run (m.withStack (.ofInt32 i :: m.frame.stack)) =
      .ok () (m.withStack (.array a :: .ofInt32 i :: m.frame.stack)) := Exec.run_loadLocal h.array
  have hcounted := Exec.run_itemCount (m := m.withStack (.array a :: .ofInt32 i :: m.frame.stack)) rfl hcount
  rw [Exec.run_all_cons hindex, Exec.run_all_cons harray, Exec.run_all_cons hcounted,
    Exec.all_singleton, Exec.run_convert .i32 rfl, h.stack]
  rfl

/-- The test asks whether there are items left. -/
theorem run_less (hi : i < 1 <<< 31) {count : Nat} (hcount : count < 1 <<< 31)
    (hstack : m.frame.stack = .ofInt32 count :: .ofInt32 i :: rest) (target : Nat) :
    (Jump.compare .lessThan target).follow.run m =
      .ok (if i < count then some target else none) (m.withStack rest) := by
  rw [Jump.run_compare hstack (Host.holds_wrap .lessThan (spans_i32 hi) (spans_i32 hcount) m.world),
    Comparison.accepts_lessThan]
  simp

/-- Behind a round the index is one more. -/
theorem run_back (h : Looping m₀ l x v rest i m) (hne : l ≠ x) (hi : i < 1 <<< 31) :
    ∃ m', (Exec.all [.loadLocal l, .push (.ofInt32 1), .add, .storeLocal l (some .i32)]).run m = .ok () m' ∧
      Looping m₀ l x v rest (i + 1) m' := by
  have hl : l < m.frame.locals.size := (Array.getElem?_eq_some_iff.1 h.index).1
  have hfit : Value.fit (some .i32) (.scalar ((Scalar.i32 i).add (Scalar.i32 1))) = .ofInt32 (i + 1 : Nat) := by
    rw [Value.fit_scalar, Scalar.i32, Scalar.wrap, Scalar.convert_add_one,
      Scalar.wordValue_lowBits (spans_i32 hi)]
    rfl
  refine ⟨m.withLocal l (.ofInt32 (i + 1 : Nat)), ?_, ?_⟩
  · have hpush : (Op.execute (.push (.ofInt32 1))).run (m.withStack (.ofInt32 i :: m.frame.stack)) =
        .ok () (m.withStack (.ofInt32 1 :: .ofInt32 i :: m.frame.stack)) := rfl
    have hstore : (Op.execute (.storeLocal l (some .i32))).run
        (m.withStack (.scalar ((Scalar.i32 i).add (Scalar.i32 1)) :: m.frame.stack)) =
        .ok () (m.withLocal l (Value.fit (some .i32) (.scalar ((Scalar.i32 i).add (Scalar.i32 1))))) :=
      Exec.run_storeLocal (m := m.withStack (.scalar ((Scalar.i32 i).add (Scalar.i32 1)) :: m.frame.stack)) hl rfl
    rw [Exec.run_all_cons (Exec.run_loadLocal h.index), Exec.run_all_cons hpush,
      Exec.run_all_cons (Exec.run_add rfl), Exec.all_singleton]
    rw [hfit] at hstore
    exact hstore
  · exact ⟨Machine.size_withLocal.trans h.size, h.heap, Machine.getElem?_withLocal_self hl,
      (Machine.getElem?_withLocal_ne hne).trans h.array, h.stack⟩

end Looping

/-- A **counted loop** over an array comes to an end if each round does. -/
theorem attains_countLoop {l x : Nat} {body : List (Instruction Nat)}
    (h : p.Has n (countLoop l x n body)) (hne : l ≠ x) (hx : m.frame.locals[x]? = some v)
    (hS : S → l < m.frame.locals.size ∧ ∃ a, v = .array a ∧ m.world.heap.itemCount a < 1 <<< 31)
    (hbody : ∀ (a : ArrayId) (i : Nat) (m₁ : Machine), v = .array a → i < m.world.heap.itemCount a →
      m.world.heap.itemCount a < 1 <<< 31 → Looping m l x v m.frame.stack i m₁ →
      p.Attains (Stretch (n + 3) (n + 3 + body.length)) S (n + 3) m₁ fun n' m' =>
        n' = n + 3 + body.length ∧ Looping m l x v m.frame.stack i m') :
    p.Attains (Stretch n (n + 3 + body.length + 9)) S n m fun n' m' =>
      n' = n + 3 + body.length + 9 ∧ ∃ i, Looping m l x v m.frame.stack i m' := by
  obtain ⟨hhead, hjump, -, hback, htest, hless⟩ := has_countLoop h
  obtain ⟨hpush, hset, -⟩ := hhead
  let inside := Stretch n (n + 3 + body.length + 9)
  -- the index begins at zero
  have hzero : (Op.execute (.push (.ofInt32 0))).run m = .ok () (m.withStack (.ofInt32 0 :: m.frame.stack)) := rfl
  have hset' : l < m.frame.locals.size → (Op.execute (.storeLocal l (some .i32))).run
      (m.withStack (.ofInt32 0 :: m.frame.stack)) = .ok () (m.withLocal l (.ofInt32 0)) :=
    fun hl => Exec.run_storeLocal (m := m.withStack (.ofInt32 0 :: m.frame.stack)) hl rfl
  refine .op ⟨by omega, by omega⟩ hpush (fun m₁ hm₁ => ?_) fun _ => ⟨_, hzero⟩
  cases hzero.symm.trans hm₁
  refine .op ⟨by omega, by omega⟩ hset (fun m₁ hm₁ => ?_) fun hs => ⟨_, hset' (hS hs).1⟩
  have hl : l < m.frame.locals.size :=
    Exec.lt_of_storeLocal (m := m.withStack (.ofInt32 0 :: m.frame.stack)) hm₁
  cases (hset' hl).symm.trans hm₁
  have hstart : Looping m l x v m.frame.stack 0 (m.withLocal l (.ofInt32 0)) :=
    ⟨Machine.size_withLocal, .refl _, Machine.getElem?_withLocal_self hl,
      (Machine.getElem?_withLocal_ne hne).trans hx, rfl⟩
  refine .taken ⟨by omega, by omega⟩ hjump rfl rfl ?_
  show p.Attains inside S (n + 3 + body.length + 4) _ _
  have hinside : ∀ i, n + 3 + body.length + 4 ≤ i → i < n + 3 + body.length + 4 + 4 → inside i :=
    fun i hi hi' => ⟨by omega, by omega⟩
  by_cases hv : ∃ a, v = .array a ∧ m.world.heap.itemCount a < 1 <<< 31
  · obtain ⟨a, rfl, hcount⟩ := hv
    refine Attains.rounds
      (fun i (hi : i < m.world.heap.itemCount a) m₂ (hm₂ : Looping m l x (.array a) m.frame.stack i m₂) => ?_)
      (fun m₂ hm₂ => ?_) (Nat.zero_le _) hstart
    · have hi' : i < 1 <<< 31 := Nat.lt_trans hi hcount
      have hless' : (Jump.compare .lessThan (n + 3)).follow.run
          (m₂.withStack (.ofInt32 (m.world.heap.itemCount a) :: .ofInt32 i :: m.frame.stack)) =
            .ok (some (n + 3)) m₂ := by
        rw [Looping.run_less hi' hcount rfl, if_pos hi, ← hm₂.stack]
        rfl
      refine .done htest hinside (hm₂.run_test hcount) ?_
      show p.Attains inside S (n + 3 + body.length + 4 + 4) _ _
      refine .taken ⟨by omega, by omega⟩ hless hless' rfl ?_
      refine ((hbody a i m₂ rfl hi hcount hm₂).imp (fun i hi => ⟨by have := hi.1; omega, by have := hi.2; omega⟩) id
        fun _ _ h => h).bind ?_
      rintro _ m₃ ⟨rfl, hm₃⟩
      obtain ⟨m₄, hrun, hm₄⟩ := hm₃.run_back hne hi'
      exact .done hback (fun i hi hi' => ⟨by omega, by simp only [List.length_cons, List.length_nil] at hi'; omega⟩)
        hrun (.here ⟨rfl, hm₄⟩)
    · have hless' : (Jump.compare .lessThan (n + 3)).follow.run
          (m₂.withStack (.ofInt32 (m.world.heap.itemCount a) :: .ofInt32 (m.world.heap.itemCount a) :: m.frame.stack)) =
            .ok none m₂ := by
        rw [Looping.run_less hcount hcount rfl, if_neg (Nat.lt_irrefl _), ← hm₂.stack]
        rfl
      refine .done htest hinside (hm₂.run_test hcount) ?_
      show p.Attains inside S (n + 3 + body.length + 4 + 4) _ _
      exact .taken ⟨by omega, by omega⟩ hless hless' rfl (.here ⟨rfl, _, hm₂⟩)
  · -- without an array that can be counted the first test stops
    refine .all htest hinside (fun m₂ hm₂ => ?_) fun hs => absurd (hS hs).2 hv
    have hindex : (Op.execute (.loadLocal l)).run (m.withLocal l (.ofInt32 0)) =
        .ok () ((m.withLocal l (.ofInt32 0)).withStack (.ofInt32 0 :: m.frame.stack)) :=
      Exec.run_loadLocal hstart.index
    have harray : (Op.execute (.loadLocal x)).run
        ((m.withLocal l (.ofInt32 0)).withStack (.ofInt32 0 :: m.frame.stack)) =
        .ok () ((m.withLocal l (.ofInt32 0)).withStack (v :: .ofInt32 0 :: m.frame.stack)) :=
      Exec.run_loadLocal hstart.array
    rw [Exec.run_all_cons hindex, Exec.run_all_cons harray, Exec.all, Exec.run_bind] at hm₂
    split at hm₂
    · rename_i hcounted
      exact absurd (Exec.of_itemCount rfl hcounted) hv
    · cases hm₂

/-! ### Text -/

/-- What is stored goes into a local that is there. -/
theorem attains_storeLocal {i : Nat} {kind : Option ScalarKind} {R : Nat → Machine → Prop} (hP : P n)
    (hi : p.code[n]? = some (.op (.storeLocal i kind))) (hstack : m.frame.stack = v :: rest)
    (hS : S → i < m.frame.locals.size)
    (hok : i < m.frame.locals.size →
      p.Attains P S (n + 1) ((m.withStack rest).withLocal i (Value.fit kind v)) R) :
    p.Attains P S n m R := by
  refine .op hP hi (fun m₁ hm₁ => ?_) fun hs => ⟨_, Exec.run_storeLocal (hS hs) hstack⟩
  have hl := Exec.lt_of_storeLocal hm₁
  cases (Exec.run_storeLocal hl hstack).symm.trans hm₁
  exact hok hl

/-- The text of an **item** is added to the text so far, and the loop goes on. -/
theorem attains_itemCode {e : Ty} {j i : Nat} {a : ArrayId} {m₀ : Machine} {text : List (Instruction Nat)}
    (h : p.Has n (Op.straight (e.itemHead j) ++ text ++ Op.straight (Ty.itemLast j)))
    (hm : Looping m₀ (j + 2) j (.array a) rest i m) (hi : i < m₀.world.heap.itemCount a)
    (hcount : m₀.world.heap.itemCount a < 1 <<< 31)
    (htext : ∀ (w x : Value) (m₁ : Machine), m₀.world.heap.getItem a i = .ok w →
      m₀.world.heap.Adds m₁.world.heap → m₁.frame.locals.size = m₀.frame.locals.size →
      m₁.frame.stack = w :: x :: rest →
      p.Attains (Stretch (n + (e.itemHead j).length) (n + (e.itemHead j).length + text.length)) S
        (n + (e.itemHead j).length) m₁ fun n' m' => n' = n + (e.itemHead j).length + text.length ∧
          m₁.Aside (j + 3) m' ∧ ∃ y, m'.frame.stack = y :: x :: rest) :
    p.Attains (Stretch n (n + (e.itemHead j).length + text.length + 3)) S n m fun n' m' =>
      n' = n + (e.itemHead j).length + text.length + 3 ∧ Looping m₀ (j + 2) j (.array a) rest i m' := by
  obtain ⟨hhead, hlast⟩ := has_append.1 h
  obtain ⟨hload, -⟩ := has_append.1 hhead
  rw [List.length_append, Op.length_straight, ← Nat.add_assoc] at hlast
  have hload := has_straight.1 hload
  obtain ⟨hpush, hjoin, hset, -⟩ := has_straight.1 hlast
  -- the text so far and the item
  have hsize : j + 2 < m.frame.locals.size := (Array.getElem?_eq_some_iff.1 hm.index).1
  obtain ⟨x, hx⟩ : ∃ x, m.frame.locals[j + 1]? = some x := ⟨_, Array.getElem?_eq_getElem (by omega)⟩
  have hsame : m.world.heap.itemCount a = m₀.world.heap.itemCount a := by
    rw [Heap.itemCount, hm.heap.arrayCell, Heap.itemCount]
  obtain ⟨w, hw, hitem⟩ := Exec.run_itemLoad e (m := m.withStack (.ofInt32 i :: .array a :: x :: m.frame.stack))
    rfl (hsame ▸ hi) (hsame ▸ hcount)
  have hw : m₀.world.heap.getItem a i = .ok w := by
    rw [Heap.getItem, ← hm.heap.arrayCell]
    exact hw
  have hall : (Exec.all (e.itemHead j)).run m = .ok () (m.withStack (w :: x :: rest)) := by
    have harray : (Op.execute (.loadLocal j)).run (m.withStack (x :: m.frame.stack)) =
        .ok () (m.withStack (.array a :: x :: m.frame.stack)) := Exec.run_loadLocal hm.array
    have hindex : (Op.execute (.loadLocal (j + 2))).run (m.withStack (.array a :: x :: m.frame.stack)) =
        .ok () (m.withStack (.ofInt32 i :: .array a :: x :: m.frame.stack)) := Exec.run_loadLocal hm.index
    rw [Ty.itemHead, Exec.all_append, Exec.run_bind, Exec.run_all_cons (Exec.run_loadLocal hx),
      Exec.run_all_cons harray, Exec.all_singleton, hindex]
    dsimp only
    rw [hitem, hm.stack]
    rfl
  refine .done hload (fun i hi hi' => ⟨hi, by omega⟩) hall ?_
  refine ((htext w x (m.withStack (w :: x :: rest)) hw hm.heap hm.size rfl).imp
    (fun i hi => ⟨by have := hi.1; omega, by have := hi.2; omega⟩)
    id fun _ _ h => h).bind ?_
  rintro _ m₂ ⟨rfl, haside, y, hstack⟩
  -- their texts together
  obtain ⟨z, hjoined⟩ := Exec.run_joinThree (m := m₂.withStack (.text ", " :: y :: x :: rest)) rfl
  have hpushed : (Op.execute (.push (.text ", "))).run m₂ = .ok () (m₂.withStack (.text ", " :: y :: x :: rest)) := by
    rw [← hstack]
    rfl
  have hsize₂ : m₂.frame.locals.size = m.frame.locals.size := haside.size
  have hrow : p.HasAt (n + (e.itemHead j).length + text.length) [.push (.text ", "), .call Builtin.joinThree] :=
    ⟨hpush, hjoin, trivial⟩
  refine .done hrow (fun i hi hi' => ⟨by omega, by simp only [List.length_cons, List.length_nil] at hi'; omega⟩)
    (by rw [Exec.run_all_cons hpushed, Exec.all_singleton, hjoined]) ?_
  refine attains_storeLocal ⟨by simp; omega, by simp⟩ hset rfl (fun _ => ?_) fun _ => .here ⟨rfl, ?_⟩
  · show j + 1 < m₂.frame.locals.size
    omega
  · have hkept : ∀ i < j + 3, m₂.frame.locals[i]? = m.frame.locals[i]? := haside.locals
    refine ⟨?_, hm.heap.trans haside.heap, ?_, ?_, rfl⟩
    · rw [Machine.size_withLocal]
      exact hsize₂.trans hm.size
    · rw [Machine.getElem?_withLocal_ne (by omega)]
      exact (hkept _ (by omega)).trans hm.index
    · rw [Machine.getElem?_withLocal_ne (by omega)]
      exact (hkept _ (by omega)).trans hm.array

/-- The code for the text of an **array** comes to an end if that for its items does. -/
theorem attains_arrayCode {e : Ty} {j : Nat} {item : Nat → List (Instruction Nat)}
    (h : p.Has n (e.arrayCode n j item)) (hstack : m.frame.stack = v :: rest)
    (hS : S → j + 2 < m.frame.locals.size ∧ ∃ a, v = .array a ∧ m.world.heap.itemCount a < 1 <<< 31)
    (hitem : ∀ (a : ArrayId) (i : Nat) (w x : Value) (n' : Nat) (m₁ : Machine), v = .array a →
      m.world.heap.getItem a i = .ok w → m.world.heap.Adds m₁.world.heap →
      m₁.frame.locals.size = m.frame.locals.size → p.Has n' (item n') → m₁.frame.stack = w :: x :: rest →
      p.Attains (Stretch n' (n' + (item n').length)) S n' m₁ fun n₂ m₂ => n₂ = n' + (item n').length ∧
        m₁.Aside (j + 3) m₂ ∧ ∃ y, m₂.frame.stack = y :: x :: rest) :
    p.Attains (Stretch n (n + (e.arrayCode n j item).length)) S n m fun n' _ =>
      n' = n + (e.arrayCode n j item).length := by
  let text := item (n + 6 + (e.itemHead j).length)
  let body := Op.straight (e.itemHead j) ++ text ++ Op.straight (Ty.itemLast j)
  obtain ⟨hrest, htail⟩ := has_append.1 h
  obtain ⟨hhead, hloop⟩ := has_append.1 hrest
  obtain ⟨harray, hpush, hempty, -⟩ := has_straight.1 hhead
  have hloop : p.Has (n + 3) (countLoop (j + 2) j (n + 3) body) := hloop
  obtain ⟨-, -, hbody, -, -, -⟩ := has_countLoop hloop
  have hlength : body.length = (e.itemHead j).length + text.length + 3 := by
    simp [body, Ty.itemLast, Nat.add_assoc]
  have hend : n + (Op.straight (Ty.arrayHead j) ++ countLoop (j + 2) j (n + 3) body).length =
      n + 3 + 3 + body.length + 9 := by
    simp [Ty.arrayHead, countLoop]
    omega
  have hsize : n + (e.arrayCode n j item).length = n + 3 + 3 + body.length + 9 + 3 := by
    rw [← hend, Nat.add_assoc n]
    exact congrArg (n + ·) (List.length_append ..)
  rw [hend] at htail
  rw [hsize]
  have hinside : ∀ i, n + 3 ≤ i → i < n + 3 + 3 + body.length + 9 →
      Stretch n (n + 3 + 3 + body.length + 9 + 3) i := fun i hi hi' => ⟨by omega, by omega⟩
  -- the array and the text so far are put into their locals
  refine attains_storeLocal ⟨by omega, by omega⟩ harray hstack (fun hs => by have := (hS hs).1; omega) fun hj => ?_
  let m₁ := (m.withStack rest).withLocal j v
  have hpushed : (Op.execute (.push (.text "\x7b "))).run m₁ = .ok () (m₁.withStack (.text "\x7b " :: rest)) := rfl
  refine .op ⟨by omega, by omega⟩ hpush (fun m₂ hm₂ => ?_) fun _ => ⟨_, hpushed⟩
  cases hpushed.symm.trans hm₂
  have hsize₁ : m₁.frame.locals.size = m.frame.locals.size := Machine.size_withLocal
  refine attains_storeLocal ⟨by omega, by omega⟩ hempty rfl
    (fun hs => by have := (hS hs).1; exact hsize₁ ▸ (by omega : j + 1 < m.frame.locals.size)) fun hj' => ?_
  let m₂ := (m₁.withStack rest).withLocal (j + 1) (.text "\x7b ")
  have hsize₂ : m₂.frame.locals.size = m.frame.locals.size := Machine.size_withLocal.trans hsize₁
  have hx : m₂.frame.locals[j]? = some v :=
    (Machine.getElem?_withLocal_ne (by omega)).trans (Machine.getElem?_withLocal_self hj)
  -- the loop
  have hrounds : p.Attains (Stretch (n + 3) (n + 3 + 3 + body.length + 9)) S (n + 3) m₂ fun n' m' =>
      n' = n + 3 + 3 + body.length + 9 ∧ ∃ i, Looping m₂ (j + 2) j v rest i m' := by
    refine attains_countLoop hloop (by omega) hx (fun hs => ⟨hsize₂ ▸ (hS hs).1, (hS hs).2⟩)
      fun a i m₃ ha hi hcount hm₃ => ?_
    subst ha
    have hposition : n + 3 + 3 + body.length = n + 3 + 3 + (e.itemHead j).length + text.length + 3 := by omega
    rw [hposition]
    exact attains_itemCode hbody hm₃ hi hcount fun w x m₄ hw hheap hsize₄ hstack₄ =>
      hitem a i w x _ m₄ rfl hw hheap (hsize₄.trans hsize₂)
        (by
          have htext := (has_append.1 (has_append.1 hbody).1).2
          rwa [Op.length_straight] at htext) hstack₄
  refine (hrounds.imp (fun i hi => hinside i hi.1 hi.2) id fun _ _ h => h).bind ?_
  rintro _ m₃ ⟨rfl, i, hm₃⟩
  -- the text is ended
  obtain ⟨z, hz⟩ : ∃ z, m₃.frame.locals[j + 1]? = some z := by
    have := (Array.getElem?_eq_some_iff.1 hm₃.index).1
    exact ⟨_, Array.getElem?_eq_getElem (by omega)⟩
  obtain ⟨y, hjoined⟩ := Exec.run_joinTwo (m := m₃.withStack (.text "\x7d" :: z :: m₃.frame.stack)) rfl
  have hpushed : (Op.execute (.push (.text "\x7d"))).run (m₃.withStack (z :: m₃.frame.stack)) =
      .ok () (m₃.withStack (.text "\x7d" :: z :: m₃.frame.stack)) := rfl
  refine .done (has_straight.1 htail)
    (fun i hi hi' => ⟨by omega, by simp only [Ty.arrayLast, List.length_cons, List.length_nil] at hi'; omega⟩)
    (by rw [Ty.arrayLast, Exec.run_all_cons (Exec.run_loadLocal hz), Exec.run_all_cons hpushed,
      Exec.all_singleton, hjoined]) (.here rfl)

/-- What the code for the text of a value leaves if it comes to an end. -/
theorem Attains.text {t : Ty} {j : Nat} (h : p.Has n (t.textCode n j)) (hstack : m.frame.stack = v :: rest)
    (hend : p.Attains (Stretch n (n + (t.textCode n j).length)) S n m fun n' _ =>
      n' = n + (t.textCode n j).length) :
    p.Attains (Stretch n (n + (t.textCode n j).length)) S n m fun n' m' => n' = n + (t.textCode n j).length ∧
      m.Aside j m' ∧ ∃ x, m'.frame.stack = x :: rest := by
  refine (hend.crosses (passes_textCode (Nat.le_refl j) h m [v] rest hstack rfl)).imp (fun _ h => h) id ?_
  rintro n' m' ⟨hn, haside, zs, hzs, hstack'⟩
  obtain ⟨x, rfl⟩ := List.length_eq_one_iff.1 hzs
  exact ⟨hn, haside, x, hstack'⟩

/-- The code for the **text** of a value comes to an end: it stops only if the value cannot be shown, or if
there are too few locals. -/
theorem attains_textCode {t : Ty} {j : Nat} (h : p.Has n (t.textCode n j)) (hstack : m.frame.stack = v :: rest)
    (hS : S → m.world.heap.Shows t v ∧ j + t.textSlots ≤ m.frame.locals.size) :
    p.Attains (Stretch n (n + (t.textCode n j).length)) S n m fun n' _ =>
      n' = n + (t.textCode n j).length := by
  induction t using Emit.toFullText.induct generalizing n j m v rest with
  | case1 e ih =>
    rw [Ty.textCode] at h ⊢
    rw [length_nullGuard, ← Nat.add_assoc]
    obtain ⟨-, -, -, -, hbody⟩ := has_nullGuard h
    have hslots : S → j + e.textSlots + 3 ≤ m.frame.locals.size := fun hs => (hS hs).2
    refine attains_nullGuard h hstack fun hnull => attains_arrayCode hbody hstack (fun hs => ?_)
      fun a i w x n' m₁ ha hw hheap hsize hitem hstack₁ => (ih hitem hstack₁ fun hs => ?_).text hitem hstack₁
    · obtain hv | ⟨a, ha, hcount, -⟩ := (hS hs).1
      · exact absurd hv hnull
      · exact ⟨by have := hslots hs; omega, a, ha, hcount⟩
    · obtain hv | ⟨a', ha', -, hitems⟩ := (hS hs).1
      · exact absurd hv hnull
      · cases ha.symm.trans ha'
        exact ⟨(hitems i w hw).adds hheap, by have := hslots hs; omega⟩
  | case2 t hne hvalue =>
    rw [Ty.textCode_of_not_array hne, if_pos hvalue] at h ⊢
    refine .all (has_straight.1 h) (fun i hi hi' => ⟨hi, hi'⟩) (fun _ _ => .here rfl) fun hs => ?_
    have hbox := Exec.run_box t hstack ((Heap.shows_of_not_array hne).1 (hS hs).1)
    obtain ⟨x, hx⟩ := Exec.run_textOf (m := Machine.withStack
      { m with world.heap := (m.world.heap.allocBox t (Value.fit t.storedAs? v)).2 }
      (.boxed (m.world.heap.allocBox t (Value.fit t.storedAs? v)).1 :: rest)) rfl (by simp) (by simp)
    exact ⟨_, by rw [Exec.run_all_cons hbox, Exec.all_singleton, hx]⟩
  | case3 t hne hvalue =>
    rw [Ty.textCode_of_not_array hne, if_neg hvalue] at h ⊢
    rw [length_nullGuard, ← Nat.add_assoc]
    obtain ⟨-, -, -, -, hbody⟩ := has_nullGuard h
    refine attains_nullGuard h hstack fun hnull => ?_
    refine .all (has_straight.1 hbody) (fun i hi hi' => ⟨hi, hi'⟩) (fun _ _ => .here rfl) fun hs => ?_
    obtain ⟨x, hx⟩ := Exec.run_textOf hstack hnull ((Heap.shows_of_not_array hne).1 (hS hs).1)
    exact ⟨_, by rw [Exec.all_singleton, hx]⟩

/-- A dump comes to an end if the code for the text does, and the stack is as it was. -/
theorem attains_dump_of {t : Ty} {sink : Sink} {j : Nat} (h : p.Has n (t.dumpCode sink n j))
    (hS : S → (∃ v rest, m.frame.stack = v :: rest) ∧ j + t.textSlots < m.frame.locals.size)
    (htext : ∀ v rest, m.frame.stack = v :: rest → p.Has (n + 1) (t.textCode (n + 1) j) →
      p.Attains (Stretch (n + 1) (n + 1 + (t.textCode (n + 1) j).length)) S (n + 1) (m.withStack (v :: v :: rest))
        fun n' _ => n' = n + 1 + (t.textCode (n + 1) j).length) :
    p.Attains (Stretch n (n + (t.dumpCode sink n j).length)) S n m fun n' m' =>
      n' = n + (t.dumpCode sink n j).length ∧ m.Aside j m' ∧ m'.frame.stack = m.frame.stack := by
  refine Attains.crosses ?_ (leads_dump (Nat.le_refl j) h m)
  obtain ⟨hhead, hlast⟩ := has_append.1 h
  obtain ⟨hdup, hcode⟩ := has_append.1 hhead
  obtain ⟨hdup, -⟩ := has_straight.1 hdup
  have hsize : n + (t.dumpCode sink n j).length = n + 1 + (t.textCode (n + 1) j).length + 5 := by
    simp [Ty.dumpCode]
    omega
  have hposition : n + (Op.straight [.dup] ++ t.textCode (n + 1) j).length =
      n + 1 + (t.textCode (n + 1) j).length := by
    simp
    omega
  have hcode : p.Has (n + 1) (t.textCode (n + 1) j) := hcode
  rw [hposition] at hlast
  obtain ⟨hset, hrow⟩ := has_straight.1 hlast
  rw [hsize]
  refine .op ⟨by omega, by omega⟩ hdup (fun m₁ hm₁ => ?_) fun hs => ?_
  · obtain ⟨v, rest, hstack, -⟩ := Exec.exists_of_dup hm₁
    cases (Exec.run_dup hstack).symm.trans hm₁
    refine (((htext v rest hstack hcode).text hcode rfl).imp
      (fun i hi => ⟨by have := hi.1; omega, by have := hi.2; omega⟩) id fun _ _ h => h).bind ?_
    rintro _ m₂ ⟨rfl, haside, x, hstack₂⟩
    -- the text is stored, read again and reported
    refine attains_storeLocal ⟨by omega, by omega⟩ hset hstack₂ (fun hs => haside.size ▸ (hS hs).2) fun hj => ?_
    let m₃ := (m₂.withStack (v :: rest)).withLocal (j + t.textSlots) x
    have hpush : (Op.execute (.push (.text "//value = "))).run m₃ =
        .ok () (m₃.withStack (.text "//value = " :: v :: rest)) := rfl
    have hload : (Op.execute (.loadLocal (j + t.textSlots))).run (m₃.withStack (.text "//value = " :: v :: rest)) =
        .ok () (m₃.withStack (x :: .text "//value = " :: v :: rest)) :=
      Exec.run_loadLocal (Machine.getElem?_withLocal_self hj)
    obtain ⟨y, hjoin⟩ := Exec.run_joinTwo (m := m₃.withStack (x :: .text "//value = " :: v :: rest)) rfl
    obtain ⟨m₄, hreport⟩ := Exec.run_reportTop (m := m₃.withStack (.text y :: v :: rest)) sink rfl
    have hall : (Exec.all [.push (.text "//value = "), .loadLocal (j + t.textSlots), .call Builtin.joinTwo,
        .call (Builtin.report sink)]).run m₃ = .ok () m₄ := by
      rw [Exec.run_all_cons hpush, Exec.run_all_cons hload, Exec.run_all_cons hjoin, Exec.all_singleton]
      exact hreport
    exact .done hrow (fun i hi hi' => ⟨by omega, by simp only [List.length_cons, List.length_nil] at hi'; omega⟩)
      hall (.here rfl)
  · obtain ⟨⟨v, rest, hstack⟩, -⟩ := hS hs
    exact ⟨_, Exec.run_dup hstack⟩

/-- A **dump** comes to an end, and the stack is as it was: it stops only if there is no value that can be
shown, or if there are too few locals. -/
theorem attains_dump {t : Ty} {sink : Sink} {j : Nat} (h : p.Has n (t.dumpCode sink n j))
    (hS : S → ∃ v rest, m.frame.stack = v :: rest ∧ m.world.heap.Shows t v ∧
      j + t.textSlots < m.frame.locals.size) :
    p.Attains (Stretch n (n + (t.dumpCode sink n j).length)) S n m fun n' m' =>
      n' = n + (t.dumpCode sink n j).length ∧ m.Aside j m' ∧ m'.frame.stack = m.frame.stack := by
  refine attains_dump_of h (fun hs => ?_) fun v rest hstack htext => attains_textCode htext rfl fun hs => ?_
  · obtain ⟨v, rest, hstack, -, hslots⟩ := hS hs
    exact ⟨⟨v, rest, hstack⟩, hslots⟩
  · obtain ⟨w, rest', hstack', hshows, hslots⟩ := hS hs
    cases hstack.symm.trans hstack'
    exact ⟨hshows, Nat.le_of_lt hslots⟩

/-- The dump of the **address** of a place for a value type comes to an end: it shows what the place holds. -/
theorem attains_dump_address {t : Ty} {sink : Sink} {j : Nat} (ht : t.isValue)
    (h : p.Has n (t.dumpCode sink n j))
    (hS : S → (∃ l w rest, m.frame.stack = .address l :: rest ∧ m.read l = .ok w) ∧
      j + t.textSlots < m.frame.locals.size) :
    p.Attains (Stretch n (n + (t.dumpCode sink n j).length)) S n m fun n' m' =>
      n' = n + (t.dumpCode sink n j).length ∧ m.Aside j m' ∧ m'.frame.stack = m.frame.stack := by
  have hne : ∀ e, t = .array e → False := by
    rintro e rfl
    cases ht
  refine attains_dump_of h (fun hs => ?_) fun v rest hstack htext => ?_
  · obtain ⟨⟨l, w, rest, hstack, -⟩, hslots⟩ := hS hs
    exact ⟨⟨_, rest, hstack⟩, hslots⟩
  · rw [Ty.textCode_of_not_array hne, if_pos ht] at htext ⊢
    refine .all (has_straight.1 htext) (fun i hi hi' => ⟨hi, hi'⟩) (fun _ _ => .here rfl) fun hs => ?_
    obtain ⟨⟨l, w, rest', hstack', hread⟩, -⟩ := hS hs
    cases hstack.symm.trans hstack'
    -- the address is read through, and what is at the place has a text
    have hload : (Exec.readThrough (.address l)).run (m.withStack (.address l :: rest)) =
        .ok w (m.withStack (.address l :: rest)) := by
      show (Exec.load l).run _ = _
      rw [Exec.run_load, Machine.read_withStack, hread]
    have hbox : (Op.execute (.box t)).run (m.withStack (.address l :: .address l :: rest)) = _ :=
      Exec.run_box_of_read t rfl hload
    obtain ⟨x, hx⟩ := Exec.run_textOf (m := Machine.withStack { m with
      world.heap := (m.world.heap.allocBox t (Value.fit t.storedAs? w)).2 }
      (.boxed (m.world.heap.allocBox t (Value.fit t.storedAs? w)).1 :: .address l :: rest)) rfl (by simp) (by simp)
    exact ⟨_, by rw [Exec.run_all_cons hbox, Exec.all_singleton]; exact hx⟩

end Procedure

end Stackwright
