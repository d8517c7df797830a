import Mathlib.Algebra.Group.Nat.Defs
import Stackwright.Proofs.Emission.Stores
import Stackwright.Proofs.Scalar.Words

/-! # Items by index

What the operations that load and store the items of an array make of an index, at every level. An integer of
any kind is used as it is, and an item that the array does not have is refused before anything changes. Only the
untyped base of all arrays is handed a 32-bit integer, to which the index is converted first.

* **`Machine.integer? m i`** — the integer that is the value of an operand.
* **`Operand.sought a n`** — the index of the item that is stored for an integer.
* **`Op.Checks o m b j`** — an operation goes on only with an item that is there.
* **`Op.Played.seeks`** — what the operations of a load or a store come to. -/

namespace Stackwright

/-! ## (1) Items and indices -/

namespace Heap

variable {h h' : Heap} {b : ArrayId} {j : Int}

/-- An array **has an item** at an index. -/
def HasItem (h : Heap) (b : ArrayId) (j : Int) : Prop := 0 ≤ j ∧ j < h.itemCount b

instance (h : Heap) (b : ArrayId) (j : Int) : Decidable (h.HasItem b j) := inferInstanceAs (Decidable (_ ∧ _))

theorem checkItem_of_hasItem (hj : h.HasItem b j) : h.checkItem b j = .ok () := if_pos hj

theorem checkItem_of_not_hasItem (hj : ¬ h.HasItem b j) :
    h.checkItem b j = .error (.indexOutOfRange j (h.itemCount b)) := if_neg hj

/-- An item that is there is read. -/
theorem getItem_of_hasItem (hj : h.HasItem b j) : ∃ v, h.getItem b j = .ok v := by
  obtain ⟨hnonneg, hlt⟩ := hj
  have hin : j.toNat < (h.arrayCell b).items.size := by
    rw [itemCount] at hlt
    omega
  refine ⟨(h.arrayCell b).items[j.toNat], ?_⟩
  simp only [getItem, if_neg (Int.not_lt.2 hnonneg), Array.getElem?_eq_getElem hin]

theorem getItem_of_not_hasItem (hj : ¬ h.HasItem b j) :
    h.getItem b j = .error (.indexOutOfRange j (h.itemCount b)) := by
  unfold getItem
  dsimp only
  split
  · rfl
  · rename_i hnonneg
    have hout : (h.arrayCell b).items[j.toNat]? = none := by
      refine Array.getElem?_eq_none (Nat.le_of_not_lt fun hlt => hj ⟨Int.not_lt.1 hnonneg, ?_⟩)
      rw [itemCount]
      omega
    rw [hout]
    rfl

/-- The position of such an item is its index, where arrays are not too long. -/
theorem HasItem.indexOf_toNat (hj : h.HasItem b j) (hcount : h.itemCount b ≤ 2 ^ 63) : indexOf j.toNat = j := by
  obtain ⟨hnonneg, hlt⟩ := hj
  rw [indexOf, BitVec.toInt_eq_toNat_bmod, BitVec.toNat_ofNat, Int.bmod_def]
  omega

/-- More boxes are no items. -/
theorem Adds.itemCount (hh : h.Adds h') (b : ArrayId) : h'.itemCount b = h.itemCount b := by
  rw [Heap.itemCount, Heap.itemCount, hh.arrayCell]

theorem HasItem.adds (hj : h.HasItem b j) (hh : h.Adds h') : h'.HasItem b j := by
  rwa [HasItem, hh.itemCount]

theorem Adds.getItem (hh : h.Adds h') (b : ArrayId) (j : Int) : h'.getItem b j = h.getItem b j := by
  rw [Heap.getItem, Heap.getItem, hh.arrayCell]

end Heap

/-- A value **stands for an index**: it is the index itself, or it is too large for an item of any array, and
then it is read as a negative one. -/
def Value.Indexes (y : Value) (j : Int) : Prop := ∃ r, y.index? = some r ∧ (r = j ∨ r < 0 ∧ 2 ^ 63 ≤ j)

/-- A word stands for its integer. -/
theorem Value.indexes_word (k : WordKind) (v : BitVec k.bits) :
    (Value.scalar (.word k v)).Indexes (Scalar.wordValue k v) := Value.index?_word k v

/-- Where arrays are not too long, the item at the index that is read is the one at the index. -/
theorem Heap.hasItem_iff {h : Heap} {b : ArrayId} {j r : Int} (hr : r = j ∨ r < 0 ∧ 2 ^ 63 ≤ j)
    (hcount : h.itemCount b ≤ 2 ^ 63) : (h.HasItem b r ↔ h.HasItem b j) ∧ (h.HasItem b j → r = j) := by
  unfold HasItem
  omega

/-- An item that is there is read at its address. -/
theorem Machine.read_item {m : Machine} {b : ArrayId} {j : Int} {z : Value} (hj : m.world.heap.HasItem b j)
    (hcount : m.world.heap.itemCount b ≤ 2 ^ 63) (hz : m.world.heap.getItem b j = .ok z) :
    m.read (.element b j.toNat) = .ok z := by
  rwa [Machine.read, hj.indexOf_toNat hcount]

/-- The address of an item that is there holds the item. -/
theorem Machine.holds_item {m : Machine} {b : ArrayId} {j : Int} {z : Value} (hj : m.world.heap.HasItem b j)
    (hcount : m.world.heap.itemCount b ≤ 2 ^ 63) (hz : m.world.heap.getItem b j = .ok z) :
    m.Holds (.element b j.toNat) z := by
  rw [Machine.Holds, Exec.run_load, Machine.read_item hj hcount hz]

/-- The integer that is the **value of an operand** of an integer type. -/
def Machine.integer? (m : Machine) (i : Operand) : Option Int :=
  match i.type, m.operand? i with
  | .primitive (.word _), some (.scalar (.word k v)) => some (Scalar.wordValue k v)
  | _, _ => none

/-- Such an operand holds a word. -/
theorem Machine.word_of_integer {m : Machine} {i : Operand} {n : Int} (h : m.integer? i = some n) :
    ∃ K k v, i.type = .primitive (.word K) ∧ m.operand? i = some (.scalar (.word k v)) ∧
      n = Scalar.wordValue k v := by
  unfold integer? at h
  split at h
  · rename_i K k v htype hv
    cases h
    exact ⟨K, k, v, htype, hv, rfl⟩
  · cases h

/-- The index that is **sought** in an array operand for an integer: the untyped base of all arrays takes a
32-bit integer. -/
def Operand.sought (a : Operand) (n : Int) : Int :=
  if a.type == .arrayBase then Scalar.wordValue .i32 (Scalar.lowBits 32 n) else n

/-! ## (2) Operations that seek an item -/

/-- An operation **seeks an item**: the array and the index are among its operands. -/
inductive Op.Seeks (b : ArrayId) (j : Int) : Op → List Value → Prop
  /-- A load. -/
  | load {y : Value} {rest : List Value} (hy : y.Indexes j) : Seeks b j .loadItem (y :: .array b :: rest)
  /-- The address is taken. -/
  | address {y : Value} {rest : List Value} (hy : y.Indexes j) : Seeks b j .addressItem (y :: .array b :: rest)
  /-- A store. -/
  | store {kind : Option ScalarKind} {x y : Value} {rest : List Value} (hy : y.Indexes j) :
      Seeks b j (.storeItem kind) (x :: y :: .array b :: rest)
  /-- A store by the untyped base. -/
  | base {x y : Value} {rest : List Value} (hy : y.Indexes j) :
      Seeks b j (.call Builtin.storeItem) (y :: x :: .array b :: rest)

/-- An operation **checks an index**: it goes on only with an item that the array has, and stops only because
there is none, or because the untyped base refuses the value. When it stops, the heap is as it was. -/
structure Op.Checks (o : Op) (m : Machine) (b : ArrayId) (j : Int) : Prop where
  /-- The item is there. -/
  there : ∀ m', o.execute.run m = .ok () m' → m.world.heap.HasItem b j
  /-- The item is not there, or the value is refused. -/
  refused : ∀ e m', o.execute.run m = .error e m' →
    (¬ m.world.heap.HasItem b j ∧ ∃ r, e = .fault (.indexOutOfRange r (m.world.heap.itemCount b))) ∨
      o = .call Builtin.storeItem ∧ ∃ found t, e = .fault (.invalidCast found t)
  /-- Nothing has changed. -/
  heap : ∀ e m', o.execute.run m = .error e m' → m'.world.heap = m.world.heap

namespace Exec

variable {m m' : Machine} {b : ArrayId} {j r : Int} {x y : Value} {rest : List Value} {h : Heap}

theorem run_popIndex_of (hstack : m.frame.stack = y :: rest) (hy : y.index? = some r) :
    popIndex.run m = .ok r (m.withStack rest) := by
  rw [popIndex, run_bind_ok (run_pop hstack), hy]
  rfl

theorem run_popArray_of (hstack : m.frame.stack = .array b :: rest) :
    popArray.run m = .ok b (m.withStack rest) := by
  rw [popArray, run_bind_ok (run_pop hstack)]
  rfl

theorem run_loadItem (hstack : m.frame.stack = y :: .array b :: rest) (hy : y.index? = some r) :
    (Op.execute .loadItem).run m = match m.world.heap.getItem b r with
      | .ok w => .ok () (m.withStack (w :: rest))
      | .error f => .error (.fault f) (m.withStack rest) := by
  have hget : (do push (← Host.ofExcept ((← Host.heap).getItem b r)) : Exec Unit).run (m.withStack rest) =
      (do push (← Host.ofExcept (m.world.heap.getItem b r)) : Exec Unit).run (m.withStack rest) := rfl
  rw [Op.execute, run_bind_ok (run_popIndex_of hstack hy), run_bind_ok (run_popArray_of rfl),
    Machine.withStack_withStack]
  refine hget.trans ?_
  cases m.world.heap.getItem b r <;> rfl

theorem run_addressItem_of (hstack : m.frame.stack = y :: .array b :: rest) (hy : y.index? = some r) :
    (Op.execute .addressItem).run m = match m.world.heap.getItem b r with
      | .ok _ => .ok () (m.withStack (.address (.element b r.toNat) :: rest))
      | .error f => .error (.fault f) (m.withStack rest) := by
  have hget : (do
      let _ ← Host.ofExcept ((← Host.heap).getItem b r)
      push (.address (.element b r.toNat)) : Exec Unit).run (m.withStack rest) =
        (do
          let _ ← Host.ofExcept (m.world.heap.getItem b r)
          push (.address (.element b r.toNat)) : Exec Unit).run (m.withStack rest) := rfl
  rw [Op.execute, run_bind_ok (run_popIndex_of hstack hy), run_bind_ok (run_popArray_of rfl),
    Machine.withStack_withStack]
  refine hget.trans ?_
  cases m.world.heap.getItem b r <;> rfl

/-- An item is stored through its address. -/
theorem run_storeThrough_element {i : Nat} (kind : Option ScalarKind)
    (hstack : m.frame.stack = x :: .address (.element b i) :: rest) :
    (Op.execute (.storeThrough kind)).run m = match m.world.heap.checkItem b (indexOf i) with
      | .ok _ =>
        .ok () { m.withStack rest with world.heap := m.world.heap.setItem b (indexOf i) (Value.fit kind x) }
      | .error f => .error (.fault f) (m.withStack rest) := by
  have haddress : popAddress.run (m.withStack (.address (.element b i) :: rest)) =
      .ok (.element b i) (m.withStack rest) := rfl
  rw [Op.execute, run_bind_ok (run_popFit kind hstack), run_bind_ok haddress, store, run_lift, Host.run_setItem,
    Machine.world_withStack]
  cases m.world.heap.checkItem b (indexOf i) <;> rfl

theorem run_storeItem (kind : Option ScalarKind) (hstack : m.frame.stack = x :: y :: .array b :: rest)
    (hy : y.index? = some r) : (Op.execute (.storeItem kind)).run m = match m.world.heap.checkItem b r with
      | .ok _ => .ok () { m.withStack rest with world.heap := m.world.heap.setItem b r (Value.fit kind x) }
      | .error f => .error (.fault f) (m.withStack rest) := by
  rw [Op.execute, run_bind_ok (run_popFit kind hstack), run_bind_ok (run_popIndex_of rfl hy),
    run_bind_ok (run_popArray_of rfl), run_lift, Host.run_setItem]
  simp only [Machine.withStack_withStack, Machine.world_withStack]
  cases m.world.heap.checkItem b r <;> rfl

end Exec

namespace Builtin

variable {w w' : World} {b : ArrayId} {r : Int} {x y v : Value} {element : Ty} {e : Halt}

/-- A value that is no item is refused by a cast. -/
theorem refused_of_itemFor (h : (itemFor element x).run w = .error e w') :
    ∃ found t, e = .fault (.invalidCast found t) := by
  -- a box is opened or refused, and all else is kept or refused
  have hbox : ∀ {c : Prop} [Decidable c] {z : Value} {found : String},
      (if c then pure z else Host.fail (.invalidCast found element) : Host Value).run w = .error e w' →
        ∃ found t, e = .fault (.invalidCast found t) := by
    intro c _ z found hrun
    split at hrun
    · cases hrun
    · cases hrun
      exact ⟨_, _, rfl⟩
  have hrest : ((w.heap.typeOf? x).elim (pure x) fun found =>
      if element.accepts found then pure x
      else Host.fail (.invalidCast found.path element) : Host Value).run w = .error e w' →
        ∃ found t, e = .fault (.invalidCast found t) := by
    intro hrun
    cases hf : w.heap.typeOf? x with
    | none =>
      rw [hf] at hrun
      cases hrun
    | some found =>
      rw [hf, Option.elim_some] at hrun
      exact hbox hrun
  cases hvalue : element.isValue with
  | true =>
    rw [itemFor, hvalue] at h
    cases x with
    | null => cases h
    | boxed b =>
      have h : (if (w.heap.boxCell b).type.unboxesAs element then pure (w.heap.getBox b)
          else Host.fail (.invalidCast (w.heap.boxCell b).type.path element) : Host Value).run w =
            .error e w' := h
      exact hbox h
    | _ => exact hrest h
  | false =>
    rw [itemFor, hvalue] at h
    cases x <;> exact hrest h

/-- The method of the untyped base looks at the value first, and then at the index. -/
theorem run_storeItem (hy : y.index? = some r) : (storeItem.body [.array b, x, y]).run w =
    match (itemFor (w.heap.arrayCell b).element x).run w with
      | .ok v w => match w.heap.checkItem b r with
        | .ok _ => .ok (.null, [.array b, x, y]) { w with heap := w.heap.setItem b r v }
        | .error f => .error (.fault f) w
      | .error e w => .error e w := by
  have htarget : (target (.array b) x y).run w = (do
      let v ← itemFor (w.heap.arrayCell b).element x
      pure (b, r, v) : Host _).run w := by
    rw [target, hy]
    rfl
  rw [body_storeItem, Host.run_bind, htarget, Host.run_bind]
  cases (itemFor (w.heap.arrayCell b).element x).run w with
  | error e w => rfl
  | ok v w =>
    show (do
      Host.setItem b r v
      pure (.null, [.array b, x, y]) : Host (Value × List Value)).run w = _
    rw [Host.run_bind, Host.run_setItem]
    dsimp only
    cases w.heap.checkItem b r <;> rfl

end Builtin

/-- The untyped base stores what it makes of the value. -/
theorem Exec.run_call_storeItem {m : Machine} {b : ArrayId} {r : Int} {x y : Value} {rest : List Value}
    (hstack : m.frame.stack = y :: x :: .array b :: rest) (hy : y.index? = some r) :
    (Op.execute (.call Builtin.storeItem)).run m =
      match (Builtin.itemFor (m.world.heap.arrayCell b).element x).run m.world with
      | .ok v w => match w.heap.checkItem b r with
        | .ok _ => .ok () { m.withStack rest with world := { w with heap := w.heap.setItem b r v } }
        | .error f => .error (.fault f) { m.withStack rest with world := w }
      | .error e w => .error e { m.withStack rest with world := w } := by
  have hoperands : m.frame.stack = [.array b, x, y].reverse ++ rest := hstack
  have hopen : (openReceiver Builtin.storeItem [.array b, x, y]).run (m.withStack rest) =
      .ok ([.array b, x, y], none) (m.withStack rest) := run_openReceiver_plain rfl nofun
  rw [Op.execute, run_call hoperands rfl, run_bind_ok hopen]
  dsimp only
  rw [run_body, Machine.world_withStack, Builtin.run_storeItem hy]
  cases (Builtin.itemFor (m.world.heap.arrayCell b).element x).run m.world with
  | error e w => rfl
  | ok v w =>
    dsimp only
    cases w.heap.checkItem b r <;> rfl

namespace Op

variable {o : Op} {m m₁ : Machine} {b : ArrayId} {j : Int} {e : Halt}

/-- What goes on with an item that is there checks its index. -/
theorem Checks.of_ok (hrun : o.execute.run m = .ok () m₁) (hj : m.world.heap.HasItem b j) : o.Checks m b j where
  there _ _ := hj
  refused _ _ h := by cases hrun.symm.trans h
  heap _ _ h := by cases hrun.symm.trans h

/-- So does what stops for one of the reasons. -/
theorem Checks.of_error (hrun : o.execute.run m = .error e m₁) (hheap : m₁.world.heap = m.world.heap)
    (he : (¬ m.world.heap.HasItem b j ∧ ∃ r, e = .fault (.indexOutOfRange r (m.world.heap.itemCount b))) ∨
      o = .call Builtin.storeItem ∧ ∃ found t, e = .fault (.invalidCast found t)) : o.Checks m b j where
  there _ h := by cases hrun.symm.trans h
  refused _ _ h := by
    cases hrun.symm.trans h
    exact he
  heap _ _ h := by
    cases hrun.symm.trans h
    exact hheap

/-- What seeks an item **checks its index**. -/
theorem Seeks.checks (h : o.Seeks b j m.frame.stack) (hcount : m.world.heap.itemCount b ≤ 2 ^ 63) :
    o.Checks m b j := by
  generalize hstack : m.frame.stack = stack at h
  cases h with
  | load hy =>
    obtain ⟨r, hy, hr⟩ := hy
    obtain ⟨hiff, heq⟩ := Heap.hasItem_iff hr hcount
    have hrun := Exec.run_loadItem hstack hy
    by_cases hj : m.world.heap.HasItem b j
    · obtain ⟨w, hw⟩ := Heap.getItem_of_hasItem (hiff.2 hj)
      rw [hw] at hrun
      exact .of_ok hrun hj
    · rw [Heap.getItem_of_not_hasItem (hiff.not.2 hj)] at hrun
      exact .of_error hrun rfl (.inl ⟨hj, r, rfl⟩)
  | address hy =>
    obtain ⟨r, hy, hr⟩ := hy
    obtain ⟨hiff, heq⟩ := Heap.hasItem_iff hr hcount
    have hrun := Exec.run_addressItem_of hstack hy
    by_cases hj : m.world.heap.HasItem b j
    · obtain ⟨w, hw⟩ := Heap.getItem_of_hasItem (hiff.2 hj)
      rw [hw] at hrun
      exact .of_ok hrun hj
    · rw [Heap.getItem_of_not_hasItem (hiff.not.2 hj)] at hrun
      exact .of_error hrun rfl (.inl ⟨hj, r, rfl⟩)
  | @store kind x y rest hy =>
    obtain ⟨r, hy, hr⟩ := hy
    obtain ⟨hiff, heq⟩ := Heap.hasItem_iff hr hcount
    have hrun := Exec.run_storeItem kind hstack hy
    by_cases hj : m.world.heap.HasItem b j
    · rw [Heap.checkItem_of_hasItem (hiff.2 hj)] at hrun
      exact .of_ok hrun hj
    · rw [Heap.checkItem_of_not_hasItem (hiff.not.2 hj)] at hrun
      exact .of_error hrun rfl (.inl ⟨hj, r, rfl⟩)
  | @base x y rest hy =>
    obtain ⟨r, hy, hr⟩ := hy
    obtain ⟨hiff, heq⟩ := Heap.hasItem_iff hr hcount
    have hrun := Exec.run_call_storeItem hstack hy
    -- the value is looked at before the index
    cases hitem : (Builtin.itemFor (m.world.heap.arrayCell b).element x).run m.world with
    | error e w =>
      rw [hitem] at hrun
      obtain rfl := (Builtin.quiet_itemFor _ x).error hitem
      exact .of_error hrun rfl (.inr ⟨rfl, Builtin.refused_of_itemFor hitem⟩)
    | ok v w =>
      rw [hitem] at hrun
      obtain rfl := (Builtin.quiet_itemFor _ x).ok hitem
      dsimp only at hrun
      by_cases hj : m.world.heap.HasItem b j
      · rw [Heap.checkItem_of_hasItem (hiff.2 hj)] at hrun
        exact .of_ok hrun hj
      · rw [Heap.checkItem_of_not_hasItem (hiff.not.2 hj)] at hrun
        exact .of_error hrun rfl (.inl ⟨hj, r, rfl⟩)

end Op

/-! ## (3) What is recorded -/

/-- The operations that **load** an item of an array operand. -/
inductive Operand.LoadedBy (a i : Operand) : List Op → Prop
  /-- An item that is no struct. -/
  | item {t : Ty} (ht : a.type.itemType = .ok t) : LoadedBy a i (a.loadOps ++ i.loadOps ++ [.loadItem])
  /-- A struct. -/
  | place {t : Ty} (ht : a.type.itemType = .ok t) :
      LoadedBy a i (a.loadOps ++ i.loadOps ++ [.addressItem, .loadThrough])

/-- An operation that **seeks an item** among those of a load or of a store, and the ones before it. -/
inductive Operand.SoughtBy (a i : Operand) : Option Operand → List Op → Op → Prop
  /-- It comes behind the loads of the array and of the index. -/
  | pair {t : Ty} {value : Option Operand} {o : Op} (ht : a.type.itemType = .ok t)
      (ho : o = .loadItem ∨ o = .addressItem) : SoughtBy a i value (a.loadOps ++ i.loadOps) o
  /-- It stores what is loaded. -/
  | store {v : Operand} {os : List Op} {last : Op} (h : a.StoredBy i v os last)
      (hlast : ∀ kind, last ≠ .storeThrough kind) : SoughtBy a i (some v) os last

/-- One operation among reports and dumps stands between those before it and those behind it. -/
theorem Op.Among.split {sink : Sink} {k n : Nat} {o : Op} {before behind : List Op} {is : List (Instruction Nat)}
    (h : Among sink k n (before ++ o :: behind) is) : ∃ is₁ is₂, is = is₁ ++ .op o :: is₂ ∧
      Among sink k n before is₁ := by
  generalize hos : before ++ o :: behind = os at h
  induction h generalizing before with
  | nil => simp at hos
  | @op n o' os is h ih =>
    cases before with
    | nil =>
      cases hos
      exact ⟨[], is, rfl, .nil n⟩
    | cons x before =>
      cases hos
      obtain ⟨is₁, is₂, rfl, hbefore⟩ := ih rfl
      exact ⟨.op o' :: is₁, is₂, rfl, .op o' hbefore⟩
  | report text _ ih =>
    obtain ⟨is₁, is₂, rfl, hbefore⟩ := ih hos
    exact ⟨_, is₂, (List.append_assoc _ _ _).symm, .report text hbefore⟩
  | dump t hj _ ih =>
    obtain ⟨is₁, is₂, rfl, hbefore⟩ := ih hos
    exact ⟨_, is₂, (List.append_assoc _ _ _).symm, .dump t hj hbefore⟩

namespace Emit

variable {a i v : Operand}

/-- The last operation is recorded behind the others. -/
theorem RecordsThen.records {e : Emit Unit} {P : List Op → Prop} {last : Op} (h : e.RecordsThen P last) :
    e.Records fun _ os => ∃ first, P first ∧ os = first ++ [last] := by
  intro level s s' u hs hrun
  obtain ⟨os, is, hos, hwent, hamong⟩ := h level s s' hs hrun
  exact ⟨_, _, ⟨os, hos, rfl⟩, hwent, hamong.append (.one _ _ _ last)⟩

theorem records_loadItem (t : Ty) : (loadItem t).Records fun _ os => os = [.loadItem] := by
  refine Records.bind (P := fun _ os => os = []) (records_ofExcept fun _ _ => rfl) fun text os hos => ?_
  rw [hos]
  exact (records_traced text .loadItem).then fun _ => records_probe t

/-- A load from an item is recorded. -/
theorem records_loadItemOf (a i : Operand) : (loadItemOf a i).Records fun _ os => a.LoadedBy i os := by
  unfold loadItemOf itemTypeOf
  cases ht : a.type.itemType with
  | error e => exact records_refuse _
  | ok t =>
    dsimp only
    rw [pure_bind]
    refine (records_load a).bind fun _ x₁ hx₁ => (records_load i).bind fun _ x₂ hx₂ => ?_
    rw [hx₁, hx₂]
    split
    · refine ((records_loadItemAddress t).then fun _ => records_traced _ .loadThrough).mono fun _ x hx => ?_
      rw [hx, ← List.append_assoc]
      exact .place ht
    · refine (records_loadItem t).mono fun _ x hx => ?_
      rw [hx, ← List.append_assoc]
      exact .item ht

/-- Loads from an item of an array operand, and stores into it. -/
def indexItem (a i : Operand) : Option Operand → Emit Unit
  | none => loadItemOf a i
  | some v => storeItemOf a i v

/-- Among what is recorded is an operation that **seeks the item**. -/
theorem records_indexItem (a i : Operand) (value : Option Operand) : (indexItem a i value).Records fun _ os =>
    ∃ before o behind, os = before ++ o :: behind ∧ a.SoughtBy i value before o := by
  cases value with
  | none =>
    refine (records_loadItemOf a i).mono fun _ os hos => ?_
    cases hos with
    | item ht => exact ⟨_, _, [], rfl, .pair ht (.inl rfl)⟩
    | place ht => exact ⟨_, _, [.loadThrough], rfl, .pair ht (.inr rfl)⟩
  | some v =>
    obtain ⟨last, hrecords⟩ := records_storeItemOf a i v
    refine hrecords.records.mono fun _ os hos => ?_
    obtain ⟨first, hstored, rfl⟩ := hos
    -- the address of a struct is taken before the value is loaded
    cases hstored with
    | @item t c ht hstruct hc hload => exact ⟨_, _, [], rfl, .store (.item ht hstruct hc hload) nofun⟩
    | @place t c ht hstruct hc hload =>
      refine ⟨a.loadOps ++ i.loadOps, .addressItem, v.loadOps ++ c.ops ++ [.storeThrough t.storedAs?], ?_,
        .pair ht (.inr rfl)⟩
      simp only [List.append_assoc, List.cons_append, List.nil_append]
    | base ha hrow hload => exact ⟨_, _, [], rfl, .store (.base ha hrow hload) nofun⟩

end Emit

/-! ## (4) What is played -/

/-- An operand of the type of 32-bit integers has one for its value. -/
theorem Operand.Sound.kind_of_i32 {i : Operand} {m : Machine} {K j : WordKind} {w : BitVec j.bits}
    (hsound : i.Sound m) (htype : i.type = .primitive (.word K)) (hw : m.operand? i = some (.scalar (.word j w)))
    (hsame : Ty.primitive (.word K) == .primitive .i32) : j = .i32 := by
  have hK : K = .i32 := by
    have hpath := (Ty.beq_iff.1 hsame).2
    cases K <;> first | rfl | exact absurd hpath (by decide)
  subst hK
  have hslot : (∃ v, m.operand? i = some v ∧ m.world.heap.Conforms v i.type) → j = .i32 := by
    rintro ⟨v, hv, hconforms⟩
    cases hw.symm.trans hv
    rw [htype, Heap.conforms_scalar_iff] at hconforms
    cases hconforms
    rfl
  cases i with
  | argument a => exact hslot hsound
  | «variable» l => exact hslot hsound
  | constant c =>
    cases c with
    | scalar x =>
      cases x with
      | word k v =>
        cases htype
        cases hw
        rfl
      | bool x => cases htype
      | float k v => cases htype
    | char x => cases htype
    | enumeration t raw =>
      -- no constant of an enumeration is of another type
      cases htype
      cases hw
    | _ => cases htype

namespace Op.Played

variable {k : Nat} {m m' : Machine} {i v : Operand} {n : Int}

/-- An index that is handed on as a 32-bit integer is **converted** to one. -/
theorem narrowed {first : List Op} (hpassed : i.Passed (.primitive .i32) first) (hsound : i.Sound m)
    (hi : i.Below k) (hn : m.integer? i = some n) (h : Played k first m (.ok () m')) :
    m.Aside k m' ∧ m'.frame.stack = .scalar (.wrap .i32 n) :: m.frame.stack := by
  obtain ⟨K, j, w, htype, hw, rfl⟩ := Machine.word_of_integer hn
  cases hpassed with
  | null hnull =>
    cases i with
    | constant c =>
      cases c with
      | null => cases htype
      | _ => cases hnull
    | _ => cases hnull
  | @converted c hnull hc =>
    obtain ⟨m₁, hload, hconvert⟩ := h.split_ok
    obtain ⟨haside, hstack⟩ := hload.load hw hi
    -- a 32-bit integer is kept, and any other is converted
    have hkept : (Ty.primitive (.word K) == .primitive .i32) = true → j = .i32 := by
      intro hsame
      exact hsound.kind_of_i32 htype hw hsame
    rw [htype, Conversion.between] at hc
    split at hc
    · rename_i hsame
      cases hc
      obtain rfl := hkept hsame
      cases hconvert with
      | done hm' =>
        refine ⟨haside.trans hm'.aside, ?_⟩
        rw [hm'.stack, hstack]
        exact congrArg (fun x => Value.scalar x :: m.frame.stack) (Scalar.wrap_wordValue .i32 w).symm
    · cases hc
      obtain ⟨m₂, m₃, hm₂, hrun, hm'⟩ := hconvert.one
      rw [Exec.run_convert _ (hm₂.stack.trans hstack)] at hrun
      cases hrun
      refine ⟨haside.trans (hm₂.aside.trans ((Machine.Aside.withStack k _ _).trans hm'.aside)), ?_⟩
      rw [hm'.stack, Machine.stack_withStack, Scalar.convert_eq]
      rfl

/-- The untyped base is handed the value and the **narrowed index**. -/
theorem row {row : List Op} (hrow : Operand.PassedInRow [v, i] Builtin.storeItem.params row)
    (hload : ∀ o ∈ [v, i], o.Loadable) (hsound : ∀ o ∈ [v, i], o.Sound m) (hk : ∀ o ∈ [v, i], o.Below k)
    (hn : m.integer? i = some n) (h : Played k row m (.ok () m')) :
    m.Aside k m' ∧ ∃ x, m'.frame.stack = .scalar (.wrap .i32 n) :: x :: m.frame.stack ∧
      m'.world.heap.Conforms x .object := by
  obtain ⟨hsv, hsi⟩ : v.Sound m ∧ i.Sound m := by simpa using hsound
  obtain ⟨hkv, hki⟩ : v.Below k ∧ i.Below k := by simpa using hk
  have hlv := hload v List.mem_cons_self
  obtain ⟨u, hu⟩ := hsv.exists_operand
  cases hrow with
  | @cons _ _ _ _ first _ hv hrest =>
    cases hrest with
    | @cons _ _ _ _ second _ hi hnil =>
      cases hnil
      rw [List.append_nil] at h
      obtain ⟨m₁, hfirst, hsecond⟩ := h.split_ok
      obtain ⟨haside, x, hstack, hx⟩ := hfirst.passed hv hsv hlv hkv hu
      have hn₁ : m₁.integer? i = some n := by rwa [Machine.integer?, haside.operand hki]
      obtain ⟨haside', hstack'⟩ := hsecond.narrowed hi (hsi.aside hki haside) hki hn₁
      refine ⟨haside.trans haside', x, by rw [hstack', hstack], ?_⟩
      -- the method takes objects, and what is passed to it as one is one
      have hobject := (hx _ (.refl m₁.world.heap)).2 (hsv.not_mispassed_object hlv hu)
      exact hobject.adds haside'.heap

end Op.Played

/-- The last operation of a store has **what is stored** among its operands, and where it is stored. -/
inductive Operand.Puts (a v : Operand) (m m₁ : Machine) (b : ArrayId) (j : Int) : Op → Prop
  /-- An item that is no struct. -/
  | item {kind : Option ScalarKind} {x y : Value} {rest : List Value}
      (hstack : m₁.frame.stack = x :: y :: .array b :: rest) (hy : y.Indexes j)
      (hw : a.Stores v m m₁.world.heap (m₁.world.heap.arrayCell b).element (Value.fit kind x)) :
      Puts a v m m₁ b j (.storeItem kind)
  /-- A struct, through the address of an item that is there. -/
  | place {kind : Option ScalarKind} {x : Value} {rest : List Value}
      (hstack : m₁.frame.stack = x :: .address (.element b j.toNat) :: rest) (hj : m₁.world.heap.HasItem b j)
      (hw : a.Stores v m m₁.world.heap (m₁.world.heap.arrayCell b).element (Value.fit kind x)) :
      Puts a v m m₁ b j (.storeThrough kind)
  /-- By the untyped base. -/
  | base {x y : Value} {rest : List Value} (hstack : m₁.frame.stack = y :: x :: .array b :: rest)
      (hy : y.Indexes j) (ha : a.type == .arrayBase) (hx : m₁.world.heap.Conforms x .object) :
      Puts a v m m₁ b j (.call Builtin.storeItem)

namespace Operand

variable {a i v : Operand} {m m₁ m' : Machine} {b : ArrayId} {j n : Int} {k : Nat} {os : List Op} {last : Op}

/-- An array operand that is no untyped base seeks the integer itself. -/
theorem sought_of_itemType {t : Ty} (ht : a.type.itemType = .ok t) (n : Int) : a.sought n = n := by
  refine if_neg fun hbase => ?_
  cases htype : a.type with
  | array e =>
    rw [htype] at hbase
    cases (Ty.beq_iff.1 hbase).1
  | _ =>
    rw [htype] at ht
    cases ht

/-- The operations before the last one of a store leave it **all that it needs**. -/
theorem StoredBy.puts (hstored : a.StoredBy i v os last) (hsound : ∀ o ∈ [a, i, v], o.Sound m)
    (hk : ∀ o ∈ [a, i, v], o.Below k) (ha : m.operand? a = some (.array b)) (hn : m.integer? i = some n)
    (hcount : m.world.heap.itemCount b ≤ 2 ^ 63) (h : Op.Played k os m (.ok () m₁)) :
    m.Aside k m₁ ∧ a.Puts v m m₁ b (a.sought n) last := by
  obtain ⟨hsa, hsi, hsv⟩ : a.Sound m ∧ i.Sound m ∧ v.Sound m := by simpa using hsound
  obtain ⟨hka, hki, hkv⟩ : a.Below k ∧ i.Below k ∧ v.Below k := by simpa using hk
  obtain ⟨u, hu⟩ := hsv.exists_operand
  obtain ⟨K, l, w, -, hi, hnw⟩ := Machine.word_of_integer hn
  have hy : (Value.scalar (.word l w)).Indexes n := hnw ▸ Value.indexes_word l w
  cases hstored with
  | @item t c ht hstruct hc hload =>
    obtain ⟨m₂, haside, hstack, hrest⟩ := h.place ha hi hka hki
    obtain ⟨hlast, x, hx, hconforms⟩ :=
      hrest.converted hc (hsv.aside hkv haside) hload hkv ((haside.operand hkv).trans hu)
    rw [hstack] at hx
    rw [sought_of_itemType ht]
    exact ⟨haside.trans hlast, .item hx hy (.typed ht hc hu rfl (hconforms _ (.refl _)))⟩
  | @place t c ht hstruct hc hload =>
    obtain ⟨m₂, haside, hstack, hrest⟩ := h.place ha hi hka hki
    obtain ⟨m₃, haddress, hrest⟩ := hrest.split_ok
    obtain ⟨m₄, m₅, hm₄, hrun, hm₅⟩ := haddress.one
    -- the address is that of an item that is there
    have hcount₄ : m₄.world.heap.itemCount b ≤ 2 ^ 63 := by
      rwa [(haside.trans hm₄.aside).heap.itemCount]
    have hstack₄ := hm₄.stack.trans hstack
    have hseeks : Op.addressItem.Seeks b n m₄.frame.stack := by
      rw [hstack₄]
      exact .address hy
    have hj := (hseeks.checks hcount₄).there _ hrun
    obtain ⟨r, hr, hnr⟩ := hy
    obtain rfl := (Heap.hasItem_iff hnr hcount₄).2 hj
    obtain ⟨z, hz⟩ := Heap.getItem_of_hasItem hj
    rw [Exec.run_addressItem_of hstack₄ hr, hz] at hrun
    cases hrun
    have haside := haside.trans (hm₄.aside.trans ((Machine.Aside.withStack k _ _).trans hm₅.aside))
    obtain ⟨hlast, x, hx, hconforms⟩ :=
      hrest.converted hc (hsv.aside hkv haside) hload hkv ((haside.operand hkv).trans hu)
    rw [hm₅.stack, Machine.stack_withStack] at hx
    rw [sought_of_itemType ht]
    refine ⟨haside.trans hlast, .place hx ?_ (.typed ht hc hu rfl (hconforms _ (.refl _)))⟩
    exact hj.adds (((Machine.Aside.withStack k m₄ _).trans hm₅.aside).trans hlast).heap
  | @base row hbase hrow hload =>
    obtain ⟨m₂, harray, hparams⟩ := h.split_ok
    obtain ⟨haside, hstack⟩ := harray.load ha hka
    have hsound₂ : ∀ o ∈ [v, i], o.Sound m₂ := by
      simpa using And.intro (hsv.aside hkv haside) (hsi.aside hki haside)
    have hk₂ : ∀ o ∈ [v, i], o.Below k := by simpa using And.intro hkv hki
    have hn₂ : m₂.integer? i = some n := by rwa [Machine.integer?, haside.operand hki]
    obtain ⟨haside', x, hstack', hx⟩ := hparams.row hrow hload hsound₂ hk₂ hn₂
    rw [hstack] at hstack'
    rw [sought, if_pos hbase]
    exact ⟨haside.trans haside', .base hstack' (Value.indexes_word .i32 _) hbase hx⟩

/-- When the last operation of a store is done, **one item is set**, and that was there. -/
theorem Puts.done (h : a.Puts v m m₁ b j last) (hcount : m₁.world.heap.itemCount b ≤ 2 ^ 63)
    (hrun : last.execute.run m₁ = .ok () m') : m₁.world.heap.HasItem b j ∧
      ∃ w, a.Stores v m m₁.world.heap (m₁.world.heap.arrayCell b).element w ∧
        m'.world.heap = m₁.world.heap.setItem b j w := by
  cases h with
  | @item kind x y rest hstack hy hw =>
    have hseeks : (Op.storeItem kind).Seeks b j m₁.frame.stack := by
      rw [hstack]
      exact .store hy
    have hj := (hseeks.checks hcount).there _ hrun
    obtain ⟨r, hr, hjr⟩ := hy
    obtain rfl := (Heap.hasItem_iff hjr hcount).2 hj
    rw [Exec.run_storeItem kind hstack hr, Heap.checkItem_of_hasItem hj] at hrun
    cases hrun
    exact ⟨hj, _, hw, rfl⟩
  | @place kind x rest hstack hj hw =>
    rw [Exec.run_storeThrough_element kind hstack, hj.indexOf_toNat hcount, Heap.checkItem_of_hasItem hj] at hrun
    cases hrun
    exact ⟨hj, _, hw, rfl⟩
  | @base x y rest hstack hy ha hx =>
    have hseeks : (Op.call Builtin.storeItem).Seeks b j m₁.frame.stack := by
      rw [hstack]
      exact .base hy
    have hj := (hseeks.checks hcount).there _ hrun
    obtain ⟨r, hr, hjr⟩ := hy
    obtain rfl := (Heap.hasItem_iff hjr hcount).2 hj
    rw [Exec.run_call_storeItem hstack hr] at hrun
    cases hitem : (Builtin.itemFor (m₁.world.heap.arrayCell b).element x).run m₁.world with
    | error e w =>
      rw [hitem] at hrun
      cases hrun
    | ok w world =>
      obtain rfl := (Builtin.quiet_itemFor _ x).ok hitem
      rw [hitem] at hrun
      dsimp only at hrun
      rw [Heap.checkItem_of_hasItem hj] at hrun
      cases hrun
      exact ⟨hj, w, .base ha hx ((Builtin.filed_of_itemFor hitem).conforms_iff hx), rfl⟩

/-- What a load or a store leaves behind: the item on top of the stack, or an array with **one item** set, and all
arrays are otherwise as they were. -/
def Indexed (a : Operand) (m : Machine) (b : ArrayId) (j : Int) : Option Operand → Machine → Prop
  | none, m' => ∃ w, m.world.heap.getItem b j = .ok w ∧ m'.frame.stack = w :: m.frame.stack ∧
      m.world.heap.Adds m'.world.heap
  | some v, m' => ∃ h w, m.world.heap.Adds h ∧ a.Stores v m h (h.arrayCell b).element w ∧
      m'.world.heap = h.setItem b j w

/-- A load that is done leaves **the item**, and that was there. -/
theorem LoadedBy.done (hloaded : a.LoadedBy i os) (hka : a.Below k) (hki : i.Below k)
    (ha : m.operand? a = some (.array b)) (hn : m.integer? i = some n) (hcount : m.world.heap.itemCount b ≤ 2 ^ 63)
    (h : Op.Played k os m (.ok () m')) :
    m.world.heap.HasItem b (a.sought n) ∧ a.Indexed m b (a.sought n) none m' := by
  obtain ⟨K, l, w, -, hi, hnw⟩ := Machine.word_of_integer hn
  have hy : (Value.scalar (.word l w)).Indexes n := hnw ▸ Value.indexes_word l w
  -- the operation that seeks the item finds it
  have hfound : ∀ {o : Op} {m₁ m₂ : Machine}, o = .loadItem ∨ o = .addressItem → m.Aside k m₁ →
      m₁.frame.stack = .scalar (.word l w) :: .array b :: m.frame.stack → o.execute.run m₁ = .ok () m₂ →
        m.world.heap.HasItem b n ∧ (Value.scalar (.word l w)).index? = some n ∧
          ∃ z, m.world.heap.getItem b n = .ok z ∧ m₁.world.heap.getItem b n = .ok z := by
    intro o m₁ m₂ ho haside hstack hrun
    have hcount₁ : m₁.world.heap.itemCount b ≤ 2 ^ 63 := by rwa [haside.heap.itemCount]
    have hseeks : o.Seeks b n m₁.frame.stack := by
      rw [hstack]
      rcases ho with rfl | rfl
      · exact .load hy
      · exact .address hy
    have hj₁ := (hseeks.checks hcount₁).there _ hrun
    have hj : m.world.heap.HasItem b n := by rwa [Heap.HasItem, haside.heap.itemCount] at hj₁
    obtain ⟨r, hr, hnr⟩ := hy
    obtain rfl := (Heap.hasItem_iff hnr hcount).2 hj
    obtain ⟨z, hz⟩ := Heap.getItem_of_hasItem hj
    refine ⟨hj, hr, z, hz, ?_⟩
    exact (haside.heap.getItem b _).trans hz
  cases hloaded with
  | item ht =>
    obtain ⟨m₁, hpair, hload⟩ := h.split_ok
    obtain ⟨haside, hstack⟩ := hpair.pair ha hi hka hki
    obtain ⟨m₂, m₃, hm₂, hrun, hm₃⟩ := hload.one
    have hstack₂ := hm₂.stack.trans hstack
    obtain ⟨hj, hr, z, hz, hz₂⟩ := hfound (.inl rfl) (haside.trans hm₂.aside) hstack₂ hrun
    rw [Exec.run_loadItem hstack₂ hr, hz₂] at hrun
    cases hrun
    rw [sought_of_itemType ht]
    have hbehind := (Machine.Aside.withStack k _ _).trans hm₃.aside
    exact ⟨hj, z, hz, hm₃.stack, ((haside.trans hm₂.aside).trans hbehind).heap⟩
  | place ht =>
    obtain ⟨m₁, hpair, hload⟩ := h.split_ok
    obtain ⟨haside, hstack⟩ := hpair.pair ha hi hka hki
    obtain ⟨m₂, haddress, hread⟩ : ∃ m₂, Op.Played k [.addressItem] m₁ (.ok () m₂) ∧
        Op.Played k [.loadThrough] m₂ (.ok () m') := Op.Played.split_ok hload
    obtain ⟨m₃, m₄, hm₃, hrun, hm₄⟩ := haddress.one
    obtain ⟨m₅, m₆, hm₅, hrun', hm₆⟩ := hread.one
    have hstack₃ := hm₃.stack.trans hstack
    obtain ⟨hj, hr, z, hz, hz₃⟩ := hfound (.inr rfl) (haside.trans hm₃.aside) hstack₃ hrun
    rw [Exec.run_addressItem_of hstack₃ hr, hz₃] at hrun
    cases hrun
    have hbetween := hm₄.trans hm₅
    have haside₅ := (haside.trans hm₃.aside).trans ((Machine.Aside.withStack k _ _).trans hbetween.aside)
    -- the struct is read through its address
    have hholds : m₅.Holds (.element b n.toNat) z := by
      refine Machine.holds_item (hj.adds haside₅.heap) ?_ ((haside₅.heap.getItem b n).trans hz)
      rwa [haside₅.heap.itemCount]
    rw [Exec.run_loadThrough (hbetween.stack.trans rfl) hholds] at hrun'
    cases hrun'
    rw [sought_of_itemType ht]
    exact ⟨hj, z, hz, hm₆.stack, (haside₅.trans ((Machine.Aside.withStack k _ _).trans hm₆.aside)).heap⟩

/-- A load that stops leaves all arrays as they were. -/
theorem LoadedBy.chain (hloaded : a.LoadedBy i os) (k : Nat) : ∃ c, Op.Chain k 0 os c := by
  have hpair : Op.Chain k 0 (a.loadOps ++ i.loadOps) 2 := (a.chain_loadOps k).append ((i.chain_loadOps k).under 1)
  cases hloaded with
  | item ht => exact ⟨1, hpair.append (.cons (Exec.acts_loadItem k) (.nil 1))⟩
  | place ht => exact ⟨1, hpair.append (.cons (Exec.acts_addressItem k) (.cons (Exec.acts_loadThrough k) (.nil 1)))⟩

/-- Only the untyped base seeks an item by its method. -/
theorem SoughtBy.base {value : Option Operand} {o : Op} (hsought : a.SoughtBy i value os o)
    (ho : o = .call Builtin.storeItem) : a.type == .arrayBase := by
  subst ho
  cases hsought with
  | pair ht ho => cases ho <;> contradiction
  | store hstored hlast =>
    cases hstored with
    | base hbase _ _ => exact hbase

/-- The operation that seeks an item **checks its index** wherever a run gets to it. -/
theorem SoughtBy.checks {value : Option Operand} {o : Op} (hsought : a.SoughtBy i value os o)
    (hsound : ∀ x ∈ a :: i :: value.toList, x.Sound m) (hk : ∀ x ∈ a :: i :: value.toList, x.Below k)
    (ha : m.operand? a = some (.array b)) (hn : m.integer? i = some n) (hcount : m.world.heap.itemCount b ≤ 2 ^ 63)
    (h : Op.Played k os m (.ok () m₁)) : o.Checks m₁ b (a.sought n) := by
  obtain ⟨K, l, w, -, hi, hnw⟩ := Machine.word_of_integer hn
  have hy : (Value.scalar (.word l w)).Indexes n := hnw ▸ Value.indexes_word l w
  have hcount₁ : m.Aside k m₁ → m₁.world.heap.itemCount b ≤ 2 ^ 63 := fun haside => by
    rwa [haside.heap.itemCount]
  cases hsought with
  | @pair t _ _ ht ho =>
    obtain ⟨hka, hrest⟩ := List.forall_mem_cons.1 hk
    obtain ⟨haside, hstack⟩ := h.pair ha hi hka (hrest i List.mem_cons_self)
    have hseeks : o.Seeks b n m₁.frame.stack := by
      rw [hstack]
      rcases ho with rfl | rfl
      · exact .load hy
      · exact .address hy
    rw [sought_of_itemType ht]
    exact hseeks.checks (hcount₁ haside)
  | @store v _ _ hstored hlast =>
    obtain ⟨haside, hputs⟩ := hstored.puts hsound hk ha hn hcount h
    refine Op.Seeks.checks ?_ (hcount₁ haside)
    cases hputs with
    | item hstack hy hw =>
      rw [hstack]
      exact .store hy
    | place => exact absurd rfl (hlast _)
    | base hstack hy _ hx =>
      rw [hstack]
      exact .base hy

end Operand

end Stackwright
