import Stackwright.Proofs.Emission.Parameters
import Stackwright.Proofs.Value.Items

/-! # Stores into arrays

What the operations that store into an item of an array come to, at every level. A store that stops leaves
all arrays as they were, and one that is done sets one item. What it sets is converted to the element type
that the code knows and made to fit it; only the untyped base of all arrays looks at the element type of
the array itself.

* **`Operand.StoredBy a i v os last`** — the operations that store into an item.
* **`Op.Played.stores`** — what they come to. -/

namespace Stackwright

/-! ## (1) What is recorded -/

/-- The operations that **store** an operand into an item of an array, the last of them apart. -/
inductive Operand.StoredBy (a i v : Operand) : List Op → Op → Prop
  /-- Into an array whose items are no structs. -/
  | item {t : Ty} {c : Conversion} (ht : a.type.itemType = .ok t) (hstruct : t.isStruct = false)
      (hc : Conversion.between v.type t false = .ok c) (hload : v.Loadable) :
      StoredBy a i v (a.loadOps ++ (i.loadOps ++ (v.loadOps ++ c.ops))) (.storeItem t.storedAs?)
  /-- Into an array of structs. -/
  | place {t : Ty} {c : Conversion} (ht : a.type.itemType = .ok t) (hstruct : t.isStruct)
      (hc : Conversion.between v.type t false = .ok c) (hload : v.Loadable) :
      StoredBy a i v (a.loadOps ++ (i.loadOps ++ ([.addressItem] ++ (v.loadOps ++ c.ops))))
        (.storeThrough t.storedAs?)
  /-- By the untyped base. -/
  | base {row : List Op} (ha : a.type == .arrayBase) (hrow : PassedInRow [v, i] Builtin.storeItem.params row)
      (hload : ∀ o ∈ [v, i], o.Loadable) : StoredBy a i v (a.loadOps ++ row) (.call Builtin.storeItem)

namespace Emit

variable {a i v : Operand}

/-- The load of an operand that can be loaded. -/
theorem records_loadable (o : Operand) : (load o).Records fun _ os => os = o.loadOps ∧ o.Loadable :=
  (records_load o).and (loadable_load o)

theorem records_loadItemAddress (t : Ty) : (loadItemAddress t).Records fun _ os => os = [.addressItem] :=
  (records_traced _ _).then fun _ => records_probe t

theorem recordsThen_storeItem (t : Ty) :
    (storeItem t).RecordsThen (fun os => os = []) (.storeItem t.storedAs?) := by
  refine Records.bindThen (P := fun _ os => os = []) (records_ofExcept fun _ _ => rfl) fun text x₁ hx₁ =>
    (records_note text).bindThen fun _ x₂ hx₂ => (records_probe t).bindThen fun _ x₃ hx₃ => ?_
  refine (recordsThen_op _).mono fun x hx => ?_
  rw [hx₁, hx₂, hx₃, hx]
  rfl

/-- A store into an item is recorded. -/
theorem records_storeItemOf (a i v : Operand) :
    ∃ last, (storeItemOf a i v).RecordsThen (fun os => a.StoredBy i v os last) last := by
  unfold storeItemOf
  -- what is only known as an array is handed to a method; the others have an item type
  split
  · rename_i ha
    refine ⟨_, ((records_callWith (some a) Builtin.storeItem [v, i]).and (loadable_callWith _ _ _)).mono ?_⟩
    rintro x ⟨⟨first, rest, rfl, hfirst, hrest⟩, hload⟩
    cases hfirst with
    | none hnone => simp [Builtin.storeItem] at hnone
    | some _ hc =>
      cases (Conversion.between_of_beq ha).symm.trans hc
      have hreference : a.type.isReference := by
        rw [Ty.isReference, Ty.isValue, (Ty.beq_iff.1 ha).1]
        rfl
      rw [Operand.addressOps_of_reference hreference]
      have hops : a.loadOps ++ Conversion.identity.ops = a.loadOps := List.append_nil _
      rw [hops]
      exact .base ha hrest hload
  · unfold storeTypedItem itemTypeOf
    cases ht : a.type.itemType with
    | error e => exact ⟨.pop, recordsThen_refuse _ _⟩
    | ok t =>
      dsimp only
      cases hstruct : t.isStruct with
      | false =>
        refine ⟨.storeItem t.storedAs?, ?_⟩
        rw [pure_bind]
        refine (records_load a).bindThen fun _ x₁ hx₁ => (records_load i).bindThen fun _ x₂ hx₂ => ?_
        rw [hstruct]
        refine (records_loadable v).bindThen fun _ x₃ hx₃ => (records_convert _ _ _).bindThen fun _ x₄ hx₄ => ?_
        refine (recordsThen_storeItem t).mono fun x hx => ?_
        obtain ⟨c, hc, rfl⟩ := hx₄
        rw [hx₁, hx₂, hx₃.1, hx, List.append_nil]
        exact .item ht hstruct hc hx₃.2
      | true =>
        refine ⟨.storeThrough t.storedAs?, ?_⟩
        rw [pure_bind]
        refine (records_load a).bindThen fun _ x₁ hx₁ => (records_load i).bindThen fun _ x₂ hx₂ => ?_
        rw [hstruct]
        refine (records_loadItemAddress t).bindThen fun _ x₃ hx₃ => (records_loadable v).bindThen fun _ x₄ hx₄ =>
          (records_convert _ _ _).bindThen fun _ x₅ hx₅ => ?_
        refine (recordsThen_traced _ _).mono fun x hx => ?_
        obtain ⟨c, hc, rfl⟩ := hx₅
        rw [hx₁, hx₂, hx₃, hx₄.1, hx, List.append_nil]
        exact .place ht hstruct hc hx₄.2

end Emit

/-! ## (2) What the last operation comes to -/

/-- An operation on an array **sets one item** of it to a value that satisfies `W`, or it stops and sets
none. -/
inductive Machine.Sets (m : Machine) (array : Value) (W : ArrayId → Value → Prop) :
    EStateM.Result Halt Machine Unit → Prop
  /-- One item is set. -/
  | item {a : ArrayId} {i : Int} {v : Value} {m' : Machine} (harray : array = .array a) (hv : W a v)
      (hcheck : m.world.heap.checkItem a i = .ok ()) (hheap : m'.world.heap = m.world.heap.setItem a i v) :
      Sets m array W (.ok () m')
  /-- No item is set. -/
  | none {e : Halt} {m' : Machine} (hheap : m'.world.heap = m.world.heap) : Sets m array W (.error e m')

/-- The stack has no part in it. -/
theorem Machine.Sets.of_withStack {m : Machine} {stack : List Value} {array : Value}
    {W : ArrayId → Value → Prop} {r : EStateM.Result Halt Machine Unit}
    (h : (m.withStack stack).Sets array W r) : m.Sets array W r := by
  cases h with
  | item harray hv hcheck hheap => exact .item harray hv hcheck hheap
  | none hheap => exact .none hheap

theorem Machine.Sets.imp {m : Machine} {array : Value} {W W' : ArrayId → Value → Prop}
    {r : EStateM.Result Halt Machine Unit} (h : m.Sets array W r) (hw : ∀ a v, W a v → W' a v) :
    m.Sets array W' r := by
  cases h with
  | item harray hv hcheck hheap => exact .item harray (hw _ _ hv) hcheck hheap
  | none hheap => exact .none hheap

namespace Exec

variable {m : Machine} {x y z : Value} {rest : List Value}

theorem run_popFit (kind : Option ScalarKind) (hstack : m.frame.stack = x :: rest) :
    (popFit kind).run m = .ok (Value.fit kind x) (m.withStack rest) := by
  rw [popFit, run_bind_ok (run_pop hstack)]
  rfl

/-- An index is popped, or the operand is none. -/
theorem run_popIndex (hstack : m.frame.stack = y :: rest) :
    (∃ i, popIndex.run m = .ok i (m.withStack rest)) ∨ ∃ e, popIndex.run m = .error e (m.withStack rest) := by
  rw [popIndex, run_bind_ok (run_pop hstack)]
  cases y.index? with
  | none => exact .inr ⟨_, rfl⟩
  | some i => exact .inl ⟨i, rfl⟩

/-- An array is popped, or the operand is none. -/
theorem run_popArray (hstack : m.frame.stack = z :: rest) :
    (∃ a, z = .array a ∧ popArray.run m = .ok a (m.withStack rest)) ∨
      ∃ e, popArray.run m = .error e (m.withStack rest) := by
  rw [popArray, run_bind_ok (run_pop hstack)]
  cases z with
  | array a => exact .inl ⟨a, rfl, rfl⟩
  | _ => exact .inr ⟨_, rfl⟩

/-- An item is set in the world of a machine. -/
theorem sets_setItem (a : ArrayId) (i : Int) (v : Value) (m : Machine) :
    m.Sets (.array a) (fun _ w => w = v) ((liftM (Host.setItem a i v) : Exec Unit).run m) := by
  rw [run_lift, Host.run_setItem]
  cases hcheck : m.world.heap.checkItem a i with
  | ok u => exact .item rfl rfl hcheck rfl
  | error f => exact .none rfl

theorem sets_storeItem (kind : Option ScalarKind) (hstack : m.frame.stack = x :: y :: z :: rest) :
    m.Sets z (fun _ w => w = Value.fit kind x) ((Op.execute (.storeItem kind)).run m) := by
  rw [Op.execute, run_bind_ok (run_popFit kind hstack)]
  rcases run_popIndex (m := m.withStack (y :: z :: rest)) rfl with ⟨i, hi⟩ | ⟨e, hi⟩
  · rw [run_bind_ok hi]
    rcases run_popArray (m := m.withStack (z :: rest)) rfl with ⟨a, rfl, ha⟩ | ⟨e, ha⟩
    · rw [Machine.withStack_withStack, run_bind_ok ha]
      exact (sets_setItem a i _ _).of_withStack
    · rw [Machine.withStack_withStack, run_bind_error ha]
      exact .none rfl
  · rw [run_bind_error hi]
    exact .none rfl

theorem sets_storeThrough {a : ArrayId} {i : Nat} (kind : Option ScalarKind)
    (hstack : m.frame.stack = x :: .address (.element a i) :: rest) :
    m.Sets (.array a) (fun _ w => w = Value.fit kind x) ((Op.execute (.storeThrough kind)).run m) := by
  have haddress : popAddress.run (m.withStack (.address (.element a i) :: rest)) =
      .ok (.element a i) (m.withStack rest) := rfl
  rw [Op.execute, run_bind_ok (run_popFit kind hstack), run_bind_ok haddress]
  exact (sets_setItem a (indexOf i) _ _).of_withStack

/-- The address of an item is taken, or there is none. -/
theorem run_addressItem (hstack : m.frame.stack = y :: z :: rest) :
    (∃ a i, z = .array a ∧
      (Op.execute .addressItem).run m = .ok () (m.withStack (.address (.element a i) :: rest))) ∨
      ∃ e m', (Op.execute .addressItem).run m = .error e m' := by
  rw [Op.execute]
  rcases run_popIndex hstack with ⟨i, hi⟩ | ⟨e, hi⟩
  · rw [run_bind_ok hi]
    rcases run_popArray (m := m.withStack (z :: rest)) rfl with ⟨a, rfl, ha⟩ | ⟨e, ha⟩
    · rw [Machine.withStack_withStack] at ha
      rw [run_bind_ok ha]
      -- the index is checked, and the item is not used
      have hcheck : (do
          let _ ← Host.ofExcept (m.world.heap.getItem a i)
          push (.address (.element a i.toNat)) : Exec Unit).run (m.withStack rest) =
            (do
              let _ ← Host.ofExcept ((← Host.heap).getItem a i)
              push (.address (.element a i.toNat)) : Exec Unit).run (m.withStack rest) := rfl
      rw [← hcheck]
      cases m.world.heap.getItem a i with
      | ok v => exact .inl ⟨a, _, rfl, rfl⟩
      | error f => exact .inr ⟨_, _, rfl⟩
    · exact .inr ⟨_, _, run_bind_error ha⟩
  · exact .inr ⟨_, _, run_bind_error hi⟩

/-- The untyped base sets what is made of the value by the type of the items. -/
theorem sets_call_storeItem (hstack : m.frame.stack = y :: x :: z :: rest) (hz : ∀ l, z ≠ .address l) :
    m.Sets z (fun a w => Builtin.Filed m.world.heap (m.world.heap.arrayCell a).element x w)
      ((Op.execute (.call Builtin.storeItem)).run m) := by
  have hoperands : m.frame.stack = [z, x, y].reverse ++ rest := hstack
  have hopen : (openReceiver Builtin.storeItem [z, x, y]).run (m.withStack rest) =
      if z.isNull && Builtin.storeItem.isVirtual then .error (.fault .nullReference) (m.withStack rest)
      else .ok ([z, x, y], none) (m.withStack rest) := run_openReceiver_plain rfl hz
  rw [Op.execute, run_call hoperands rfl]
  split at hopen
  · rw [run_bind_error hopen]
    exact .none rfl
  · rw [run_bind_ok hopen]
    dsimp only
    rw [run_body, Machine.world_withStack]
    cases hbody : (Builtin.storeItem.body [z, x, y]).run m.world with
    | ok r w =>
      obtain ⟨result, left⟩ := r
      obtain ⟨a, i, v, rfl, hcheck, hfiled, rfl⟩ := Builtin.storeItem_ok hbody
      exact .item rfl hfiled hcheck rfl
    | error e w =>
      obtain rfl := Builtin.storeItem_error hbody
      exact .none rfl

end Exec

/-! ## (3) What is stored -/

/-- What is **stored** for an operand into an item of an array, in the heap at the store. -/
inductive Operand.Stores (a v : Operand) (m : Machine) (h : Heap) (element : Ty) (w : Value) : Prop
  /-- What the operand was converted to, made to fit the element type that the code knows. -/
  | typed {t : Ty} {c : Conversion} {u x : Value} (ht : a.type.itemType = .ok t)
      (hc : Conversion.between v.type t false = .ok c) (hu : m.operand? v = some u)
      (hw : w = Value.fit t.storedAs? x) (hx : h.Conforms x t ↔ ¬ c.Misconverts v.loadedType t false h u) :
      Stores a v m h element w
  /-- What the untyped base makes of a reference, by the element type of the array. -/
  | base {x : Value} (ha : a.type == .arrayBase) (hx : h.Conforms x .object)
      (hw : h.Conforms w element ↔ ¬ h.Misfiled element x) : Stores a v m h element w

namespace Operand

variable {a i v o : Operand} {m : Machine} {os : List Op} {last : Op} {u : Value} {h : Heap}

/-- Nothing is mispassed to a parameter of the root type. -/
theorem Sound.not_mispassed_object (hsound : o.Sound m) (hload : o.Loadable) (hu : m.operand? o = some u) :
    ¬ o.Mispassed .object h u := by
  have hvalue := (hsound.loadedAs hload hu).isValue
  -- a reference is kept as it is
  have hkept : ¬ o.type.isValue → ¬ Conversion.identity.Misconverts o.loadedType .object false h u := by
    intro hnot hmis
    rw [Conversion.Misconverts, if_neg (hvalue ▸ hnot)] at hmis
    obtain ⟨f, -, hacc⟩ := hmis
    exact hacc (Ty.object_accepts f)
  intro hmis
  cases hmis with
  | null _ ht => cases ht
  | converted _ hc hmis =>
    rw [Conversion.between] at hc
    split at hc
    · rename_i hsame
      cases hc
      refine hkept (fun hnot => ?_) hmis
      rw [Ty.isValue, (Ty.beq_iff.1 hsame).1] at hnot
      cases hnot
    · rw [if_neg (by decide), Conversion.toReference, if_pos (Ty.object_accepts _)] at hc
      split at hc
      · cases hc
        exact hmis
      · rename_i hnot
        cases hc
        exact hkept hnot hmis

/-- No sound operand is an address. -/
theorem Sound.ne_address (hsound : o.Sound m) (hu : m.operand? o = some u) (l : Location) :
    u ≠ .address l := by
  cases o with
  | argument a =>
    obtain ⟨w, hw, hconforms⟩ := hsound
    cases hu.symm.trans hw
    exact hconforms.ne_address l
  | «variable» x =>
    obtain ⟨w, hw, hconforms⟩ := hsound
    cases hu.symm.trans hw
    exact hconforms.ne_address l
  | constant c =>
    cases hu
    intro hloaded
    cases c with
    | enumeration t raw =>
      rw [Constant.loaded] at hloaded
      split at hloaded
      · split at hloaded <;> cases hloaded
      · cases hloaded
    | _ => cases hloaded

theorem StoredBy.chain (hstored : a.StoredBy i v os last) (k : Nat) : ∃ n, Op.Chain k 0 os n := by
  cases hstored with
  | @item t c ht hstruct hc hload =>
    refine ⟨3, (a.chain_loadOps k).append (((i.chain_loadOps k).under 1).append ?_)⟩
    exact ((v.chain_loadOps k).under 2).append ((c.chain_ops k).under 2)
  | @place t c ht hstruct hc hload =>
    refine ⟨2, (a.chain_loadOps k).append (((i.chain_loadOps k).under 1).append ?_)⟩
    refine Op.Chain.append (.cons (Exec.acts_addressItem k) (.nil 1)) ?_
    exact ((v.chain_loadOps k).under 1).append ((c.chain_ops k).under 1)
  | base ha hrow hload => exact ⟨_, (a.chain_loadOps k).append ((hrow.chain k).under 1)⟩

end Operand

/-- The array and the index are **loaded**. -/
theorem Op.Played.pair {k : Nat} {m m' : Machine} {a i : Operand} {z y : Value}
    (h : Played k (a.loadOps ++ i.loadOps) m (.ok () m')) (hz : m.operand? a = some z) (hy : m.operand? i = some y)
    (ha : a.Below k) (hi : i.Below k) : m.Aside k m' ∧ m'.frame.stack = y :: z :: m.frame.stack := by
  obtain ⟨m₁, harray, hindex⟩ := h.split_ok
  obtain ⟨haside, hstack⟩ := harray.load hz ha
  obtain ⟨haside', hstack'⟩ := hindex.load ((haside.operand hi).trans hy) hi
  exact ⟨haside.trans haside', by rw [hstack', hstack]⟩

/-- The array and the index of a store are loaded **first**. -/
theorem Op.Played.place {k : Nat} {m m' : Machine} {a i : Operand} {z y : Value} {os : List Op}
    (h : Played k (a.loadOps ++ (i.loadOps ++ os)) m (.ok () m')) (hz : m.operand? a = some z)
    (hy : m.operand? i = some y) (ha : a.Below k) (hi : i.Below k) :
    ∃ m₁, m.Aside k m₁ ∧ m₁.frame.stack = y :: z :: m.frame.stack ∧ Played k os m₁ (.ok () m') := by
  rw [← List.append_assoc] at h
  obtain ⟨m₁, hpair, hrest⟩ := h.split_ok
  obtain ⟨haside, hstack⟩ := hpair.pair hz hy ha hi
  exact ⟨m₁, haside, hstack, hrest⟩

/-- The operation behind the loads of a store **sets one item** of the array that is the operand, or none. -/
theorem Op.Played.stores {k : Nat} {m m' : Machine} {a i v : Operand} {os : List Op} {last : Op}
    (hstored : a.StoredBy i v os last) (hsound : ∀ o ∈ [a, i, v], o.Sound m)
    (hk : ∀ o ∈ [a, i, v], o.Below k) (h : Played k os m (.ok () m')) :
    m.Aside k m' ∧ ∃ z, m.operand? a = some z ∧
      m'.Sets z (fun c w => a.Stores v m m'.world.heap (m'.world.heap.arrayCell c).element w)
        (last.execute.run m') := by
  obtain ⟨hsa, hsi, hsv⟩ : a.Sound m ∧ i.Sound m ∧ v.Sound m := by simpa using hsound
  obtain ⟨hka, hki, hkv⟩ : a.Below k ∧ i.Below k ∧ v.Below k := by simpa using hk
  obtain ⟨z, hz⟩ := hsa.exists_operand
  obtain ⟨y, hy⟩ := hsi.exists_operand
  obtain ⟨u, hu⟩ := hsv.exists_operand
  -- an item is stored at its index, through its address, or by the method of the base type
  cases hstored with
  | @item t c ht hstruct hc hload =>
    obtain ⟨m₁, haside, hstack, hrest⟩ := h.place hz hy hka hki
    obtain ⟨hlast, x, hx, hconforms⟩ :=
      hrest.converted hc (hsv.aside hkv haside) hload hkv ((haside.operand hkv).trans hu)
    rw [hstack] at hx
    refine ⟨haside.trans hlast, z, hz, (Exec.sets_storeItem t.storedAs? hx).imp fun b w hw => ?_⟩
    exact .typed ht hc hu hw (hconforms _ (.refl _))
  | @place t c ht hstruct hc hload =>
    obtain ⟨m₁, haside, hstack, hrest⟩ := h.place hz hy hka hki
    obtain ⟨m₂, haddress, hrest⟩ := hrest.split_ok
    obtain ⟨m₃, m₄, hm₃, hrun, hm₄⟩ := haddress.one
    rcases Exec.run_addressItem (hm₃.stack.trans hstack) with ⟨b, j, rfl, hok⟩ | ⟨e, m₅, herror⟩
    · cases hok.symm.trans hrun
      have haside := haside.trans (hm₃.aside.trans ((Machine.Aside.withStack k _ _).trans hm₄.aside))
      obtain ⟨hlast, x, hx, hconforms⟩ :=
        hrest.converted hc (hsv.aside hkv haside) hload hkv ((haside.operand hkv).trans hu)
      rw [hm₄.stack, Machine.stack_withStack] at hx
      refine ⟨haside.trans hlast, _, hz, (Exec.sets_storeThrough t.storedAs? hx).imp fun b w hw => ?_⟩
      exact .typed ht hc hu hw (hconforms _ (.refl _))
    · cases herror.symm.trans hrun
  | @base row ha hrow hload =>
    obtain ⟨m₁, harray, hparams⟩ := h.split_ok
    obtain ⟨haside, hstack⟩ := harray.load hz hka
    have hsound₁ : ∀ o ∈ [v, i], o.Sound m₁ := by
      simpa using And.intro (hsv.aside hkv haside) (hsi.aside hki haside)
    have hk₁ : ∀ o ∈ [v, i], o.Below k := by simpa using And.intro hkv hki
    obtain ⟨haside', xs, hstack', harrive⟩ := hparams.passedInRow hrow hsound₁ hload hk₁
    cases harrive _ (.refl _) with
    | @cons _ _ u' x _ _ xs hu' hx hrest =>
      cases hrest with
      | @cons _ _ y' x' _ _ xs hy' hx' hrest =>
        cases hrest
        rw [hstack] at hstack'
        -- the method takes objects, and what is passed to it as one is one
        have hobject : m'.world.heap.Conforms x .object :=
          hx.2 ((hsv.aside hkv haside).not_mispassed_object (hload v List.mem_cons_self) hu')
        refine ⟨haside.trans haside', z, hz,
          (Exec.sets_call_storeItem hstack' (hsa.ne_address hz)).imp fun b w hw => ?_⟩
        exact .base ha hobject (hw.conforms_iff hobject)

/-- A store that stops, in the operations before the last one or in that, **leaves all arrays as they were**. -/
theorem Operand.StoredBy.arrays_of_error {k : Nat} {m m' : Machine} {a i v : Operand} {os : List Op} {last : Op}
    {e : Halt} (hstored : a.StoredBy i v os last) (hsound : ∀ o ∈ [a, i, v], o.Sound m)
    (hk : ∀ o ∈ [a, i, v], o.Below k) (h : Op.Played k os m (.error e m') ∨
      ∃ m₁, Op.Played k os m (.ok () m₁) ∧ last.execute.run m₁ = .error e m') :
    m'.world.heap.arrays = m.world.heap.arrays := by
  rcases h with hplayed | ⟨m₁, hplayed, hrun⟩
  · -- what comes before the store acts aside
    obtain ⟨b, hchain⟩ := hstored.chain k
    exact (hchain.error hplayed).heap.arrays
  · obtain ⟨haside, z, -, hsets⟩ := hplayed.stores hstored hsound hk
    rw [hrun] at hsets
    cases hsets with
    | none hheap => rw [hheap, haside.heap.arrays]

end Stackwright
