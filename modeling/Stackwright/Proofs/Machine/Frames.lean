import Stackwright.Proofs.Machine.Calling

/-! # What operations do to slots

Most computations leave the arguments and the locals of the frame alone. What is left are the stores: into
a slot itself, through an address, into a field of a struct that a slot holds, and the store of a call
into its receiver. A store changes the location that it names and no other slot.

* **`Exec.SparesSlots e`** — `e` leaves the slots alone.
* **`Op.spares_execute`** — so does every operation that is no store. -/

namespace Stackwright

/-- Whether a location is an argument or a local. -/
def Location.isSlot : Location → Bool
  | .argument _ | .variable _ => true
  | .element .. | .boxed _ => false

/-- Machines with the **same slots**. -/
structure Machine.SameSlots (m m' : Machine) : Prop where
  /-- The arguments are the same. -/
  args : m'.frame.args = m.frame.args
  /-- The locals are the same. -/
  locals : m'.frame.locals = m.frame.locals

namespace Machine.SameSlots

variable {m m' m'' : Machine}

theorem refl (m : Machine) : m.SameSlots m := ⟨rfl, rfl⟩

theorem trans (h : m.SameSlots m') (h' : m'.SameSlots m'') : m.SameSlots m'' :=
  ⟨h'.args.trans h.args, h'.locals.trans h.locals⟩

/-- The same slots are read alike. -/
theorem read (h : m.SameSlots m') {l : Location} (hl : l.isSlot) : m'.read l = m.read l := by
  cases l with
  | argument i => simp only [Machine.read, h.args]
  | «variable» i => simp only [Machine.read, h.locals]
  | element a i => cases hl
  | boxed b => cases hl

end Machine.SameSlots

namespace Exec

variable {α β : Type} {e : Exec α} {f : α → Exec β} {m m' : Machine}

/-! ## What leaves slots alone -/

/-- A computation that **leaves the slots alone**. -/
def SparesSlots (e : Exec α) : Prop := ∀ m m' a, e.run m = .ok a m' → m.SameSlots m'

theorem spares_pure (a : α) : (pure a : Exec α).SparesSlots := by
  intro m m' b hrun
  cases hrun
  exact .refl m

theorem spares_fail (g : Fault) : (fail g : Exec α).SparesSlots := by
  intro m m' b hrun
  cases hrun

theorem SparesSlots.bind (he : e.SparesSlots) (hf : ∀ a, (f a).SparesSlots) :
    (e >>= f).SparesSlots := by
  intro m m' b hrun
  rw [run_bind] at hrun
  split at hrun
  · rename_i a m₁ h₁
    exact (he m m₁ a h₁).trans (hf a m₁ m' b hrun)
  · cases hrun

/-- A computation of the world has no slots at hand. -/
theorem spares_lift (c : Host α) : (liftM c : Exec α).SparesSlots := by
  intro m m' a hrun
  rw [run_lift] at hrun
  split at hrun <;> cases hrun
  exact ⟨rfl, rfl⟩

theorem spares_get : (get : Exec Machine).SparesSlots := by
  intro m m' a hrun
  cases hrun
  exact .refl m

theorem spares_setStack (stack : List Value) : (setStack stack).SparesSlots := by
  intro m m' a hrun
  cases hrun
  exact ⟨rfl, rfl⟩

theorem spares_push (v : Value) : (push v).SparesSlots := by
  intro m m' a hrun
  cases hrun
  exact ⟨rfl, rfl⟩

theorem spares_pop : pop.SparesSlots := by
  refine SparesSlots.bind spares_get fun m => ?_
  split
  · exact spares_fail _
  · exact (spares_setStack _).bind fun _ => spares_pure _

theorem spares_popMany (n : Nat) : (popMany n).SparesSlots := by
  refine SparesSlots.bind spares_get fun m => ?_
  dsimp only
  split
  · exact spares_fail _
  · exact (spares_setStack _).bind fun _ => spares_pure _

theorem spares_top : top.SparesSlots := by
  refine SparesSlots.bind spares_get fun m => ?_
  split
  · exact spares_fail _
  · exact spares_pure _

theorem spares_load (l : Location) : (load l).SparesSlots := by
  intro m m' a hrun
  rw [run_load] at hrun
  split at hrun <;> cases hrun
  exact .refl m

theorem spares_readThrough (v : Value) : (readThrough v).SparesSlots := by
  cases v with
  | address l => exact spares_load l
  | _ => exact spares_pure _

theorem spares_refuseCast (found : Option Ty) (v : Value) (target : Ty) :
    (refuseCast found v target : Exec α).SparesSlots := by
  unfold refuseCast
  cases found with
  | some t => exact (spares_pure _).bind fun _ => spares_fail _
  | none => exact (spares_lift _).bind fun _ => spares_fail _

theorem spares_popIndex : popIndex.SparesSlots := SparesSlots.bind spares_pop fun _ => spares_lift _

theorem spares_popArray : popArray.SparesSlots := by
  refine SparesSlots.bind spares_pop fun v => ?_
  split
  · exact spares_pure _
  · exact spares_fail _
  · exact spares_lift _

theorem spares_popAddress : popAddress.SparesSlots := by
  refine SparesSlots.bind spares_pop fun v => ?_
  split
  · exact spares_pure _
  · exact spares_fail _
  · exact spares_lift _

theorem spares_popFit (kind : Option ScalarKind) : (popFit kind).SparesSlots :=
  SparesSlots.bind spares_pop fun _ => spares_pure _

theorem spares_onTwo (op : Value → Value → Host Value) : (onTwo op).SparesSlots :=
  SparesSlots.bind spares_pop fun _ => SparesSlots.bind spares_pop fun _ => (spares_lift _).bind fun _ => spares_push _

theorem spares_boxFor (target : Ty) (v : Value) : (boxFor target v).SparesSlots := by
  refine (spares_lift _).bind fun h => ?_
  split
  · exact spares_fail _
  · split
    · exact spares_pure _
    · exact spares_refuseCast _ _ _
  · split
    · split
      · exact spares_lift _
      · exact spares_refuseCast _ _ _
    · exact spares_refuseCast _ _ _

theorem spares_slotNumber (f : Field) : (slotNumber f).SparesSlots := by
  unfold slotNumber
  split
  · exact spares_pure _
  · exact spares_fail _

theorem spares_fieldOf (receiver : Value) (i : Nat) : (fieldOf receiver i).SparesSlots := by
  refine (spares_lift _).bind fun h => (spares_readThrough receiver).bind fun v => ?_
  dsimp only
  -- whether it is in a box or not, the target is looked into alike
  split
  all_goals
    refine (spares_pure _).bind fun target => ?_
    split
    · exact spares_lift _
    · split
      · exact spares_pure _
      · exact spares_fail _
    · exact spares_fail _
    · exact spares_lift _

theorem spares_withField (target : Value) (i : Nat) (v : Value) :
    (withField target i v).SparesSlots := by
  unfold withField
  split
  · split
    · exact spares_pure _
    · exact spares_fail _
  · exact (spares_lift _).bind fun _ => spares_pure _
  · exact spares_fail _
  · exact spares_lift _

theorem spares_refuseInstance (f : Field) : (refuseInstance f : Exec α).SparesSlots :=
  spares_fail _

/-! ## Stores -/

/-- A store into a slot changes that slot and no other. -/
theorem read_store {l l' : Location} {v : Value} (h : (store l v).run m = .ok () m')
    (hl' : l'.isSlot) : m'.read l' = if l' = l then .ok v else m.read l' := by
  -- slots are one array, of which a store changes one entry
  have hset : ∀ {slots : Array Value} {i j : Nat}, i < slots.size →
      Machine.read.slot (slots.setIfInBounds i v) j =
        if j = i then .ok v else Machine.read.slot slots j := by
    intro slots i j hi
    unfold Machine.read.slot
    rw [Array.getElem?_setIfInBounds, Array.size_setIfInBounds]
    by_cases hj : i = j
    · subst hj
      simp [hi]
    · rw [if_neg hj, if_neg (Ne.symm hj)]
  cases l with
  | argument i =>
    have hi : i < m.frame.args.size := by
      refine Nat.lt_of_not_ge fun hi => ?_
      simp only [store, setArg, checkSlot, run_bind, run_get, if_neg (Nat.not_lt.2 hi)] at h
      cases h
    simp only [store, setArg, checkSlot, run_bind, run_get, if_pos hi, run_pure] at h
    cases h
    cases l' with
    | argument j => simpa [Machine.read] using hset hi
    | «variable» j => simp [Machine.read]
    | element a j => cases hl'
    | boxed b => cases hl'
  | «variable» i =>
    have hi : i < m.frame.locals.size := by
      refine Nat.lt_of_not_ge fun hi => ?_
      simp only [store, setLocal, checkSlot, run_bind, run_get, if_neg (Nat.not_lt.2 hi)] at h
      cases h
    simp only [store, setLocal, checkSlot, run_bind, run_get, if_pos hi, run_pure] at h
    cases h
    cases l' with
    | argument j => simp [Machine.read]
    | «variable» j => simpa [Machine.read] using hset hi
    | element a j => cases hl'
    | boxed b => cases hl'
  | element a i =>
    have hspares : (store (.element a i) v).SparesSlots := spares_lift _
    rw [(hspares m m' () h).read hl', if_neg]
    rintro rfl
    cases hl'
  | boxed b =>
    have hspares : (store (.boxed b) v).SparesSlots := spares_lift _
    rw [(hspares m m' () h).read hl', if_neg]
    rintro rfl
    cases hl'

/-- A store into anything else changes no slot. -/
theorem spares_store {l : Location} (hl : l.isSlot = false) (v : Value) :
    (store l v).SparesSlots := by
  cases l with
  | argument i => cases hl
  | «variable» i => cases hl
  | element a i => exact spares_lift _
  | boxed b => exact spares_lift _

end Exec

/-! ## Operations -/

/-- Whether an operation may write a slot. -/
def Op.writesSlot : Op → Bool
  | .storeArg .. | .storeLocal .. | .storeThrough _ | .zeroThrough _ | .putField _ | .call _ => true
  | _ => false

open Exec in
/-- An **operation that is no store** leaves the slots alone. -/
theorem Op.spares_execute (o : Op) (h : o.writesSlot = false) : o.execute.SparesSlots := by
  -- each operation but those that name a slot works on operands, the heap or statics
  cases o with
  | push v => exact spares_push v
  | loadArg i => exact (spares_load (.argument i)).bind spares_push
  | loadLocal i => exact (spares_load (.variable i)).bind spares_push
  | addressArg i => exact spares_push _
  | addressLocal i => exact spares_push _
  | add | sub | and | or | identical => exact spares_onTwo _
  | not => exact spares_pop.bind fun _ => (spares_lift _).bind spares_push
  | dup => exact spares_top.bind spares_push
  | pop => exact spares_pop.bind fun _ => spares_pure _
  | convert kind => exact spares_pop.bind fun _ => (spares_lift _).bind spares_push
  | box t =>
    exact spares_pop.bind fun _ => (spares_readThrough _).bind fun _ => (spares_lift _).bind fun _ =>
      spares_push _
  | openBox t => exact spares_pop.bind fun _ => (spares_boxFor t _).bind fun _ => spares_push _
  | loadThrough => exact spares_pop.bind fun _ => (spares_readThrough _).bind spares_push
  | checkCast t =>
    refine spares_pop.bind fun v => (spares_lift _).bind fun h => ?_
    split
    · split
      · exact spares_push v
      · exact spares_refuseCast _ _ _
    · exact spares_push v
  | instantiate c => exact (spares_popMany _).bind fun _ => (spares_lift _).bind spares_push
  | makeArray t =>
    refine spares_popIndex.bind fun n => ?_
    split
    · exact spares_fail _
    · exact (spares_lift _).bind fun _ => spares_push _
  | itemCount =>
    refine (spares_lift _).bind fun h => spares_popArray.bind fun a => ?_
    dsimp only
    split
    · exact spares_push _
    · exact spares_fail _
  | loadItem =>
    exact spares_popIndex.bind fun _ => spares_popArray.bind fun _ => (spares_lift _).bind fun _ =>
      (spares_lift _).bind spares_push
  | addressItem =>
    exact spares_popIndex.bind fun _ => spares_popArray.bind fun _ => (spares_lift _).bind fun _ =>
      (spares_lift _).bind fun _ => spares_push _
  | storeItem kind =>
    exact (spares_popFit kind).bind fun _ => spares_popIndex.bind fun _ => spares_popArray.bind fun _ =>
      spares_lift _
  | getField f =>
    exact (spares_slotNumber f).bind fun _ => spares_pop.bind fun _ => (spares_fieldOf _ _).bind spares_push
  | getStatic f =>
    simp only [execute]
    split
    · exact (spares_lift _).bind fun _ => spares_push _
    · exact spares_refuseInstance f
  | putStatic f =>
    refine (spares_popFit _).bind fun v => ?_
    split
    · exact spares_lift _
    · exact spares_refuseInstance f
  | throw =>
    refine spares_pop.bind fun v => ?_
    split
    · exact spares_fail _
    · exact (spares_lift _).bind fun _ => spares_fail _
  | storeArg | storeLocal | storeThrough | zeroThrough | putField | call => cases h

open Exec in
/-- A jump leaves the slots alone. -/
theorem Jump.spares_follow (j : Jump Nat) : j.follow.SparesSlots := by
  cases j with
  | always t => exact spares_pure _
  | ifTrue t => exact spares_pop.bind fun _ => (spares_lift _).bind fun _ => spares_pure _
  | ifFalse t => exact spares_pop.bind fun _ => (spares_lift _).bind fun _ => spares_pure _
  | compare c t =>
    exact spares_pop.bind fun _ => spares_pop.bind fun _ => (spares_lift _).bind fun _ => spares_pure _
  | switch ts => exact spares_popIndex.bind fun _ => spares_pure _

end Stackwright
