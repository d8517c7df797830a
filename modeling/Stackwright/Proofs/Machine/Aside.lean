import Mathlib.Logic.Basic
import Stackwright.Proofs.Machine.Calling
import Stackwright.Proofs.Machine.Straight

/-! # Changes aside

What an operation may do without getting in the way of the code around it: it takes its operands off the
stack and leaves its result there, it uses locals of its own, and it makes boxes. Arguments, the other
locals and all that was in the heap stay as they were.

* **`Heap.Adds h h'`** — the heap has more boxes, and nothing else is different.
* **`Machine.Aside k m m'`** — a machine changed aside of its arguments and its locals below `k`.
* **`Exec.Quiet e`** — `e` changes nothing.
* **`Exec.Acts k a b e`** — `e` changes aside, and takes `a` operands and leaves `b`. -/

namespace Stackwright

/-! ## More boxes -/

/-- A heap with **more boxes**, and otherwise the same. -/
def Heap.Adds (h h' : Heap) : Prop := ∃ more : Array BoxCell, h' = { h with boxes := h.boxes ++ more }

namespace Heap.Adds

variable {h h' h'' : Heap}

theorem refl (h : Heap) : h.Adds h := ⟨#[], by simp⟩

theorem trans (hh : h.Adds h') (hh' : h'.Adds h'') : h.Adds h'' := by
  obtain ⟨more, rfl⟩ := hh
  obtain ⟨more', rfl⟩ := hh'
  exact ⟨more ++ more', by simp⟩

theorem allocBox (h : Heap) (t : Ty) (v : Value) : h.Adds (h.allocBox t v).2 :=
  ⟨#[⟨t, v⟩], by simp [Heap.allocBox]⟩

theorem arrays (hh : h.Adds h') : h'.arrays = h.arrays := by
  obtain ⟨more, rfl⟩ := hh
  rfl

theorem arrayCell (hh : h.Adds h') (a : ArrayId) : h'.arrayCell a = h.arrayCell a := by
  rw [Heap.arrayCell, Heap.arrayCell, hh.arrays]

theorem objectCell (hh : h.Adds h') (o : ObjectId) : h'.objectCell o = h.objectCell o := by
  obtain ⟨more, rfl⟩ := hh
  rfl

/-- A box of the heap is as it was. -/
theorem boxCell (hh : h.Adds h') {b : BoxId} (hb : b.index < h.boxes.size) :
    h'.boxCell b = h.boxCell b := by
  obtain ⟨more, rfl⟩ := hh
  simp [Heap.boxCell, Array.getD_eq_getD_getElem?, Array.getElem?_append_left hb]

theorem size (hh : h.Adds h') : h.boxes.size ≤ h'.boxes.size := by
  obtain ⟨more, rfl⟩ := hh
  simp

end Heap.Adds

/-- A report reaches its sink, which is not in the heap. -/
theorem World.heap_report (w : World) (sink : Sink) (x : String) : (w.report sink x).heap = w.heap := by
  cases sink with
  | log =>
    rw [report, record]
    split <;> rfl
  | memory i => rfl

/-! ## Machines -/

/-- A machine changed **aside**: what may be different is the stack, the locals from `k` on, which boxes
there are besides, and what is kept for a reader. -/
structure Machine.Aside (k : Nat) (m m' : Machine) : Prop where
  /-- The arguments are the same. -/
  args : m'.frame.args = m.frame.args
  /-- There are as many locals. -/
  size : m'.frame.locals.size = m.frame.locals.size
  /-- The locals below are the same. -/
  locals : ∀ i < k, m'.frame.locals[i]? = m.frame.locals[i]?
  /-- The heap has more boxes. -/
  heap : m.world.heap.Adds m'.world.heap

namespace Machine.Aside

variable {k : Nat} {m m' m'' : Machine}

theorem refl (k : Nat) (m : Machine) : m.Aside k m := ⟨rfl, rfl, fun _ _ => rfl, .refl _⟩

theorem trans (h : m.Aside k m') (h' : m'.Aside k m'') : m.Aside k m'' where
  args := h'.args.trans h.args
  size := h'.size.trans h.size
  locals i hi := (h'.locals i hi).trans (h.locals i hi)
  heap := h.heap.trans h'.heap

theorem withStack (k : Nat) (m : Machine) (stack : List Value) : m.Aside k (m.withStack stack) :=
  ⟨rfl, rfl, fun _ _ => rfl, .refl _⟩

theorem of_alike (k : Nat) (h : m.Alike m') : m.Aside k m' where
  args := by rw [h.frame]
  size := by rw [h.frame]
  locals i _ := by rw [h.frame]
  heap := h.heap ▸ .refl _

end Machine.Aside

/-! ## What changes nothing -/

/-- A computation that **changes nothing**, whether or not it answers. -/
structure Exec.Quiet {σ α : Type} (e : EStateM Halt σ α) : Prop where
  /-- It answers where it was. -/
  ok : ∀ {s s' : σ} {a : α}, e.run s = .ok a s' → s' = s
  /-- It stops where it was. -/
  error : ∀ {s s' : σ} {r : Halt}, e.run s = .error r s' → s' = s

namespace Exec

section quiet

variable {σ α β : Type} {e : EStateM Halt σ α} {f : α → EStateM Halt σ β}

theorem quiet_pure (a : α) : Quiet (pure a : EStateM Halt σ α) := by
  constructor <;> intro _ _ _ h <;> cases h
  rfl

theorem quiet_throw (r : Halt) : Quiet (throw r : EStateM Halt σ α) := by
  constructor <;> intro _ _ _ h <;> cases h
  rfl

theorem quiet_get : Quiet (get : EStateM Halt σ σ) := by
  constructor <;> intro _ _ _ h <;> cases h
  rfl

theorem Quiet.bind (he : Quiet e) (hf : ∀ a, Quiet (f a)) : Quiet (e >>= f) := by
  have hrun : ∀ s, (e >>= f).run s = match e.run s with
      | .ok a s => (f a).run s
      | .error r s => .error r s := by
    intro s
    show EStateM.bind e f s = _
    unfold EStateM.bind
    cases h : e s <;> simp [EStateM.run, h]
  constructor <;> intro s s' x h <;> rw [hrun] at h
  · split at h
    · rename_i a s₁ hs₁
      rw [(hf a).ok h, he.ok hs₁]
    · cases h
  · split at h
    · rename_i a s₁ hs₁
      rw [(hf a).error h, he.ok hs₁]
    · rename_i hs₁
      cases h
      exact he.error hs₁

end quiet

variable {α β : Type}

/-- What changes nothing of the world changes nothing. -/
theorem quiet_lift {c : Host α} (h : Quiet c) : Quiet (liftM c : Exec α) := by
  constructor <;> intro m m' x hrun <;> rw [run_lift] at hrun <;> split at hrun <;> cases hrun
  · rename_i hw
    rw [h.ok hw]
  · rename_i hw
    rw [h.error hw]

theorem quiet_heap : Quiet Host.heap := quiet_get.bind fun _ => quiet_pure _

theorem quiet_unexpected (expected : String) (v : Value) :
    Quiet (Host.unexpected expected v : Host α) := quiet_heap.bind fun _ => quiet_throw _

theorem quiet_expect (expected : String) (v : Value) (o : Option α) :
    Quiet (Host.expect expected v o) := by
  cases o with
  | some a => exact quiet_pure a
  | none => exact quiet_unexpected _ _

theorem quiet_ofExcept (r : Except Fault α) : Quiet (Host.ofExcept r) := by
  cases r with
  | ok a => exact quiet_pure a
  | error e => exact quiet_throw _

theorem quiet_display (v : Value) : Quiet (Host.display v) := quiet_heap.bind fun _ => quiet_pure _

theorem quiet_load (l : Location) : Quiet (load l) := by
  constructor <;> intro m m' x h <;> rw [run_load] at h <;> split at h <;> cases h <;> rfl

theorem quiet_readThrough (v : Value) : Quiet (readThrough v) := by
  cases v with
  | address l => exact quiet_load l
  | _ => exact quiet_pure _

theorem quiet_refuseCast (found : Option Ty) (v : Value) (target : Ty) :
    Quiet (refuseCast found v target : Exec α) := by
  cases found with
  | some t => exact quiet_throw _
  | none => exact (quiet_lift quiet_heap).bind fun _ => quiet_throw _

theorem quiet_scalarOf (v : Value) : Quiet (Host.scalarOf v) := by
  cases v <;> first | exact quiet_pure _ | exact quiet_unexpected _ _

/-- A receiver is opened without changing anything. -/
theorem quiet_openReceiver (f : Method) (args : List Value) : Quiet (openReceiver f args) := by
  unfold openReceiver
  split
  · refine (quiet_load _).bind fun this => ?_
    split
    · exact quiet_throw _
    · exact quiet_pure _
  · split
    · exact quiet_throw _
    · exact quiet_pure _
  · exact quiet_pure _

/-! ## Storing what is there -/

/-- Setting a slot to what is in it changes nothing. -/
theorem setIfInBounds_self {xs : Array Value} {i : Nat} {v : Value} (h : xs[i]? = some v) :
    xs.setIfInBounds i v = xs := by
  apply Array.ext_getElem?
  intro j
  obtain ⟨hi, -⟩ := Array.getElem?_eq_some_iff.1 h
  rw [Array.getElem?_setIfInBounds]
  by_cases hij : i = j
  · rw [if_pos hij, if_pos hi, ← hij, h]
  · rw [if_neg hij]

/-- What is read in a slot is in it. -/
theorem getElem?_of_slot {xs : Array Value} {i : Nat} {v : Value}
    (h : Machine.read.slot xs i = .ok v) : xs[i]? = some v := by
  unfold Machine.read.slot at h
  split at h
  · rename_i hv
    cases h
    exact hv
  · cases h

/-- An item that is read is one of the array. -/
theorem getItem_ok {h : Heap} {a : ArrayId} {i : Int} {v : Value} (hv : h.getItem a i = .ok v) :
    0 ≤ i ∧ i < h.itemCount a ∧ (h.arrayCell a).items[i.toNat]? = some v := by
  unfold Heap.getItem at hv
  dsimp only at hv
  split at hv
  · cases hv
  · split at hv
    · rename_i hnonneg _ hitem
      cases hv
      obtain ⟨hi, -⟩ := Array.getElem?_eq_some_iff.1 hitem
      refine ⟨by omega, ?_, hitem⟩
      rw [Heap.itemCount]
      omega
    · cases hv

/-- Setting an item to what it is changes nothing. -/
theorem setItem_self {h : Heap} {a : ArrayId} {i : Int} {v : Value} (hv : h.getItem a i = .ok v) :
    h.setItem a i v = h := by
  obtain ⟨-, -, hitem⟩ := getItem_ok hv
  have harrays : (h.arrays.modify a.index fun cell =>
      { cell with items := cell.items.setIfInBounds i.toNat v }) = h.arrays := by
    apply Array.ext_getElem?
    intro j
    rw [Array.getElem?_modify]
    split
    · rename_i hj
      subst hj
      cases hcell : h.arrays[a.index]? with
      | none => rfl
      | some cell =>
        rw [Heap.arrayCell, Array.getD_eq_getD_getElem?, hcell, Option.getD_some] at hitem
        rw [Option.map_some, setIfInBounds_self hitem]
    · rfl
  rw [Heap.setItem, harrays]

/-- Setting the content of a box to what it is changes nothing. -/
theorem setBox_self (h : Heap) (b : BoxId) : h.setBox b (h.getBox b) = h := by
  have hboxes : (h.boxes.modify b.index fun cell => { cell with content := h.getBox b }) = h.boxes := by
    apply Array.ext_getElem?
    intro j
    rw [Array.getElem?_modify]
    split
    · rename_i hj
      subst hj
      cases hcell : h.boxes[b.index]? with
      | none => rfl
      | some cell => simp [Heap.getBox, Heap.boxCell, Array.getD_eq_getD_getElem?, hcell]
    · rfl
  rw [Heap.setBox, hboxes]

/-- Storing what a location holds **changes nothing**. -/
theorem store_read {m : Machine} {l : Location} {v : Value} (h : m.read l = .ok v) :
    (store l v).run m = .ok () m := by
  -- at each kind of location what is stored is what stood there
  cases l with
  | argument i =>
    have hslot := getElem?_of_slot h
    obtain ⟨hi, -⟩ := Array.getElem?_eq_some_iff.1 hslot
    simp only [store, setArg, checkSlot, run_bind, run_get, if_pos hi, run_pure]
    have hself := setIfInBounds_self hslot
    show EStateM.Result.ok () { m with frame := { m.frame with
      args := m.frame.args.setIfInBounds i v } } = _
    rw [hself]
  | «variable» i =>
    have hslot := getElem?_of_slot h
    obtain ⟨hi, -⟩ := Array.getElem?_eq_some_iff.1 hslot
    simp only [store, setLocal, checkSlot, run_bind, run_get, if_pos hi, run_pure]
    have hself := setIfInBounds_self hslot
    show EStateM.Result.ok () { m with frame := { m.frame with
      locals := m.frame.locals.setIfInBounds i v } } = _
    rw [hself]
  | element a i =>
    obtain ⟨hnonneg, hlt, -⟩ := getItem_ok h
    have hset : (Host.setItem a (indexOf i) v).run m.world =
        .ok () { m.world with heap := m.world.heap.setItem a (indexOf i) v } := by
      show (do
        Host.ofExcept (m.world.heap.checkItem a (indexOf i))
        Host.modifyHeap (·.setItem a (indexOf i) v) : Host Unit).run m.world = _
      rw [Heap.checkItem, if_pos ⟨hnonneg, hlt⟩]
      rfl
    rw [store, run_lift, hset, setItem_self h]
  | boxed b =>
    cases h
    show EStateM.Result.ok () { m with world.heap := m.world.heap.setBox b (m.world.heap.getBox b) } = _
    rw [setBox_self]

/-! ## What changes aside -/

/-- A computation changes **aside**, and in place of `a` operands it leaves `b`. -/
structure Acts (k a b : Nat) (e : Exec α) : Prop where
  /-- What it did when it answers is aside. -/
  ok : ∀ {m m' : Machine} {x : α}, e.run m = .ok x m' → m.Aside k m'
  /-- What it did when it stops is aside. -/
  error : ∀ {m m' : Machine} {r : Halt}, e.run m = .error r m' → m.Aside k m'
  /-- The stack below its operands stays. -/
  stack : ∀ {m m' : Machine} {x : α} {ys rest : List Value}, m.frame.stack = ys ++ rest →
    ys.length = a → e.run m = .ok x m' → ∃ zs, zs.length = b ∧ m'.frame.stack = zs ++ rest

variable {e : Exec α} {f : α → Exec β} {k a b c : Nat}

theorem Quiet.acts (h : Quiet e) (k a : Nat) : e.Acts k a a where
  ok hrun := h.ok hrun ▸ .refl _ _
  error hrun := h.error hrun ▸ .refl _ _
  stack hstack hlength hrun := ⟨_, hlength, by rw [h.ok hrun, hstack]⟩

theorem Acts.bind (he : e.Acts k a b) (hf : ∀ x, (f x).Acts k b c) : (e >>= f).Acts k a c := by
  -- the three fields: runs that succeed, runs that fail, and the operands
  constructor
  · intro m m' x h
    rw [run_bind] at h
    split at h
    · rename_i y m₁ hm₁
      exact (he.ok hm₁).trans ((hf y).ok h)
    · cases h
  · intro m m' r h
    rw [run_bind] at h
    split at h
    · rename_i y m₁ hm₁
      exact (he.ok hm₁).trans ((hf y).error h)
    · rename_i hm₁
      cases h
      exact he.error hm₁
  · intro m m' x ys rest hstack hlength h
    rw [run_bind] at h
    split at h
    · rename_i y m₁ hm₁
      obtain ⟨zs, hzs, hstack₁⟩ := he.stack hstack hlength hm₁
      exact (hf y).stack hstack₁ hzs h
    · cases h

/-- Operands further down are left alone. -/
theorem Acts.under (h : e.Acts k a b) (c : Nat) : e.Acts k (a + c) (b + c) := by
  refine ⟨h.ok, h.error, fun {m m' x ys rest} hstack hlength hrun => ?_⟩
  have hsplit : ys.take a ++ (ys.drop a ++ rest) = ys ++ rest := by
    rw [← List.append_assoc, List.take_append_drop]
  obtain ⟨zs, hzs, hstack'⟩ := h.stack (hstack.trans hsplit.symm) (by simp [hlength]) hrun
  exact ⟨zs ++ ys.drop a, by simp [hzs, hlength], by rw [hstack', List.append_assoc]⟩

theorem acts_push (k : Nat) (v : Value) : (push v).Acts k 0 1 where
  ok hrun := by
    cases hrun
    exact .withStack _ _ _
  error hrun := by cases hrun
  stack hstack hlength hrun := by
    cases hrun
    rename_i ys rest
    obtain rfl := List.length_eq_zero_iff.1 hlength
    exact ⟨[v], rfl, congrArg (v :: ·) hstack⟩

theorem acts_pop (k : Nat) : pop.Acts k 1 0 := by
  have hempty : ∀ {m : Machine}, m.frame.stack = [] →
      pop.run m = .error (.fault .stackUnderflow) m := by
    rintro ⟨⟨args, locals, stack⟩, world⟩ h
    cases h
    rfl
  constructor
  · intro m m' x h
    cases hstack : m.frame.stack with
    | nil =>
      rw [hempty hstack] at h
      cases h
    | cons v rest =>
      rw [run_pop hstack] at h
      cases h
      exact .withStack _ _ _
  · intro m m' r h
    cases hstack : m.frame.stack with
    | nil =>
      rw [hempty hstack] at h
      cases h
      exact .refl _ _
    | cons v rest =>
      rw [run_pop hstack] at h
      cases h
  · intro m m' x ys rest hstack hlength h
    obtain ⟨v, rfl⟩ := List.length_eq_one_iff.1 hlength
    rw [run_pop hstack] at h
    cases h
    exact ⟨[], rfl, rfl⟩

theorem acts_popMany (k n : Nat) : (popMany n).Acts k n 0 := by
  constructor
  · intro m m' x h
    rcases Nat.lt_or_ge m.frame.stack.length n with hlt | hge
    · rw [run_popMany_short hlt] at h
      cases h
    · obtain ⟨vs, below, hstack, rfl⟩ := exists_operands hge
      rw [run_popMany hstack] at h
      cases h
      exact .withStack _ _ _
  · intro m m' r h
    rcases Nat.lt_or_ge m.frame.stack.length n with hlt | hge
    · rw [run_popMany_short hlt] at h
      cases h
      exact .refl _ _
    · obtain ⟨vs, below, hstack, rfl⟩ := exists_operands hge
      rw [run_popMany hstack] at h
      cases h
  · intro m m' x ys rest hstack hlength h
    have hvs : m.frame.stack = ys.reverse.reverse ++ rest := by rw [List.reverse_reverse, hstack]
    rw [← hlength, ← ys.length_reverse, run_popMany hvs] at h
    cases h
    exact ⟨[], rfl, rfl⟩

/-- A computation of the world that makes boxes at most. -/
theorem acts_lift {c : Host α}
    (hok : ∀ {w w' : World} {x : α}, c.run w = .ok x w' → w.heap.Adds w'.heap)
    (herror : ∀ {w w' : World} {r : Halt}, c.run w = .error r w' → w.heap.Adds w'.heap) (k n : Nat) :
    (liftM c : Exec α).Acts k n n := by
  constructor
  · intro m m' x h
    rw [run_lift] at h
    split at h <;> cases h
    rename_i hw
    exact ⟨rfl, rfl, fun _ _ => rfl, hok hw⟩
  · intro m m' r h
    rw [run_lift] at h
    split at h <;> cases h
    rename_i hw
    exact ⟨rfl, rfl, fun _ _ => rfl, herror hw⟩
  · intro m m' x ys rest hstack hlength h
    rw [run_lift] at h
    split at h <;> cases h
    exact ⟨ys, hlength, hstack⟩

theorem acts_allocBox (t : Ty) (v : Value) (k n : Nat) :
    (liftM (Host.allocate (·.allocBox t v)) : Exec BoxId).Acts k n n := by
  refine acts_lift (fun h => ?_) (fun h => ?_) k n
  · cases h
    exact .allocBox _ _ _
  · cases h

theorem acts_setLocal {k i : Nat} (hi : k ≤ i) (v : Value) (n : Nat) : (setLocal i v).Acts k n n := by
  have hrun : ∀ m : Machine, (setLocal i v).run m = if i < m.frame.locals.size then
      .ok () { m with frame := { m.frame with locals := m.frame.locals.setIfInBounds i v } }
      else .error (.fault (.outside i m.frame.locals.size)) m := by
    intro m
    simp only [setLocal, checkSlot, run_bind, run_get]
    split <;> rename_i h <;> split at h
    · cases h
      rename_i hlt
      rw [if_pos hlt]
      rfl
    · cases h
    · cases h
    · cases h
      rename_i hlt
      rw [if_neg hlt]
  constructor
  · intro m m' x h
    rw [hrun] at h
    split at h <;> cases h
    -- the local that is set is not among the first ones
    refine ⟨rfl, Array.size_setIfInBounds .., fun j hj => ?_, .refl _⟩
    exact Array.getElem?_setIfInBounds_ne (by omega)
  · intro m m' r h
    rw [hrun] at h
    split at h <;> cases h
    exact .refl _ _
  · intro m m' x ys rest hstack hlength h
    rw [hrun] at h
    split at h <;> cases h
    exact ⟨ys, hlength, hstack⟩

theorem quiet_getArg (i : Nat) : Quiet (getArg i) := quiet_load (.argument i)

theorem quiet_getLocal (i : Nat) : Quiet (getLocal i) := quiet_load (.variable i)

/-! ### Methods that only compute -/

/-- A computation of the world that **keeps to** a relation of worlds, whether or not it answers. -/
def Keeping (S : World → World → Prop) (c : Host α) : Prop :=
  (∀ w w' x, c.run w = .ok x w' → S w w') ∧ ∀ w w' r, c.run w = .error r w' → S w w'

theorem Quiet.keeping {S : World → World → Prop} {c : Host α} (h : Quiet c) (hS : ∀ w, S w w) : Keeping S c :=
  ⟨fun _ _ _ hrun => h.ok hrun ▸ hS _, fun _ _ _ hrun => h.error hrun ▸ hS _⟩

/-- A computation of the world that leaves the heap as it is. -/
abbrev SparesHeap (c : Host α) : Prop := Keeping (fun w w' => w'.heap = w.heap) c

theorem Quiet.sparesHeap {c : Host α} (h : Quiet c) : SparesHeap c := h.keeping fun _ => rfl

/-- A receiver that was read is at its location. -/
theorem read_of_openReceiver {g : Method} {vs args : List Value} {l : Location} {m m' : Machine}
    (h : (openReceiver g vs).run m = .ok (args, some l) m') :
    ∃ this params, args = this :: params ∧ m.read l = .ok this := by
  unfold openReceiver at h
  split at h
  · rename_i l' params _
    rw [run_bind, run_load] at h
    cases hread : m.read l' with
    | error r =>
      rw [hread] at h
      cases h
    | ok this =>
      rw [hread] at h
      dsimp only at h
      split at h
      · cases h
      · cases h
        exact ⟨this, params, rfl, hread⟩
  · split at h <;> cases h
  · cases h

/-- The stack behind a call with a result. -/
def behind (g : Method) (result : Value) (stack : List Value) : List Value :=
  match g.ret with
  | some t => Value.fit t.storedAs? result :: stack
  | none => stack

/-- A receiver that was left alone is **written back** without changing anything. -/
theorem run_settle_read {g : Method} {m : Machine} {origin : Option Location} {result : Value}
    {args : List Value}
    (ho : ∀ l, origin = some l → ∃ this params, args = this :: params ∧ m.read l = .ok this) :
    (settle g origin result args).run m = .ok () (m.withStack (behind g result m.frame.stack)) := by
  unfold settle behind
  cases origin with
  | none => cases g.ret <;> rfl
  | some l =>
    obtain ⟨this, params, rfl, hread⟩ := ho l rfl
    dsimp only
    rw [run_bind_ok (store_read hread)]
    cases g.ret <;> rfl

theorem run_pureBody_ok {compute : List Value → Host Value} {args : List Value} {w w' : World}
    {v : Value} (h : (compute args).run w = .ok v w') :
    (Builtin.pureBody compute args).run w = .ok (v, args) w' := by
  show EStateM.bind (compute args) (fun v => pure (v, args)) w = _
  unfold EStateM.bind
  rw [show compute args w = .ok v w' from h]
  rfl

theorem run_pureBody_error {compute : List Value → Host Value} {args : List Value} {w w' : World}
    {r : Halt} (h : (compute args).run w = .error r w') :
    (Builtin.pureBody compute args).run w = .error r w' := by
  show EStateM.bind (compute args) (fun v => pure (v, args)) w = _
  unfold EStateM.bind
  rw [show compute args w = .error r w' from h]

/-- What comes of a method that **only computes**, once its operands are popped. -/
inductive Computed (S : World → World → Prop) (g : Method) (m : Machine) :
    EStateM.Result Halt Machine Unit → Prop
  /-- It leaves its result. -/
  | ok {w : World} (result : Value) (hw : S m.world w) :
      Computed S g m (.ok () (Machine.withStack { m with world := w } (behind g result m.frame.stack)))
  /-- It stops. -/
  | error {w : World} (r : Halt) (hw : S m.world w) : Computed S g m (.error r { m with world := w })

/-- What only computes, and so leaves the heap as it is, leaves its receiver as it is. -/
theorem computed {g : Method} {compute : List Value → Host Value} {S : World → World → Prop}
    (hbody : g.body = Builtin.pureBody compute) (hc : ∀ args, Keeping S (compute args))
    (hrefl : ∀ w, S w w) (hheap : ∀ w w', S w w' → w'.heap = w.heap) (vs : List Value) (m : Machine) :
    Computed S g m ((do
      let (args, origin) ← openReceiver g vs
      let (result, left) ← (g.call args : Host _)
      settle g origin result left : Exec Unit).run m) := by
  rw [run_bind]
  cases hopen : (openReceiver g vs).run m with
  | error r m₁ =>
    obtain rfl := (quiet_openReceiver g vs).error hopen
    exact .error r (hrefl _)
  | ok x m₁ =>
    obtain ⟨args, origin⟩ := x
    obtain rfl := (quiet_openReceiver g vs).ok hopen
    dsimp only
    rw [run_body, hbody]
    cases hres : (compute args).run m₁.world with
    | error r w =>
      rw [run_pureBody_error hres]
      exact .error r ((hc args).2 _ _ _ hres)
    | ok result w =>
      have hw := (hc args).1 _ _ _ hres
      have halike : m₁.Alike { m₁ with world := w } := ⟨rfl, hheap _ _ hw⟩
      rw [run_pureBody_ok hres]
      dsimp only
      rw [run_settle_read]
      · exact .ok result hw
      · -- a receiver that came from a place is put back as it was read
        intro l hl
        obtain ⟨this, params, hargs, hread⟩ := read_of_openReceiver (hl ▸ hopen)
        exact ⟨this, params, hargs, by rw [halike.read, hread]⟩

/-- Calling a method that **only computes** takes its operands and leaves its result. -/
theorem acts_call_pure {g : Method} {compute : List Value → Host Value}
    (hbody : g.body = Builtin.pureBody compute) (hc : ∀ args, SparesHeap (compute args)) (k : Nat) :
    (call g).Acts k g.arity (if g.ret.isSome then 1 else 0) := by
  have haside : ∀ {m : Machine} {w : World}, w.heap = m.world.heap →
      m.Aside k { m with world := w } := fun hw => .of_alike k ⟨rfl, hw⟩
  refine (acts_popMany k g.arity).bind fun vs => ?_
  constructor
  · intro m m' x h
    cases (congrArg (Computed _ g m) h).mp (computed hbody hc (fun _ => rfl) (fun _ _ hw => hw) vs m) with
    | ok result hw => exact (haside hw).trans (.withStack _ _ _)
  · intro m m' r h
    cases (congrArg (Computed _ g m) h).mp (computed hbody hc (fun _ => rfl) (fun _ _ hw => hw) vs m) with
    | error r hw => exact haside hw
  · intro m m' x ys rest hstack hlength h
    obtain rfl := List.length_eq_zero_iff.1 hlength
    cases (congrArg (Computed _ g m) h).mp (computed hbody hc (fun _ => rfl) (fun _ _ hw => hw) vs m) with
    | ok result hw =>
      unfold behind
      cases g.ret with
      | none => exact ⟨[], rfl, hstack⟩
      | some t => exact ⟨[_], rfl, congrArg (_ :: ·) hstack⟩

/-! ### Rows of operations -/

theorem acts_nil (k a : Nat) : (all []).Acts k a a := (quiet_pure ()).acts k a

theorem acts_cons {o : Op} {os : List Op} (ho : o.execute.Acts k a b) (hos : (all os).Acts k b c) :
    (all (o :: os)).Acts k a c := ho.bind fun _ => hos

end Exec

end Stackwright
