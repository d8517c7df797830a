import Stackwright.Proofs.Emission.Indexing
import Stackwright.Proofs.Machine.Converting
import Stackwright.Proofs.Scalar.Wrapping
import Stackwright.Proofs.Value.Receivers

/-! # Where values are made to fit

A value that an instruction takes off the stack for a place of a scalar kind is made to fit the kind: when it
is stored in a slot, at a location, in an array or in a field, when it is boxed, and when it is returned. So
are the result that a host body hands back and the arguments that a procedure is entered with. In all of them a
scalar comes as what it is converted to: nothing that happens tells it from that.

* **`Instruction.TakesFor ret k i`** — an instruction takes a value for a place of a kind.
* **`Instruction.Puts i rest v m m' p`** — the value is in that place.
* **`Value.ComesAs k x y`** — wherever `x` comes to a place of a kind, `y` is there.
* **`Value.comesAs_convert`** — a scalar comes as what it is converted to. -/

namespace Stackwright

/-- An instruction **takes** a value off the stack for a place of a scalar kind. -/
inductive Instruction.TakesFor (ret : Option Ty) (k : ScalarKind) : Instruction Nat → Prop
  /-- For an argument. -/
  | argument (i : Nat) : TakesFor ret k (.op (.storeArg i (some k)))
  /-- For a local. -/
  | variable (i : Nat) : TakesFor ret k (.op (.storeLocal i (some k)))
  /-- For the location of an address. -/
  | pointee : TakesFor ret k (.op (.storeThrough (some k)))
  /-- For an item of an array. -/
  | item : TakesFor ret k (.op (.storeItem (some k)))
  /-- For a field of an instance. -/
  | field {f : Field} {n : Nat} (hf : f.storage = .slot n) (h : f.type.storedAs? = some k) : TakesFor ret k (.op (.putField f))
  /-- For a static field. -/
  | static {f : Field} (h : f.type.storedAs? = some k) : TakesFor ret k (.op (.putStatic f))
  /-- For a box. -/
  | box {t : Ty} (h : t.storedAs? = some k) : TakesFor ret k (.op (.box t))
  /-- For the result. -/
  | result {t : Ty} (hret : ret = some t) (h : t.storedAs? = some k) : TakesFor ret k .ret

/-- A machine **has** a location: every box there is was made. -/
def Machine.Has (m : Machine) (l : Location) : Prop := ∀ b, l = .boxed b → b.index < m.world.heap.boxes.size

/-- A value **is in the place** that an instruction takes it for, once it was done from a machine with the rest of
the operands. -/
def Instruction.Puts (i : Instruction Nat) (rest : List Value) (v : Value) (m m' : Machine) (p : Progress) : Prop :=
  match i with
  | .op (.storeArg i _) => m'.at? (.argument i) = some v
  | .op (.storeLocal i _) => m'.at? (.variable i) = some v
  | .op (.storeThrough _) => ∃ l below, rest = .address l :: below ∧ (m.Has l → m'.at? l.spot = some v)
  | .op (.storeItem _) => ∃ x a j below, rest = x :: .array a :: below ∧ x.index? = some j ∧
      m'.at? (.item a j.toNat) = some v
  | .op (.putField f) => ∃ r j below, rest = r :: below ∧ f.storage = .slot j ∧ (Exec.fieldOf r j).run m' = .ok v m'
  | .op (.putStatic f) => ∃ id, f.storage = .static id ∧
      (id.index < m.world.heap.statics.size → m'.at? (.static id) = some v)
  | .op (.box t) => ∃ b, m'.frame.stack = .boxed b :: rest ∧ m'.world.heap.boxCell b = ⟨t, v⟩
  | .ret => p = .done v
  | _ => False

/-- The body that does something and then hands back a value. -/
def HostBody.giving (g : List Value → Host (List Value)) (v : Value) : HostBody := fun args => return (v, ← g args)

/-- A value **comes as** another one to places of a scalar kind: every instruction that takes it does what it does with
the other one, and puts that in the place; so it is with the result of a host body and the argument of a procedure. -/
structure Value.ComesAs (k : ScalarKind) (x y : Value) : Prop where
  /-- Instructions do not tell one from the other, -/
  taken : ∀ (ret : Option Ty) (i : Instruction Nat) (m : Machine) (rest : List Value), i.TakesFor ret k →
    (i.execute ret).run (m.withStack (x :: rest)) = (i.execute ret).run (m.withStack (y :: rest))
  /-- and what they put in the place is the other one. -/
  put : ∀ (ret : Option Ty) (i : Instruction Nat) (m m' : Machine) (rest : List Value) (p : Progress), i.TakesFor ret k →
    (i.execute ret).run (m.withStack (x :: rest)) = .ok p m' → i.Puts rest y m m' p
  /-- Nor do calls of host bodies that hand it back, -/
  handed : ∀ (f : Method) (t : Ty) (g : List Value → Host (List Value)) (m : Machine), f.ret = some t →
    t.storedAs? = some k → (Exec.call { f with body := .giving g x }).run m = (Exec.call { f with body := .giving g y }).run m
  /-- which push the other one. -/
  pushed : ∀ (f : Method) (t : Ty) (g : List Value → Host (List Value)) (m m' : Machine), f.ret = some t →
    t.storedAs? = some k → (Exec.call { f with body := .giving g x }).run m = .ok () m' →
    ∃ below, m'.frame.stack = y :: below
  /-- Nor do procedures that are called with it, -/
  passed : ∀ (p : Procedure) (fuel i : Nat) (t : Ty) (args : List Value), p.signature.args[i]? = some t →
    t.storedAs? = some k → p.call fuel (args.set i x) = p.call fuel (args.set i y)
  /-- whose argument is the other one. -/
  entered : ∀ (p : Procedure) (i : Nat) (t : Ty) (args : List Value), p.signature.args[i]? = some t →
    t.storedAs? = some k → i < args.length → (p.frame (args.set i x)).args[i]? = some y

namespace Exec

variable {α β : Type} {m m' : Machine} {l : Location} {rest : List Value} {v w x : Value} {r : Option Ty}
  {k : Option ScalarKind} {j : ScalarKind} {i : Instruction Nat} {s t : Scalar}

/-! ## (1) What is taken -/

/-- A computation in two parts is done when the parts are. -/
theorem run_bind_eq_ok {e : Exec α} {f : α → Exec β} {b : β} (h : (e >>= f).run m = .ok b m') :
    ∃ a m₁, e.run m = .ok a m₁ ∧ (f a).run m₁ = .ok b m' := by
  rw [run_bind] at h
  cases he : e.run m with
  | ok a m₁ =>
    rw [he] at h
    exact ⟨a, m₁, rfl, h⟩
  | error e' m₁ =>
    rw [he] at h
    cases h

/-- What is taken for a place is made to fit its kind. -/
theorem run_popFit_bind (g : Value → Exec α) :
    (popFit k >>= g).run (m.withStack (x :: rest)) = (g (Value.fit k x)).run (m.withStack rest) :=
  run_bind_ok (run_popFit k rfl)

theorem pop_ok (h : pop.run m = .ok v m') : ∃ below, m.frame.stack = v :: below ∧ m' = m.withStack below := by
  obtain ⟨⟨args, locals, stack⟩, world⟩ := m
  cases stack with
  | nil => cases h
  | cons y below =>
    cases h
    exact ⟨below, rfl, rfl⟩

theorem popIndex_ok {n : Int} (h : popIndex.run m = .ok n m') :
    ∃ y below, m.frame.stack = y :: below ∧ y.index? = some n ∧ m' = m.withStack below := by
  obtain ⟨y, m₁, hpop, h⟩ := run_bind_eq_ok h
  obtain ⟨below, hstack, rfl⟩ := pop_ok hpop
  cases hy : y.index? with
  | none =>
    rw [hy] at h
    cases h
  | some n' =>
    rw [hy] at h
    cases h
    exact ⟨y, below, hstack, hy, rfl⟩

theorem popArray_ok {a : ArrayId} (h : popArray.run m = .ok a m') :
    ∃ below, m.frame.stack = .array a :: below ∧ m' = m.withStack below := by
  obtain ⟨y, m₁, hpop, h⟩ := run_bind_eq_ok h
  obtain ⟨below, hstack, rfl⟩ := pop_ok hpop
  cases y <;> cases h
  exact ⟨below, hstack, rfl⟩

theorem popAddress_ok (h : popAddress.run m = .ok l m') :
    ∃ below, m.frame.stack = .address l :: below ∧ m' = m.withStack below := by
  obtain ⟨y, m₁, hpop, h⟩ := run_bind_eq_ok h
  obtain ⟨below, hstack, rfl⟩ := pop_ok hpop
  cases y <;> cases h
  exact ⟨below, hstack, rfl⟩

/-- Instructions that take a value for a place of a kind **do not tell** scalars that fit it alike. -/
theorem run_taking (hi : i.TakesFor r j) (h : Value.fit (some j) (.scalar s) = Value.fit (some j) (.scalar t)) :
    (i.execute r).run (m.withStack (.scalar s :: rest)) = (i.execute r).run (m.withStack (.scalar t :: rest)) := by
  have hop : ∀ o : Op, o.execute.run (m.withStack (.scalar s :: rest)) = o.execute.run (m.withStack (.scalar t :: rest)) →
      (Instruction.execute r (.op o)).run (m.withStack (.scalar s :: rest)) =
        (Instruction.execute r (.op o)).run (m.withStack (.scalar t :: rest)) := by
    intro o ho
    rw [Instruction.execute, run_bind, run_bind, ho]
  cases hi with
  | argument i =>
    refine hop _ ?_
    rw [Op.execute, run_popFit_bind, run_popFit_bind, h]
  | «variable» i =>
    refine hop _ ?_
    rw [Op.execute, run_popFit_bind, run_popFit_bind, h]
  | pointee =>
    refine hop _ ?_
    rw [Op.execute, run_popFit_bind, run_popFit_bind, h]
  | item =>
    refine hop _ ?_
    rw [Op.execute, run_popFit_bind, run_popFit_bind, h]
  | field hf ht =>
    refine hop _ ?_
    rw [Op.execute, run_bind_ok (run_slotNumber hf), run_bind_ok (run_slotNumber hf), ht, run_popFit_bind,
      run_popFit_bind, h]
  | static hf =>
    refine hop _ ?_
    rw [Op.execute, hf, run_popFit_bind, run_popFit_bind, h]
  | box ht =>
    refine hop _ ?_
    rw [run_box _ rfl fun _ => Value.noConfusion, run_box _ rfl fun _ => Value.noConfusion, ht, h]
    rfl
  | result hret ht =>
    rw [Instruction.execute, hret, result, ht, run_popFit_bind, run_popFit_bind, h]

/-- A value that was stored at a location that there is **is there**. -/
theorem at_of_store (h : (store l w).run m = .ok () m') (hl : m.Has l) : m'.at? l.spot = some w := by
  cases l with
  | argument i => exact getElem?_of_slot ((read_store h rfl).trans (if_pos rfl))
  | «variable» i => exact getElem?_of_slot ((read_store h rfl).trans (if_pos rfl))
  | element a i =>
    rw [store, run_lift, Host.run_setItem] at h
    cases hcheck : m.world.heap.checkItem a (indexOf i) with
    | error f =>
      rw [hcheck] at h
      cases h
    | ok u =>
      rw [hcheck] at h
      cases h
      exact Machine.at_setItem hcheck w
  | boxed b =>
    cases h
    have hb := hl b rfl
    show (m.world.heap.setBox b w).boxes[b.index]?.map BoxCell.content = some w
    simp [Heap.setBox, Array.getElem?_modify, Array.getElem?_eq_getElem hb]

/-- What an instruction takes for a place of a kind **comes there** as it fits the kind. -/
theorem run_taken {p : Progress} (hi : i.TakesFor r j)
    (h : (i.execute r).run (m.withStack (.scalar s :: rest)) = .ok p m') :
    i.Puts rest (Value.fit (some j) (.scalar s)) m m' p := by
  have hop : ∀ {o : Op}, (Instruction.execute r (.op o)).run (m.withStack (.scalar s :: rest)) = .ok p m' →
      o.execute.run (m.withStack (.scalar s :: rest)) = .ok () m' := by
    intro o ho
    obtain ⟨u, m₁, hrun, hdone⟩ := run_bind_eq_ok ho
    cases hdone
    exact hrun
  cases hi with
  | argument i =>
    have h := hop h
    rw [Op.execute, run_popFit_bind] at h
    exact at_of_store (l := .argument i) h fun b hb => by cases hb
  | «variable» i =>
    have h := hop h
    rw [Op.execute, run_popFit_bind] at h
    exact at_of_store (l := .variable i) h fun b hb => by cases hb
  | pointee =>
    have h := hop h
    rw [Op.execute, run_popFit_bind] at h
    obtain ⟨l, m₁, hpop, hstore⟩ := run_bind_eq_ok h
    obtain ⟨below, rfl, rfl⟩ := popAddress_ok hpop
    exact ⟨l, below, rfl, fun hl => at_of_store hstore hl⟩
  | item =>
    have h := hop h
    rw [Op.execute, run_popFit_bind] at h
    obtain ⟨n, m₁, hindex, h⟩ := run_bind_eq_ok h
    obtain ⟨a, m₂, harray, h⟩ := run_bind_eq_ok h
    obtain ⟨y, below, rfl, hy, rfl⟩ := popIndex_ok hindex
    obtain ⟨below', hbelow, rfl⟩ := popArray_ok harray
    obtain rfl : below = .array a :: below' := hbelow
    refine ⟨y, a, n, below', rfl, hy, ?_⟩
    rw [run_lift, Host.run_setItem] at h
    cases hcheck : m.world.heap.checkItem a n with
    | error f =>
      simp only [Machine.world_withStack, hcheck] at h
      cases h
    | ok u =>
      simp only [Machine.world_withStack, hcheck] at h
      cases h
      exact Machine.at_setItem hcheck _
  | field hf ht =>
    have h := hop h
    rw [Op.execute, run_bind_ok (run_slotNumber hf), ht, run_popFit_bind] at h
    obtain ⟨y, m₁, hpop, h⟩ := run_bind_eq_ok h
    obtain ⟨below, rfl, rfl⟩ := pop_ok hpop
    exact ⟨y, _, below, rfl, hf, fieldOf_of_setFieldOf h⟩
  | @static f ht =>
    have h := hop h
    rw [Op.execute, ht, run_popFit_bind, Field.staticId?] at h
    cases hf : f.storage with
    | slot n =>
      rw [hf] at h
      cases h
    | static id =>
      rw [hf] at h
      cases h
      exact ⟨id, hf, fun hid => Array.getElem?_setIfInBounds_self_of_lt hid⟩
  | box ht =>
    have h := hop h
    rw [run_box _ rfl fun _ => Value.noConfusion, ht] at h
    cases h
    exact ⟨_, rfl, Heap.boxCell_allocBox_new _⟩
  | result hret ht =>
    rw [Instruction.execute, hret, result, ht, run_popFit_bind] at h
    cases h
    rfl

/-! ## (2) What is handed back -/

/-- Once the body has returned, the receiver is written back, and what fits the result is pushed. -/
theorem exists_settle {f : Method} {T : Ty} (hret : f.ret = some T) (origin : Option Location) (left : List Value) :
    ∃ back : Exec Unit, ∀ v, settle f origin v left = back >>= fun _ => push (Value.fit T.storedAs? v) := by
  have hpush : ∀ v, settle f none v left = push (Value.fit T.storedAs? v) := by
    intro v
    unfold settle
    rw [hret]
  cases origin with
  | none => exact ⟨pure (), hpush⟩
  | some p =>
    cases left with
    | nil =>
      refine ⟨pure (), fun v => ?_⟩
      unfold settle
      rw [hret]
      rfl
    | cons this left =>
      refine ⟨store p this, fun v => ?_⟩
      unfold settle
      rw [hret]

/-- A body that hands back a value does what it does, and what follows gets the value. -/
theorem lift_giving (g : List Value → Host (List Value)) (v : Value) (args : List Value)
    (k : Value × List Value → Exec α) :
    ((liftM (HostBody.giving g v args) : Exec (Value × List Value)) >>= k) =
      (liftM (g args) : Exec (List Value)) >>= fun left => k (v, left) := by
  funext m
  show ((liftM (HostBody.giving g v args) : Exec (Value × List Value)) >>= k).run m =
    ((liftM (g args) : Exec (List Value)) >>= fun left => k (v, left)).run m
  have hbody : (HostBody.giving g v args).run m.world = (g args >>= fun left => pure (v, left)).run m.world := rfl
  rw [run_bind, run_bind, run_lift, run_lift, hbody, Host.run_bind]
  cases (g args).run m.world <;> rfl

/-- A call of a body that hands back a value is what comes before, and the push of what fits the result. -/
theorem exists_call_giving {f : Method} {T : Ty} (hret : f.ret = some T) (g : List Value → Host (List Value)) :
    ∃ before : Exec Unit, ∀ v, call { f with body := .giving g v } = before >>= fun _ => push (Value.fit T.storedAs? v) := by
  choose back hback using exists_settle hret
  refine ⟨do
    let r ← openReceiver f (← popMany f.arity)
    back r.2 (← (g r.1 : Host _)), fun v => ?_⟩
  have hcall : call { f with body := .giving g v } = (do
      let r ← openReceiver f (← popMany f.arity)
      let q ← (HostBody.giving g v r.1 : Host _)
      settle f r.2 q.1 q.2) := rfl
  rw [hcall]
  simp only [bind_assoc]
  refine bind_congr fun vs => bind_congr fun r => ?_
  rw [lift_giving]
  exact bind_congr fun left => hback r.2 left v

end Exec

/-! ## (3) What is passed -/

namespace Procedure

variable {p : Procedure} {i : Nat} {T : Ty} {args : List Value} {x y : Value}

/-- An argument that a procedure is entered with is made to fit its type. -/
theorem getElem?_args_frame (hT : p.signature.args[i]? = some T) (hi : i < args.length) :
    (p.frame (args.set i x)).args[i]? = some (Value.fit T.storedAs? x) := by
  show ((args.set i x).zipWith (fun v t => Value.fit t.storedAs? v) p.signature.args).toArray[i]? = _
  rw [List.getElem?_toArray, List.getElem?_zipWith, List.getElem?_set_self hi, hT]

/-- Arguments that fit their type alike make the same frame. -/
theorem frame_set (hT : p.signature.args[i]? = some T) (h : Value.fit T.storedAs? x = Value.fit T.storedAs? y) :
    p.frame (args.set i x) = p.frame (args.set i y) := by
  have hargs : (args.set i x).zipWith (fun v t => Value.fit t.storedAs? v) p.signature.args =
      (args.set i y).zipWith (fun v t => Value.fit t.storedAs? v) p.signature.args := by
    apply List.ext_getElem?
    intro n
    rw [List.getElem?_zipWith, List.getElem?_zipWith]
    by_cases hn : i = n
    · subst hn
      by_cases hi : i < args.length
      · rw [List.getElem?_set_self hi, List.getElem?_set_self hi, hT]
        exact congrArg some h
      · rw [List.set_eq_of_length_le (Nat.le_of_not_lt hi), List.set_eq_of_length_le (Nat.le_of_not_lt hi)]
    · rw [List.getElem?_set_ne hn, List.getElem?_set_ne hn]
  rw [frame, frame, hargs]

/-- So they make the same call. -/
theorem call_set (hT : p.signature.args[i]? = some T) (h : Value.fit T.storedAs? x = Value.fit T.storedAs? y)
    (fuel : Nat) : p.call fuel (args.set i x) = p.call fuel (args.set i y) := by
  funext w
  rw [call, call, List.length_set, List.length_set, frame_set hT h]

end Procedure

/-! ## (4) Scalars -/

/-- A scalar that fits a kind of words is left as it is by a conversion to the kind. -/
theorem Scalar.convert_convert (s : Scalar) (k : WordKind) : (s.convert (.word k)).convert (.word k) = s.convert (.word k) := by
  obtain ⟨v, hv⟩ : ∃ v, s.convert (.word k) = .word k v := ⟨_, convert_eq _ _⟩
  rw [hv, convert_word, wrap_wordValue]

/-- A scalar **comes as** what it is converted to, to all places of a kind of words. -/
theorem Value.comesAs_convert (s : Scalar) (k : WordKind) :
    Value.ComesAs (.word k) (.scalar s) (.scalar (s.convert (.word k))) := by
  have hfit : Value.fit (some (.word k)) (.scalar s) = Value.fit (some (.word k)) (.scalar (s.convert (.word k))) := by
    rw [Value.fit_scalar, Value.fit_scalar, Scalar.convert_convert]
  refine ⟨fun ret i m rest hi => Exec.run_taking hi hfit, fun ret i m m' rest p hi h => Exec.run_taken hi h,
    fun f T g m hret hT => ?_, fun f T g m m' hret hT h => ?_, fun p fuel i T args hT hk => ?_,
    fun p i T args hT hk hi => ?_⟩
  · obtain ⟨before, hcall⟩ := Exec.exists_call_giving hret g
    rw [hcall, hcall, hT, hfit]
  · obtain ⟨before, hcall⟩ := Exec.exists_call_giving hret g
    rw [hcall, hT] at h
    obtain ⟨u, m₁, -, hpush⟩ := Exec.run_bind_eq_ok h
    cases hpush
    exact ⟨m₁.frame.stack, rfl⟩
  · exact p.call_set hT (by rw [hk, hfit]) fuel
  · rw [p.getElem?_args_frame hT hi, hk, Value.fit_scalar]

end Stackwright
