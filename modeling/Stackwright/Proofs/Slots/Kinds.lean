import Mathlib.Algebra.Group.Int.Defs
import Stackwright.Proofs.Machine.Frames
import Stackwright.Proofs.Machine.Visits

/-! # Slots keep their kinds

An argument or a local of a primitive or enumeration type should only ever hold scalars of the kind that
it is stored as. Every store that an instruction makes on its own makes its value fit; what a call writes
back into its receiver is the one exception, for it is whatever the body leaves. So a run keeps all slots
to their kinds **exactly as long as no body leaves a scalar of another kind** in the place of a slot.

* **`Procedure.Kinded p m`** — no slot of a machine holds a scalar of another kind than its own.
* **`Procedure.Fitting p`** — every store of the code is of the kind of its slot.
* **`Procedure.Aimed p start`** — writes through addresses name types of the kind of the slot they write.
* **`Procedure.Strays p n m`** — the call at a position leaves a scalar of another kind in a slot. -/

namespace Stackwright

/-! ## What a kind spans -/

/-- The least integer of a word. -/
def WordKind.least (k : WordKind) : Int := if k.signed then -2 ^ (k.bits - 1) else 0

/-- The greatest integer of a word. -/
def WordKind.greatest (k : WordKind) : Int :=
  if k.signed then 2 ^ (k.bits - 1) - 1 else 2 ^ k.bits - 1

/-- The numbers that scalars of a kind **stand for**. -/
def ScalarKind.Spans : ScalarKind → Number → Prop
  | .bool, n => n = .int 0 ∨ n = .int 1
  | .word k, n => ∃ i, n = .int i ∧ k.least ≤ i ∧ i ≤ k.greatest
  | .float k, n => ∃ v : BitVec k.bits, n = .float (Scalar.widen k v)

/-- A scalar stands for a number that its kind spans. -/
theorem Scalar.spans (s : Scalar) : s.kind.Spans s.toNumber := by
  cases s with
  | bool b => cases b <;> simp [ScalarKind.Spans, kind, toNumber]
  | float k v => exact ⟨v, rfl⟩
  | word k v =>
    refine ⟨_, rfl, ?_⟩
    rw [wordValue_eq, WordKind.least, WordKind.greatest]
    split
    · have hlow := BitVec.le_toInt v
      have hhigh := BitVec.toInt_lt (x := v)
      omega
    · have hlt := v.isLt
      have hcast : (v.toNat : Int) < 2 ^ k.bits := by exact_mod_cast hlt
      omega

/-- The zero of a type is a scalar only if the type is stored as one. -/
theorem Value.storedAs_of_zeroOf {t : Ty} {s : Scalar} (h : zeroOf t = .scalar s) :
    t.storedAs? = some s.kind := by
  cases t <;> simp only [zeroOf] at h <;> cases h <;>
    simp [Ty.storedAs?, Scalar.zero, Scalar.kind_ofNumber]

/-! ## Slots of a procedure -/

namespace Procedure

/-- The declared type of a **slot**; other locations are none. -/
def slotType? (p : Procedure) : Location → Option Ty
  | .argument i => p.signature.args[i]?
  | .variable i => p.locals[i]?
  | .element .. | .boxed _ => none

/-- The kind of scalar that a slot is declared to hold. -/
def slotKind? (p : Procedure) (l : Location) : Option ScalarKind := (p.slotType? l).bind Ty.storedAs?

/-- No slot of a machine holds a scalar of **another kind** than it is declared with. -/
def Kinded (p : Procedure) (m : Machine) : Prop :=
  ∀ l k s, p.slotKind? l = some k → m.read l = .ok (.scalar s) → s.kind = k

/-- A store of the code is of the kind of its slot. -/
def Takes (p : Procedure) : Op → Prop
  | .storeArg i kind => ∃ t, p.slotType? (.argument i) = some t ∧ kind = t.storedAs?
  | .storeLocal i kind => ∃ t, p.slotType? (.variable i) = some t ∧ kind = t.storedAs?
  | _ => True

/-- Every store of the code is of the kind of its slot. -/
def Fitting (p : Procedure) : Prop := ∀ (n : Nat) (o : Op), p.code[n]? = some (.op o) → p.Takes o

/-- An operation that writes to a slot through its address **names a type** of the kind of the slot. -/
def Aims (p : Procedure) (m : Machine) : Op → Prop
  | .storeThrough kind => ∀ v l rest t, m.frame.stack = v :: .address l :: rest →
      p.slotType? l = some t → kind = t.storedAs?
  | .zeroThrough named => ∀ l rest t, m.frame.stack = .address l :: rest →
      p.slotType? l = some t → named.storedAs? = t.storedAs?
  | _ => True

/-- So does every operation that a run gets to. -/
def Aimed (p : Procedure) (start : Machine) : Prop :=
  ∀ n m o, p.Visits start n m → p.code[n]? = some (.op o) → p.Aims m o

/-- The instruction at a position calls a method on a slot, and the body leaves a scalar of **another kind**
than the slot is declared with. -/
def Strays (p : Procedure) (n : Nat) (m : Machine) : Prop :=
  ∃ f l k s m', p.code[n]? = some (.op (.call f)) ∧ (Op.call f).execute.run m = .ok () m' ∧
    m.LeavesReceiver f l (.scalar s) ∧ p.slotKind? l = some k ∧ s.kind ≠ k

variable {p : Procedure} {m m' start : Machine} {l : Location} {v : Value} {o : Op} {n : Nat}

theorem isSlot_of_slotType {t : Ty} (h : p.slotType? l = some t) : l.isSlot := by
  cases l <;> first | rfl | cases h

/-- The kind of a slot is that of its type. -/
theorem slotKind_eq {k : ScalarKind} :
    p.slotKind? l = some k ↔ ∃ t, p.slotType? l = some t ∧ t.storedAs? = some k :=
  Option.bind_eq_some_iff

/-! ## One step -/

/-- Machines with the same slots keep to the same kinds. -/
theorem Kinded.same (hm : p.Kinded m) (h : m.SameSlots m') : p.Kinded m' := by
  intro l k s hk hread
  obtain ⟨t, ht, -⟩ := slotKind_eq.1 hk
  exact hm l k s hk (by rw [← h.read (isSlot_of_slotType ht), hread])

/-- A store keeps slots to their kinds **exactly when** the value is no scalar of another kind than that of
the slot. -/
theorem kinded_store_iff (hm : p.Kinded m) (h : (Exec.store l v).run m = .ok () m') :
    p.Kinded m' ↔ ∀ k s, p.slotKind? l = some k → v = .scalar s → s.kind = k := by
  constructor
  · intro hm' k s hk hv
    obtain ⟨t, ht, -⟩ := slotKind_eq.1 hk
    refine hm' l k s hk ?_
    rw [Exec.read_store h (isSlot_of_slotType ht), if_pos rfl, hv]
  · intro hv l' k s hk hread
    obtain ⟨t, ht, -⟩ := slotKind_eq.1 hk
    rw [Exec.read_store h (isSlot_of_slotType ht)] at hread
    by_cases hl : l' = l
    · subst hl
      rw [if_pos rfl] at hread
      exact hv k s hk (Except.ok.inj hread)
    · rw [if_neg hl] at hread
      exact hm l' k s hk hread

/-- A value that was made to fit a slot is no scalar of another kind. -/
theorem kind_of_fit {k : ScalarKind} {s : Scalar} (h : Value.fit (some k) v = .scalar s) :
    s.kind = k := by
  cases v <;> cases h
  exact Scalar.kind_convert _ _

theorem Kinded.storeFit (hm : p.Kinded m) {t : Ty} (ht : p.slotType? l = some t)
    (h : (Exec.store l (Value.fit t.storedAs? v)).run m = .ok () m') : p.Kinded m' := by
  refine (kinded_store_iff hm h).2 fun k s hk hv => ?_
  obtain ⟨t', ht', hk⟩ := slotKind_eq.1 hk
  obtain rfl : t = t' := Option.some.inj (ht.symm.trans ht')
  rw [hk] at hv
  exact kind_of_fit hv

/-- What is stored in a place that is no slot does not matter. -/
theorem Kinded.storeElsewhere (hm : p.Kinded m) (hl : p.slotType? l = none)
    (h : (Exec.store l v).run m = .ok () m') : p.Kinded m' :=
  (kinded_store_iff hm h).2 fun k s hk hv => by
    obtain ⟨t, ht, -⟩ := slotKind_eq.1 hk
    rw [hl] at ht
    cases ht

/-- Popping a value for a store leaves a machine with the same slots, and the value is made to fit. -/
theorem exists_of_popFit {kind : Option ScalarKind} {α : Type} {f : Value → Exec α} {a : α}
    (h : (Exec.popFit kind >>= f).run m = .ok a m') :
    ∃ v rest, m.frame.stack = v :: rest ∧ (f (Value.fit kind v)).run (m.withStack rest) = .ok a m' := by
  cases hstack : m.frame.stack with
  | nil =>
    have hpop : (Exec.popFit kind).run m = .error (.fault .stackUnderflow) m := by
      obtain ⟨⟨args, locals, stack⟩, world⟩ := m
      cases hstack
      rfl
    rw [Exec.run_bind_error hpop] at h
    cases h
  | cons v rest =>
    have hpop : (Exec.popFit kind).run m = .ok (Value.fit kind v) (m.withStack rest) := by
      rw [Exec.popFit, Exec.run_bind_ok (Exec.run_pop hstack)]
      rfl
    rw [Exec.run_bind_ok hpop] at h
    exact ⟨v, rest, rfl, h⟩

/-- Popping an address leaves a machine with the same slots. -/
theorem exists_of_popAddress {α : Type} {f : Location → Exec α} {a : α}
    (h : (Exec.popAddress >>= f).run m = .ok a m') :
    ∃ l rest, m.frame.stack = .address l :: rest ∧ (f l).run (m.withStack rest) = .ok a m' := by
  cases hstack : m.frame.stack with
  | nil =>
    have hpop : Exec.popAddress.run m = .error (.fault .stackUnderflow) m := by
      obtain ⟨⟨args, locals, stack⟩, world⟩ := m
      cases hstack
      rfl
    rw [Exec.run_bind_error hpop] at h
    cases h
  | cons v rest =>
    rw [Exec.popAddress, bind_assoc, Exec.run_bind_ok (Exec.run_pop hstack)] at h
    cases v with
    | address l => exact ⟨l, rest, rfl, h⟩
    | _ => cases h

theorem sameSlots_withStack (m : Machine) (stack : List Value) : m.SameSlots (m.withStack stack) :=
  ⟨rfl, rfl⟩

/-- A field that is stored into a struct leaves a struct behind, and an object stays itself. -/
theorem not_scalar_of_withField {target : Value} {i : Nat} {changed : Value}
    (h : (Exec.withField target i v).run m = .ok changed m') : ∀ s, changed ≠ .scalar s := by
  cases target with
  | struct t fields =>
    simp only [Exec.withField] at h
    split at h
    · cases h
      exact nofun
    · cases h
  | object o =>
    simp only [Exec.withField, Exec.run_bind] at h
    split at h <;> cases h
    exact nofun
  | _ => cases h

theorem Kinded.putField (hm : p.Kinded m) {receiver : Value} {i : Nat}
    (h : (Exec.setFieldOf receiver i v).run m = .ok () m') : p.Kinded m' := by
  cases receiver with
  | object o => exact hm.same (Exec.spares_lift (Host.setField o i v) m m' () h)
  | address l =>
    have hstart : (Exec.load l >>= fun w => Exec.withField w i v >>= Exec.store l).run m = .ok () m' := h
    rw [Exec.run_bind] at hstart
    split at hstart
    · rename_i w m₁ hload
      rw [Exec.run_bind] at hstart
      split at hstart
      · rename_i changed m₂ hchanged
        have hm₂ := (hm.same (Exec.spares_load l _ _ _ hload)).same
          (Exec.spares_withField w i v _ _ _ hchanged)
        -- what is put back is a structure, and kinds are asked of scalars only
        exact (kinded_store_iff hm₂ hstart).2 fun k s _ hs =>
          absurd hs (not_scalar_of_withField hchanged s)
      · cases hstart
    · cases hstart
  | boxed b =>
    have hspares : (Exec.setFieldOf (.boxed b) i v).SparesSlots :=
      (Exec.spares_lift _).bind fun _ => (Exec.spares_withField _ _ _).bind fun _ => Exec.spares_lift _
    exact hm.same (hspares m m' () h)
  | _ => cases h

/-! ## Calls -/

variable {f : Method} {result : Value} {left : List Value}

/-- The result is pushed. -/
theorem sameSlots_pushResult (h : (match f.ret with
    | some t => Exec.push (Value.fit t.storedAs? result)
    | none => pure () : Exec Unit).run m = .ok () m') : m.SameSlots m' := by
  split at h
  · exact Exec.spares_push _ m m' () h
  · exact Exec.spares_pure _ m m' () h

/-- Once a body has returned, a receiver given by its address is written back. -/
theorem exists_of_settle (h : (Exec.settle f (some l) result (v :: left)).run m = .ok () m') :
    ∃ m₁, (Exec.store l v).run m = .ok () m₁ ∧ m₁.SameSlots m' := by
  unfold Exec.settle at h
  rw [Exec.run_bind] at h
  split at h
  · rename_i u m₁ hstore
    exact ⟨m₁, hstore, sameSlots_pushResult h⟩
  · cases h

/-- Any other receiver is not. -/
theorem sameSlots_of_settle {origin : Option Location} (ho : origin = none ∨ left = [])
    (h : (Exec.settle f origin result left).run m = .ok () m') : m.SameSlots m' := by
  have hrest : (Exec.settle f origin result left) = (do
      pure ()
      match f.ret with
      | some t => Exec.push (Value.fit t.storedAs? result)
      | none => pure ()) := by
    unfold Exec.settle
    rcases ho with rfl | rfl
    · rfl
    · cases origin <;> rfl
  rw [hrest] at h
  exact sameSlots_pushResult h

/-- A call keeps slots to their kinds **exactly when** its body leaves no scalar of another kind in the
place of one. -/
theorem kinded_call_iff (hm : p.Kinded m) (h : (Exec.call f).run m = .ok () m') :
    p.Kinded m' ↔
      ∀ l k s, m.LeavesReceiver f l (.scalar s) → p.slotKind? l = some k → s.kind = k := by
  cases Exec.called_of_call h with
  | @plain origin result left below w hleaves ho hsettle =>
    have hsame : Machine.SameSlots m { m.withStack below with world := w } := ⟨rfl, rfl⟩
    exact ⟨fun _ l _ s hl => absurd hl (hleaves l _),
      fun _ => hm.same (hsame.trans (sameSlots_of_settle ho hsettle))⟩
  | @back l v result rest below w hleaves hsettle =>
    have hsame : Machine.SameSlots m { m.withStack below with world := w } := ⟨rfl, rfl⟩
    obtain ⟨m₁, hstore, hsame'⟩ := exists_of_settle hsettle
    have hiff := kinded_store_iff (hm.same hsame) hstore
    constructor
    · intro hm' l' k s hl hk
      obtain ⟨rfl, rfl⟩ := hl.unique hleaves
      exact hiff.1 (hm'.same ⟨hsame'.args.symm, hsame'.locals.symm⟩) k s hk rfl
    · intro hkinds
      refine (hiff.2 fun k s hk hv => ?_).same hsame'
      subst hv
      exact hkinds l k s hleaves hk

/-! ## Every operation -/

/-- **One operation**: if it names the kinds of the slots that it writes, it keeps all slots to their kinds,
unless it calls a method on a slot whose body leaves a scalar of another kind there. -/
theorem kinded_execute_iff (hm : p.Kinded m) (ho : p.Takes o) (ha : p.Aims m o)
    (h : o.execute.run m = .ok () m') :
    p.Kinded m' ↔ ∀ f l k s, o = .call f → m.LeavesReceiver f l (.scalar s) →
      p.slotKind? l = some k → s.kind = k := by
  have hkept : p.Kinded m' → (∀ f, o ≠ .call f) → (p.Kinded m' ↔ ∀ f l k s, o = .call f →
      m.LeavesReceiver f l (.scalar s) → p.slotKind? l = some k → s.kind = k) :=
    fun hm' hcall => ⟨fun _ f _ _ _ hf => absurd hf (hcall f), fun _ => hm'⟩
  -- an operation that writes no slot keeps all kinds; of the others only a call may not
  cases hw : o.writesSlot with
  | false =>
    exact hkept (hm.same (o.spares_execute hw m m' () h)) fun f hf => by
      rw [hf] at hw
      cases hw
  | true =>
    cases o with
    | call f =>
      rw [kinded_call_iff hm h]
      constructor
      · rintro hkinds g l k s hg
        cases hg
        exact hkinds l k s
      · exact fun hkinds l k s => hkinds f l k s rfl
    | storeArg i kind =>
      obtain ⟨t, ht, rfl⟩ := ho
      obtain ⟨v, rest, -, hstore⟩ := exists_of_popFit (f := Exec.store (.argument i)) h
      exact hkept ((hm.same (sameSlots_withStack m rest)).storeFit ht hstore) nofun
    | storeLocal i kind =>
      obtain ⟨t, ht, rfl⟩ := ho
      obtain ⟨v, rest, -, hstore⟩ := exists_of_popFit (f := Exec.store (.variable i)) h
      exact hkept ((hm.same (sameSlots_withStack m rest)).storeFit ht hstore) nofun
    | storeThrough kind =>
      obtain ⟨v, rest, hstack, hrest⟩ := exists_of_popFit h
      obtain ⟨l, rest', hstack', hstore⟩ := exists_of_popAddress hrest
      have hm₁ : p.Kinded ((m.withStack rest).withStack rest') :=
        hm.same ((sameSlots_withStack m rest).trans (sameSlots_withStack _ rest'))
      refine hkept ?_ nofun
      cases ht : p.slotType? l with
      | none => exact hm₁.storeElsewhere ht hstore
      | some t =>
        rw [ha v l rest' t (hstack.trans (congrArg _ hstack')) ht] at hstore
        exact hm₁.storeFit ht hstore
    | zeroThrough named =>
      obtain ⟨l, rest, hstack, hstore⟩ := exists_of_popAddress h
      have hm₁ : p.Kinded (m.withStack rest) := hm.same (sameSlots_withStack m rest)
      refine hkept ((kinded_store_iff hm₁ hstore).2 fun k s hk hs => ?_) nofun
      obtain ⟨t, ht, hkind⟩ := slotKind_eq.1 hk
      have hnamed := Value.storedAs_of_zeroOf hs
      rw [ha l rest t hstack ht, hkind] at hnamed
      exact (Option.some.inj hnamed).symm
    | putField f =>
      have hput : (Exec.slotNumber f >>= fun i => Exec.popFit f.type.storedAs? >>= fun v =>
          Exec.pop >>= fun r => Exec.setFieldOf r i v).run m = .ok () m' := h
      rw [Exec.run_bind] at hput
      split at hput
      · rename_i i m₁ hslot
        have hm₁ := hm.same (Exec.spares_slotNumber f _ _ _ hslot)
        obtain ⟨v, rest, -, hrest⟩ := exists_of_popFit hput
        rw [Exec.run_bind] at hrest
        split at hrest
        · rename_i r m₂ hpop
          have hm₂ := (hm₁.same (sameSlots_withStack m₁ rest)).same (Exec.spares_pop _ _ _ hpop)
          exact hkept (hm₂.putField hrest) nofun
        · cases hrest
      · cases hput
    | _ => cases hw

/-! ## Whole runs -/

/-- Arguments are made to fit their slots, and locals start as zeros. -/
theorem kinded_start (p : Procedure) (args : List Value) (w : World) : p.Kinded ⟨p.frame args, w⟩ := by
  intro l k s hk hread
  obtain ⟨t, ht, hkind⟩ := slotKind_eq.1 hk
  have hheld : ∀ {slots : List Value} {i : Nat},
      Machine.read.slot slots.toArray i = .ok (.scalar s) → slots[i]? = some (.scalar s) := by
    intro slots i h
    unfold Machine.read.slot at h
    split at h
    · rename_i v hv
      cases h
      simpa using hv
    · cases h
  cases l with
  | argument i =>
    obtain ⟨v, t', -, ht', hfit⟩ := List.getElem?_zipWith_eq_some.1 (hheld hread)
    obtain rfl : t = t' := Option.some.inj (ht.symm.trans ht')
    rw [hkind] at hfit
    exact kind_of_fit hfit
  | «variable» i =>
    have hzero := hheld hread
    rw [List.getElem?_map, show p.locals[i]? = some t from ht] at hzero
    have hstored := Value.storedAs_of_zeroOf (Option.some.inj hzero)
    exact Option.some.inj (hstored.symm.trans hkind)
  | element a i => cases ht
  | boxed b => cases ht

/-- An operation that is done goes on with the next instruction. -/
theorem run_op_iff {ret : Option Ty} {g : Progress} :
    ((Instruction.op o).execute ret).run m = .ok g m' ↔ g = .next ∧ o.execute.run m = .ok () m' := by
  rw [Instruction.execute, Exec.run_bind]
  cases o.execute.run m with
  | ok u m₁ =>
    constructor
    · intro h
      cases h
      exact ⟨rfl, rfl⟩
    · rintro ⟨rfl, h⟩
      cases h
      rfl
  | error e m₁ =>
    constructor
    · intro h
      cases h
    · rintro ⟨-, h⟩
      cases h

/-- A jump leaves the slots alone. -/
theorem sameSlots_of_jump {ret : Option Ty} {j : Jump Nat} {g : Progress}
    (h : ((Instruction.jump j).execute ret).run m = .ok g m') : m.SameSlots m' := by
  have hspares : ((Instruction.jump j).execute ret).SparesSlots :=
    j.spares_follow.bind fun target => by
      cases target with
      | none => exact Exec.spares_pure _
      | some t => exact Exec.spares_pure _
  exact hspares m m' g h

/-- **One step** keeps slots to their kinds, unless it strays. -/
theorem Kinded.step {i : Instruction Nat} {g : Progress} (hp : p.Fitting) (ha : p.Aimed start)
    (hm : p.Kinded m) (hvisit : p.Visits start n m) (hn : ¬ p.Strays n m) (hi : p.code[n]? = some i)
    (hstep : (i.execute p.signature.ret).run m = .ok g m') : p.Kinded m' := by
  cases i with
  | op o =>
    obtain ⟨-, hrun⟩ := run_op_iff.1 hstep
    refine (kinded_execute_iff hm (hp n o hi) (ha n m o hvisit hi) hrun).2 fun f l k s ho hl hk => ?_
    subst ho
    exact Classical.byContradiction fun hne => hn ⟨f, l, k, s, m', hi, hrun, hl, hk, hne⟩
  | jump j => exact hm.same (sameSlots_of_jump hstep)
  | ret =>
    have hspares : (Instruction.ret.execute p.signature.ret).SparesSlots := by
      refine Exec.SparesSlots.bind ?_ fun v => Exec.spares_pure _
      cases p.signature.ret with
      | none => exact Exec.spares_pure _
      | some t => exact Exec.spares_popFit _
    exact hm.same (hspares m m' g hstep)

/-- **A run keeps all slots to their kinds** exactly when no call that it gets to strays. -/
theorem kinded_visits_iff (hp : p.Fitting) (ha : p.Aimed start) (hstart : p.Kinded start) :
    (∀ n m, p.Visits start n m → p.Kinded m) ↔ ∀ n m, p.Visits start n m → ¬ p.Strays n m := by
  constructor
  · rintro hkinded n m hvisit ⟨f, l, k, s, m', hi, hrun, hl, hk, hne⟩
    have hvisit' : p.Visits start (n + 1) m' := .next hvisit hi (run_op_iff.2 ⟨rfl, hrun⟩)
    exact hne ((kinded_call_iff (hkinded n m hvisit) hrun).1 (hkinded _ _ hvisit') l k s hl hk)
  · intro hstrays n m hvisit
    -- along the run: each step keeps what the steps before it kept
    induction hvisit with
    | start => exact hstart
    | next hvisit hi hstep ih => exact ih.step hp ha hvisit (hstrays _ _ hvisit) hi hstep
    | goto hvisit hi hstep ih => exact ih.step hp ha hvisit (hstrays _ _ hvisit) hi hstep

/-- What is loaded from a slot that keeps its kind is in the range of it. -/
theorem Kinded.spans (hm : p.Kinded m) {k : ScalarKind} {s : Scalar} (hk : p.slotKind? l = some k)
    (h : (Exec.load l).run m = .ok (.scalar s) m') : k.Spans s.toNumber := by
  rw [Exec.run_load] at h
  cases hread : m.read l with
  | error e =>
    rw [hread] at h
    cases h
  | ok v =>
    rw [hread] at h
    cases h
    exact hm l k s hk hread ▸ s.spans

/-- A **returned** scalar is of the kind of the return type. -/
theorem Closed.kind_of_call (hp : p.Closed) {args : List Value} {w w' : World} {fuel : Nat} {t : Ty}
    {k : ScalarKind} {s : Scalar} (ht : p.signature.ret = some t) (hk : t.storedAs? = some k)
    (h : (p.call fuel args).run w = .ok (.scalar s) w') : s.kind = k := by
  have hcall : p.call fuel args w = .ok (.scalar s) w' := h
  unfold call at hcall
  split at hcall
  · cases hrun : p.runFrom fuel 0 ⟨p.frame args, w⟩ with
    | error e m => simp [hrun] at hcall
    | ok v m =>
      rw [hrun] at hcall
      cases hcall
      obtain ⟨-, m₁, -, -, hresult⟩ := hp.returns .start hrun
      rw [ht, Exec.result, hk] at hresult
      have hfit : (Exec.popFit (some k) >>= pure).run m₁ = .ok (.scalar s) m := by
        rw [bind_pure]
        exact hresult
      obtain ⟨v, rest, -, hv⟩ := exists_of_popFit hfit
      injection hv with hv
      exact kind_of_fit hv
  · cases hcall

end Procedure

end Stackwright
