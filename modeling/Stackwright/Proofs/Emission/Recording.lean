import Stackwright.Proofs.Machine.Converting
import Stackwright.Proofs.Tracing.Passing

/-! # What calls record at every level

A straight-line call records the same operations at every level; a full trace puts reports and dumps
between them. What is claimed of the operations is claimed once, for every level, of linked code that has
them **among** reports and dumps.

* **`Op.Among sink k n os is`** — linked code at a position is the operations, with reports and dumps
  between.
* **`Session.WentOn s s' is`** — a session went on with linked code.
* **`Emit.Records e P`** — what an accepted `e` records is operations that satisfy `P`, among reports and
  dumps. -/

namespace Stackwright

/-! ## Operations among reports and dumps -/

/-- Linked code at a position that has operations **among** reports and dumps; the dumps use locals from `k`
on. -/
inductive Op.Among (sink : Sink) (k : Nat) : Nat → List Op → List (Instruction Nat) → Prop
  /-- Nothing. -/
  | nil (n : Nat) : Among sink k n [] []
  /-- An operation. -/
  | op {n : Nat} (o : Op) {os : List Op} {is : List (Instruction Nat)}
      (h : Among sink k (n + 1) os is) : Among sink k n (o :: os) (.op o :: is)
  /-- A report. -/
  | report {n : Nat} (text : String) {os : List Op} {is : List (Instruction Nat)}
      (h : Among sink k (n + 2) os is) :
      Among sink k n os (Op.straight [.push (.text text), .call (Builtin.report sink)] ++ is)
  /-- A dump. -/
  | dump {n j : Nat} (t : Ty) (hj : k ≤ j) {os : List Op} {is : List (Instruction Nat)}
      (h : Among sink k (n + (t.dumpCode sink n j).length) os is) :
      Among sink k n os (t.dumpCode sink n j ++ is)

namespace Op.Among

variable {sink : Sink} {k k' n : Nat} {os os' : List Op} {is is' : List (Instruction Nat)}

theorem fewer (h : Among sink k' n os is) (hk : k ≤ k') : Among sink k n os is := by
  induction h with
  | nil n => exact .nil n
  | op o _ ih => exact .op o ih
  | report text _ ih => exact .report text ih
  | dump t hj _ ih => exact .dump t (Nat.le_trans hk hj) ih

theorem append (h : Among sink k n os is) (h' : Among sink k (n + is.length) os' is') :
    Among sink k n (os ++ os') (is ++ is') := by
  induction h with
  | nil n => simpa using h'
  | @op n o os is _ ih =>
    refine .op o (ih ?_)
    rwa [List.length_cons, Nat.add_comm is.length, ← Nat.add_assoc] at h'
  | @report n text os is _ ih =>
    rw [List.append_assoc]
    refine .report text (ih ?_)
    rwa [List.length_append, Op.length_straight, ← Nat.add_assoc] at h'
  | @dump n j t hj os is _ ih =>
    rw [List.append_assoc]
    refine .dump t hj (ih ?_)
    rwa [List.length_append, ← Nat.add_assoc] at h'

/-- One operation. -/
theorem one (sink : Sink) (k n : Nat) (o : Op) : Among sink k n [o] [.op o] := .op o (.nil _)

/-- The report of a line is no operation of the call. -/
theorem of_line (t : Tracer) (s : Session) (text : String) (k n : Nat) :
    Among s.sink k n [] (Op.straight (t.report s text)) := by
  unfold Tracer.report
  split
  · rw [← List.append_nil (Op.straight _)]
    exact .report _ (.nil _)
  · exact .nil n

end Op.Among

/-! ## Sessions -/

/-- A session **went on** with linked code. -/
structure Session.WentOn (s s' : Session) (is : List (Instruction Nat)) : Prop where
  /-- The session grew. -/
  grows : s.Grows s'
  /-- The code goes on with the linked code. -/
  spells : s'.Spells s.code.size is
  /-- Nothing else is recorded. -/
  size : s'.code.size = s.code.size + is.length

namespace Session

variable {s s' s'' : Session} {is is' : List (Instruction Nat)}

theorem Grows.locals_size (h : s.Grows s') : s.locals.size ≤ s'.locals.size := by
  refine Nat.le_of_not_gt fun hlt => ?_
  have hsome := h.locals (Array.getElem?_eq_getElem hlt)
  exact Nat.lt_irrefl _ (Array.getElem?_eq_some_iff.1 hsome).1

theorem Grows.sink (h : s.Grows s') : s'.sink = s.sink := by
  have hfixed := h.fixed
  simp only [Prod.mk.injEq] at hfixed
  exact hfixed.2.2.1

theorem Wrote.wentOn {slots : Nat} (h : s.Wrote s' slots is) : s.WentOn s' is :=
  ⟨h.grows, h.spells, h.size⟩

theorem WentOn.trans (h : s.WentOn s' is) (h' : s'.WentOn s'' is') : s.WentOn s'' (is ++ is') where
  grows := h.grows.trans h'.grows
  spells := (h.spells.extends h'.grows.extends).append (h.size ▸ h'.spells)
  size := by rw [h'.size, h.size, List.length_append, Nat.add_assoc]

theorem wentOn_recorded (s : Session) (os : List Op) : s.WentOn (s.recorded os) (Op.straight os) :=
  (s.wrote_recorded os).wentOn

theorem wentOn_refl (s : Session) : s.WentOn s [] where
  grows := .refl s
  spells _ _ h := by simp at h
  size := rfl

/-- A line goes on with its report. -/
theorem wentOn_written (s : Session) (t : Tracer) (text : String) :
    s.WentOn (s.written t text) (Op.straight (t.report s text)) where
  grows := s.grows_written t text
  spells := by
    refine spells_of_link (fun j i hi => getElem?_of_recorded (s.code_written t text) hi) ?_
    rw [Op.straight]
    induction t.report s text with
    | nil => exact .nil
    | cons o os ih => exact .cons rfl ih
  size := by simp [code_written]

end Session

/-! ## Emission calls -/

namespace Emit

variable {α β : Type} {e : Emit α} {f : α → Emit β} {P Q : α → List Op → Prop}
  {R : β → List Op → Prop}

/-- Whatever an accepted call **records**, at every level, is operations that satisfy a property, among
reports and dumps. -/
def Records (e : Emit α) (P : α → List Op → Prop) : Prop :=
  ∀ (level : TraceDetail) (s s' : Session) (a : α), 0 < s.labels.entries.size →
    (e.run (.ofLevel level)).run s = .ok a s' →
    ∃ os is, P a os ∧ s.WentOn s' is ∧ Op.Among s.sink s.locals.size s.code.size os is

theorem Records.mono (h : e.Records P) (hpq : ∀ a os, P a os → Q a os) : e.Records Q := by
  intro level s s' a hs hrun
  obtain ⟨os, is, hos, hwent, hamong⟩ := h level s s' a hs hrun
  exact ⟨os, is, hpq a os hos, hwent, hamong⟩

/-- Calls one after the other record their operations one after the other. -/
theorem Records.bind (he : e.Records P)
    (hf : ∀ a os, P a os → (f a).Records fun b os' => R b (os ++ os')) : (e >>= f).Records R := by
  intro level s s' b hs hrun
  rw [run_bind] at hrun
  split at hrun
  · rename_i a s₁ hone
    obtain ⟨os, is, hos, hwent, hamong⟩ := he level s s₁ a hs hone
    have hpos : 0 < s₁.labels.entries.size := Nat.lt_of_lt_of_le hs hwent.grows.labels_size
    obtain ⟨os', is', hos', hwent', hamong'⟩ := hf a os hos level s₁ s' b hpos hrun
    rw [hwent.grows.sink, hwent.size] at hamong'
    exact ⟨_, _, hos', hwent.trans hwent', hamong.append (hamong'.fewer hwent.grows.locals_size)⟩
  · cases hrun

theorem records_pure {a : α} (h : P a []) : (pure a : Emit α).Records P := by
  intro level s s' b _ hrun
  cases hrun
  exact ⟨[], [], h, s.wentOn_refl, .nil _⟩

theorem records_refuse (r : BuildError) : (refuse r : Emit α).Records P :=
  fun _ _ _ _ _ hrun => by cases hrun

theorem records_ofExcept {r : Except BuildError α} (h : ∀ a, r = .ok a → P a []) :
    (ofExcept r).Records P := by
  cases r with
  | ok a => exact records_pure (h a rfl)
  | error e => exact records_refuse e

theorem records_get : (get : Emit Session).Records fun _ os => os = [] := by
  intro level s s' b _ hrun
  cases hrun
  exact ⟨[], [], rfl, s.wentOn_refl, .nil _⟩

theorem records_op (o : Op) : (op o).Records fun _ os => os = [o] := by
  intro level s s' b _ hrun
  rw [run_op] at hrun
  cases hrun
  exact ⟨[o], _, rfl, s.wentOn_recorded [o], .one _ _ _ o⟩

theorem records_line (text : String) : (line text).Records fun _ os => os = [] := by
  intro level s s' b _ hrun
  rw [run_line] at hrun
  cases hrun
  exact ⟨[], _, rfl, s.wentOn_written _ text, .of_line _ s text _ _⟩

theorem records_note (text : String) : (note text).Records fun _ os => os = [] := records_line _

theorem records_traced (text : String) (o : Op) : (traced text o).Records fun _ os => os = [o] :=
  (records_note text).bind fun _ os hos => (records_op o).mono fun _ os' hos' => by rw [hos, hos']; rfl

/-- A **dump** is no operation of the call. -/
theorem records_probe (t : Ty) : (probe t).Records fun _ os => os = [] := by
  intro level s s' b hs hrun
  cases level with
  | off =>
    cases hrun
    exact ⟨[], [], rfl, s.wentOn_refl, .nil _⟩
  | log =>
    cases hrun
    exact ⟨[], [], rfl, s.wentOn_refl, .nil _⟩
  | full =>
    obtain ⟨s₁, hrun₁, hwrote⟩ := run_showTop t hs
    have hrun : ((showTop t).run .silent).run s = .ok b s' := hrun
    rw [hrun₁] at hrun
    cases hrun
    refine ⟨[], _, rfl, hwrote.wentOn, ?_⟩
    rw [← List.append_nil (t.dumpCode _ _ _)]
    exact .dump t (Nat.le_refl _) (.nil _)

theorem records_nameOf (l : Local) : (nameOf l).Records fun _ os => os = [] :=
  records_get.bind fun s os hos => by
    rw [hos]
    split <;> exact records_pure rfl

/-- Calls whose operations are known. -/
theorem Records.then {e : Emit α} {f : α → Emit β} {os os' : List Op} (he : e.Records fun _ x => x = os)
    (hf : ∀ a, (f a).Records fun _ x => x = os') : (e >>= f).Records fun _ x => x = os ++ os' :=
  he.bind fun a x hx => (hf a).mono fun _ x' hx' => by rw [hx, hx']

end Emit

/-! ## Operands -/

/-- The scalar that a scalar constant is **loaded as**: words of up to 32 bits, unsigned ones of 32 bits
excepted, are loaded as signed 32-bit integers. -/
def Scalar.loaded : Scalar → Scalar
  | .word .i32 v => .i32 (Scalar.wordValue .i32 v)
  | .word .i8 v => .i32 (Scalar.wordValue .i8 v)
  | .word .u8 v => .i32 (Scalar.wordValue .u8 v)
  | .word .i16 v => .i32 (Scalar.wordValue .i16 v)
  | .word .u16 v => .i32 (Scalar.wordValue .u16 v)
  | s => s

/-- The value that a constant is **loaded as**. -/
def Constant.loaded : Constant → Value
  | .null | .char _ => .null
  | .text s => .text s
  | .scalar s => .scalar s.loaded
  | .handle t => .handle t
  | .enumeration t raw =>
    match t.enumKind with
    | .ok kind =>
      match ofRaw kind raw with
      | .scalar s => .scalar s.loaded
      | _ => .null
    | .error _ => .null

/-- The operations that load a constant. -/
def Constant.loadOps (c : Constant) : List Op :=
  .push c.loaded :: match c with
    | .handle _ => [.call Builtin.typeOfHandle]
    | _ => []

namespace Operand

/-- The operations that **load** an operand. -/
def loadOps : Operand → List Op
  | .constant c => c.loadOps
  | .argument a => [.loadArg a.index]
  | .variable l => [.loadLocal l.index]

/-- The operations that load the **address** of a slot of a value type, or else the operand itself. -/
def addressOps : Operand → List Op
  | .argument a => if a.type.isValue then [.addressArg a.index] else [.loadArg a.index]
  | .variable l => if l.type.isValue then [.addressLocal l.index] else [.loadLocal l.index]
  | .constant c => c.loadOps

/-- The operations that load an operand **for a parameter** of a type. -/
inductive Passed (o : Operand) (t : Ty) : List Op → Prop
  /-- Null goes to any parameter. -/
  | null (h : o.isNull) : Passed o t o.loadOps
  /-- Everything else is converted. -/
  | converted {c : Conversion} (h : o.isNull = false) (hc : Conversion.between o.type t false = .ok c) :
      Passed o t (o.loadOps ++ c.ops)

/-- The operations that load operands **for parameters**, in order. -/
inductive PassedInRow : List Operand → List Ty → List Op → Prop
  /-- Nothing. -/
  | nil : PassedInRow [] [] []
  /-- One more operand. -/
  | cons {o : Operand} {t : Ty} {os : List Operand} {ts : List Ty} {first rest : List Op}
      (h : o.Passed t first) (hrest : PassedInRow os ts rest) :
      PassedInRow (o :: os) (t :: ts) (first ++ rest)

/-- Each operand is for one parameter. -/
theorem PassedInRow.length {os : List Operand} {ts : List Ty} {x : List Op} (h : PassedInRow os ts x) :
    os.length = ts.length := by
  induction h with
  | nil => rfl
  | cons _ _ ih => exact congrArg (· + 1) ih

/-- The operations that load the **receiver** of a method. -/
inductive Received (m : Method) : Option Operand → List Op → Prop
  /-- There is none. -/
  | none (h : r = none ∨ m.isStatic) : Received m r []
  /-- It is converted to the type that the method belongs to. -/
  | some {o : Operand} {c : Conversion} (hm : m.isStatic = false)
      (hc : Conversion.between o.type m.owner true = .ok c) : Received m (some o) (o.addressOps ++ c.ops)

end Operand

namespace Emit

variable {α : Type}

/-! ## Loads -/

theorem records_loadScalar (s : Scalar) :
    (loadScalar s).Records fun _ os => os = [.push (.scalar s.loaded)] := by
  cases s with
  | bool b => exact records_traced _ _
  | float k v => cases k <;> exact records_traced _ _
  | word k v => cases k <;> first | exact records_refuse _ | exact records_traced _ _

theorem records_call (m : Method) : (call m).Records fun _ os => os = [.call m] := records_traced _ _

theorem records_loadConstant (c : Constant) : (loadConstant c).Records fun _ os => os = c.loadOps := by
  cases c with
  | null => exact records_traced _ _
  | text s => exact records_traced _ _
  | char v => exact records_refuse _
  | scalar s => exact records_loadScalar s
  | handle t => exact (records_traced _ _).then fun _ => records_call _
  | enumeration t raw =>
    refine (records_note _).bind fun _ os hos => ?_
    simp only [hos, List.nil_append, Constant.loadOps, Constant.loaded]
    cases ht : t.enumKind with
    | error e => exact records_refuse _
    | ok kind =>
      dsimp only
      cases Constant.ofRaw kind raw with
      | scalar s => exact records_loadScalar s
      | _ => exact records_refuse _

theorem records_arg (i : Nat) : (arg i).Records fun a os => a.index = i ∧ os = [] := by
  refine records_get.bind fun s os hos => ?_
  rw [hos]
  dsimp only
  split
  · exact records_pure ⟨rfl, rfl⟩
  · exact records_refuse _

theorem records_loadArg (a : Argument) : (loadArg a).Records fun _ os => os = [.loadArg a.index] := by
  refine (records_arg a.index).bind fun b os hb => ?_
  rw [hb.2, hb.1]
  exact records_traced _ _

theorem records_loadArgAddress (a : Argument) :
    (loadArgAddress a).Records fun _ os => os = [.addressArg a.index] := by
  refine (records_arg a.index).bind fun b os hb => ?_
  rw [hb.2, hb.1]
  exact records_traced _ _

theorem records_loadLocal (l : Local) : (loadLocal l).Records fun _ os => os = [.loadLocal l.index] :=
  (records_nameOf l).then fun _ => (records_note _).then fun _ => (records_op _).then fun _ =>
    records_probe _

theorem records_loadLocalAddress (l : Local) :
    (loadLocalAddress l).Records fun _ os => os = [.addressLocal l.index] :=
  (records_nameOf l).then fun _ => (records_note _).then fun _ => (records_op _).then fun _ =>
    records_probe _

theorem records_load (o : Operand) : (load o).Records fun _ os => os = o.loadOps := by
  cases o with
  | constant c => exact records_loadConstant c
  | argument a => exact records_loadArg a
  | «variable» l => exact records_loadLocal l

theorem records_loadByAddress (o : Operand) :
    (loadByAddress o).Records fun _ os => os = o.addressOps := by
  cases o with
  | constant c => exact records_loadConstant c
  | argument a =>
    rw [loadByAddress, Operand.addressOps]
    split
    · exact records_loadArgAddress a
    · exact records_loadArg a
  | «variable» l =>
    rw [loadByAddress, Operand.addressOps]
    split
    · exact records_loadLocalAddress l
    · exact records_loadLocal l

/-! ## Conversions -/

theorem records_applyConversion (c : Conversion) :
    (applyConversion c).Records fun _ os => os = c.ops := by
  cases c with
  | identity => exact records_pure rfl
  | upcast => exact records_pure rfl
  | numeric k => exact records_traced _ _
  | openBox t readThrough =>
    refine (records_traced _ _).then fun _ => ?_
    cases readThrough with
    | true => exact records_traced _ _
    | false => exact records_pure rfl
  | box t loadFirst =>
    cases loadFirst with
    | true => exact (records_traced _ _).then fun _ => records_traced _ _
    | false => exact records_traced _ _
  | cast t => exact records_traced _ _

/-- A conversion is planned, and the plan is recorded. -/
theorem records_convert (s t : Ty) (isAddress : Bool) : (convert s t isAddress).Records fun _ os =>
    ∃ c, Conversion.between s t isAddress = .ok c ∧ os = c.ops := by
  refine Records.bind (P := fun c os => Conversion.between s t isAddress = .ok c ∧ os = [])
    (records_ofExcept fun c hc => ⟨hc, rfl⟩) fun c os hc => ?_
  rw [hc.2]
  exact (records_applyConversion c).mono fun _ os' hos' => ⟨c, hc.1, hos'⟩

/-! ## Calls -/

theorem records_loadParameter (o : Operand) (t : Ty) :
    (loadParameter o t).Records fun _ os => o.Passed t os := by
  refine (records_load o).bind fun _ os hos => ?_
  rw [hos]
  split
  · rename_i hnull
    refine records_pure ?_
    rw [List.append_nil]
    exact .null hnull
  · rename_i hnull
    refine (records_convert _ _ _).mono fun _ os' hos' => ?_
    obtain ⟨c, hc, rfl⟩ := hos'
    exact .converted (Bool.not_eq_true _ |>.mp hnull) hc

theorem records_loadParameters {os : List Operand} {ts : List Ty} (h : ts.length = os.length) :
    (loadParameters os ts).Records fun _ x => Operand.PassedInRow os ts x := by
  induction os generalizing ts with
  | nil =>
    obtain rfl := List.length_eq_zero_iff.1 h
    exact records_pure .nil
  | cons o os ih =>
    cases ts with
    | nil => cases h
    | cons t ts =>
      exact (records_loadParameter o t).bind fun _ x hx => (ih (Nat.succ.inj h)).mono
        fun _ x' hx' => .cons hx hx'

theorem records_requireCount (method : String) (declared supplied : Nat) :
    (requireCount method declared supplied).Records fun _ os => declared = supplied ∧ os = [] := by
  unfold requireCount
  split
  · rename_i h
    exact records_pure ⟨h, rfl⟩
  · exact records_refuse _

/-- The receiver of a method is loaded. -/
def receive (m : Method) (r : Option Operand) : Emit Unit :=
  match r with
  | some o => if m.isStatic then pure () else loadReceiver m o
  | none => pure ()

theorem records_receive (m : Method) (r : Option Operand) :
    (receive m r).Records fun _ os => Operand.Received m r os := by
  cases r with
  | none => exact records_pure (.none (.inl rfl))
  | some o =>
    unfold receive
    dsimp only
    split
    · rename_i hm
      exact records_pure (.none (.inr hm))
    · rename_i hm
      refine (records_loadByAddress o).bind fun _ os hos => ?_
      rw [hos]
      refine (records_convert _ _ _).mono fun _ os' hos' => ?_
      obtain ⟨c, hc, rfl⟩ := hos'
      exact .some (Bool.not_eq_true _ |>.mp hm) hc

/-- What an accepted call records is operations that satisfy a property, among reports and dumps, and behind
them **one last operation**. -/
def RecordsThen (e : Emit Unit) (P : List Op → Prop) (last : Op) : Prop :=
  ∀ (level : TraceDetail) (s s' : Session), 0 < s.labels.entries.size →
    (e.run (.ofLevel level)).run s = .ok () s' →
    ∃ os is, P os ∧ s.WentOn s' (is ++ [.op last]) ∧
      Op.Among s.sink s.locals.size s.code.size os is

variable {e : Emit Unit} {P : List Op → Prop} {last : Op}

/-- What is known of an accepted call is known of what it records. -/
theorem Records.and {e : Emit α} {P : α → List Op → Prop} {Q : Prop} (h : e.Records P)
    (hq : e.Records fun _ _ => Q) : e.Records fun a os => P a os ∧ Q := by
  intro level s s' a hs hrun
  obtain ⟨os, is, hos, hwent⟩ := h level s s' a hs hrun
  obtain ⟨-, -, hknown, -⟩ := hq level s s' a hs hrun
  exact ⟨os, is, ⟨hos, hknown⟩, hwent⟩

theorem RecordsThen.and {Q : Prop} (h : e.RecordsThen P last) (hq : e.Records fun _ _ => Q) :
    e.RecordsThen (fun os => P os ∧ Q) last := by
  intro level s s' hs hrun
  obtain ⟨os, is, hos, hwent⟩ := h level s s' hs hrun
  obtain ⟨-, -, hknown, -⟩ := hq level s s' () hs hrun
  exact ⟨os, is, ⟨hos, hknown⟩, hwent⟩

theorem RecordsThen.mono {Q : List Op → Prop} (h : e.RecordsThen P last) (hpq : ∀ os, P os → Q os) :
    e.RecordsThen Q last := by
  intro level s s' hs hrun
  obtain ⟨os, is, hos, hwent⟩ := h level s s' hs hrun
  exact ⟨os, is, hpq os hos, hwent⟩

/-- What comes first is recorded before it. -/
theorem Records.bindThen {e : Emit α} {f : α → Emit Unit} {P : α → List Op → Prop} {R : List Op → Prop}
    (he : e.Records P) (hf : ∀ a os, P a os → (f a).RecordsThen (fun os' => R (os ++ os')) last) :
    (e >>= f).RecordsThen R last := by
  intro level s s' hs hrun
  rw [run_bind] at hrun
  split at hrun
  · rename_i a s₁ hone
    obtain ⟨os, is, hos, hwent, hamong⟩ := he level s s₁ a hs hone
    have hpos : 0 < s₁.labels.entries.size := Nat.lt_of_lt_of_le hs hwent.grows.labels_size
    obtain ⟨os', is', hos', hwent', hamong'⟩ := hf a os hos level s₁ s' hpos hrun
    rw [hwent.grows.sink, hwent.size] at hamong'
    refine ⟨_, is ++ is', hos', ?_, hamong.append (hamong'.fewer hwent.grows.locals_size)⟩
    rw [List.append_assoc]
    exact hwent.trans hwent'
  · cases hrun

theorem recordsThen_op (o : Op) : (op o).RecordsThen (fun os => os = []) o := by
  intro level s s' _ hrun
  rw [run_op] at hrun
  cases hrun
  exact ⟨[], [], rfl, s.wentOn_recorded [o], .nil _⟩

theorem recordsThen_traced (text : String) (o : Op) : (traced text o).RecordsThen (fun os => os = []) o :=
  (records_note text).bindThen fun _ _ hos => (recordsThen_op o).mono fun _ hos' => by rw [hos, hos']; rfl

theorem recordsThen_refuse (r : BuildError) (last : Op) : (refuse r : Emit Unit).RecordsThen P last :=
  fun _ _ _ _ hrun => by cases hrun

theorem Records.traced (h : e.Records fun _ os => P os) (text : String) :
    (do e; Emit.traced text last : Emit Unit).RecordsThen P last :=
  h.bindThen fun _ os hos => (recordsThen_traced text last).mono fun os' hos' => by
    rwa [hos', List.append_nil]

/-- A call is its loads, and the call itself. -/
theorem callWith_eq (r : Option Operand) (m : Method) (os : List Operand) :
    callWith r m os = (do
      (do
        requireCount m.name m.params.length os.length
        receive m r
        loadParameters os m.params)
      call m) := by
  cases r with
  | none => simp only [callWith, receive, bind_assoc, pure_bind]
  | some o => cases hm : m.isStatic <;> simp [callWith, receive, hm, bind_assoc]

/-- A **call** loads its receiver and its parameters. -/
theorem records_callWith (r : Option Operand) (m : Method) (os : List Operand) :
    (callWith r m os).RecordsThen (fun x => ∃ first rest, x = first ++ rest ∧
      Operand.Received m r first ∧ Operand.PassedInRow os m.params rest) (.call m) := by
  rw [callWith_eq]
  refine Records.traced ?_ _
  refine (records_requireCount _ _ _).bind fun _ x hx => ?_
  rw [hx.2]
  exact (records_receive m r).bind fun _ first hfirst =>
    (records_loadParameters hx.1).mono fun _ rest hrest => ⟨first, rest, rfl, hfirst, hrest⟩

/-- An **instance** is made from parameters. -/
theorem records_instantiate (c : Constructor) (os : List Operand) :
    (instantiate c os).RecordsThen (fun x => Operand.PassedInRow os c.params x) (.instantiate c) := by
  have heq : instantiate c os = (do
      (do
        requireCount (c.owner.path ++ "::.ctor") c.params.length os.length
        loadParameters os c.params)
      traced ("Newobj " ++ c.text ++ " on type " ++ c.owner.path) (.instantiate c)) := by
    simp only [instantiate, bind_assoc]
  rw [heq]
  refine Records.traced ?_ _
  refine (records_requireCount _ _ _).bind fun _ x hx => ?_
  rw [hx.2]
  exact records_loadParameters hx.1

end Emit

end Stackwright
