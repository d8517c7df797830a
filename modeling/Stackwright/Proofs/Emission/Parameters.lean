import Stackwright.Proofs.Emission.Conversions
import Stackwright.Proofs.Emission.Loading
import Stackwright.Proofs.Value.Items

/-! # Loading parameters

What the operations that load operands for parameters leave on the stack, at every level: one value for
each parameter, in order. Each **conforms to the type of its parameter unless it is mispassed**: null is
for a value type, or the plan fails on the value that is loaded. The plan goes by the type that the
operand claims, and a scalar constant may be loaded as a scalar of another kind.

* **`Operand.loadedType o`** — the type of what is loaded.
* **`Operand.Mispassed o t h v`** — the parameter is not what its type says.
* **`Op.Played.convert`** — what a planned conversion leaves.
* **`Op.Played.passedInRow`** — what the loads of all parameters leave. -/

namespace Stackwright

/-! ## (1) Values that are loaded -/

namespace Heap

variable {h h' : Heap} {v : Value} {s t u : Ty}

/-- A value of a type `s` as it is **loaded**, as one of a type `u`: it is of that type, or it is a
scalar, where `s` is stored as a scalar as well. -/
inductive LoadedAs (h : Heap) : Value → Ty → Ty → Prop
  /-- The value is of the type. -/
  | same {v : Value} {s : Ty} (hv : h.Conforms v s) : LoadedAs h v s s
  /-- It is some scalar. -/
  | scalar {x : Scalar} {s : Ty} {k : ScalarKind} (hs : s.storedAs? = some k) :
      LoadedAs h (.scalar x) s (.primitive x.kind)

namespace LoadedAs

theorem conforms (hv : h.LoadedAs v s u) : h.Conforms v u := by
  cases hv with
  | same hv => exact hv
  | scalar hs => exact conforms_scalar_iff.2 rfl

theorem isValue (hv : h.LoadedAs v s u) : u.isValue = s.isValue := by
  cases hv with
  | same hv => rfl
  | scalar hs => exact (isValue_of_storedAs hs).symm

theorem adds (hv : h.LoadedAs v s u) (hh : h.Adds h') : h'.LoadedAs v s u := by
  cases hv with
  | same hv => exact .same (hv.adds hh)
  | scalar hs => exact .scalar hs

/-- What goes into a box of the type fits it. -/
theorem fit (hv : h.LoadedAs v s u) (hs : s.isValue) : h.Conforms (Value.fit s.storedAs? v) s := by
  cases hv with
  | same hv => exact hv.fit hs
  | scalar hstored =>
    rw [hstored, Value.fit_scalar, conforms_scalar_iff, Scalar.kind_convert, hstored]

/-- What is left as it is conforms to the target unless it is stored otherwise or its runtime type is not
accepted. -/
theorem kept_iff (hv : h.LoadedAs v s u) (hst : s == t ∨ (s.isReference ∧ t.isReference)) :
    h.Conforms v t ↔
      ¬ if u.isValue then u.storedAs? ≠ t.storedAs? else ∃ f, h.typeOf? v = some f ∧ ¬ t.accepts f := by
  cases hv with
  | same hv => exact hv.kept_iff hst
  | @scalar x s k hs =>
    have hvalue : (Ty.primitive x.kind).isValue := rfl
    have hstored : (Ty.primitive x.kind).storedAs? = some x.kind := rfl
    rw [if_pos hvalue, not_not, hstored, conforms_scalar_iff, eq_comm]

end LoadedAs

end Heap

/-! ## (2) What a conversion leaves -/

/-- A box that was **opened** is the one that was given, or a new one around an object. -/
theorem Exec.run_openBox_ok {m m' : Machine} {s t : Ty} {v : Value} {rest : List Value} (k : Nat)
    (hv : m.world.heap.Conforms v s) (hs : s.isReference) (ht : t.isValue)
    (hstack : m.frame.stack = v :: rest) (h : (Op.execute (.openBox t)).run m = .ok () m') :
    ∃ b f, m.Aside k m' ∧ m'.frame.stack = .address (.boxed b) :: rest ∧
      b.index < m'.world.heap.boxes.size ∧ m.world.heap.typeOf? v = some f ∧ f.unboxesAs t ∧
      (v = .boxed b ∨ ∃ o, v = .object o ∧ m'.world.heap.getBox b = .object o) := by
  rw [run_openBox t hstack] at h
  rcases hv.of_reference hs with rfl | ⟨f, hf, -⟩
  · cases h
  -- a box that cannot be opened as the type is refused, so one that was opened can be
  by_cases hunbox : f.unboxesAs t
  · have hvalue := Heap.isValue_of_unboxesAs hunbox ht
    rcases hv.box_or_object hs hf hvalue with ⟨b, rfl⟩ | ⟨o, rfl⟩
    · cases hf
      rw [run_boxFor_boxed (m := m.withStack rest) hunbox] at h
      cases h
      exact ⟨b, _, .withStack k _ _, rfl, Heap.index_lt_of_isValue hvalue, rfl, hunbox, .inl rfl⟩
    · cases hf
      rw [run_boxFor_object (m := m.withStack rest) hunbox] at h
      cases h
      refine ⟨_, _, ⟨rfl, rfl, fun _ _ => rfl, .allocBox m.world.heap t (.object o)⟩, rfl, ?_, rfl, hunbox,
        .inr ⟨o, rfl, ?_⟩⟩
      · simp [Heap.allocBox]
      · exact congrArg BoxCell.content (Heap.boxCell_allocBox_new (.object o))
  · rw [run_boxFor_refused (m := m.withStack rest) hf hunbox] at h
    cases h

namespace Op.Played

variable {k : Nat} {m m' : Machine} {s t u : Ty} {v : Value} {rest : List Value} {c : Conversion}

/-- Nothing is done to what is left as it is. -/
theorem kept (hv : m.world.heap.LoadedAs v s u) (hst : s == t ∨ (s.isReference ∧ t.isReference))
    (hstack : m.frame.stack = v :: rest) (h : Played k [] m (.ok () m')) :
    m.Aside k m' ∧ ∃ x, m'.frame.stack = x :: rest ∧ ∀ h', m'.world.heap.Adds h' →
      (h'.Conforms x t ↔ ¬ if u.isValue then u.storedAs? ≠ t.storedAs?
        else ∃ f, h'.typeOf? v = some f ∧ ¬ t.accepts f) := by
  cases h with
  | done h =>
    exact ⟨h.aside, v, h.stack.trans hstack, fun h' hh' => (hv.adds (h.aside.heap.trans hh')).kept_iff hst⟩

/-- A number that is converted is of the kind that it is converted to. -/
theorem numeric {kind : ScalarKind} (hv : m.world.heap.LoadedAs v s u) (hs : s.isValue)
    (ht : t.storedAs? = some kind) (hstack : m.frame.stack = v :: rest)
    (h : Played k [.convert kind] m (.ok () m')) :
    m.Aside k m' ∧ ∃ x, m'.frame.stack = x :: rest ∧ ∀ h', m'.world.heap.Adds h' →
      (h'.Conforms x t ↔ ¬ (Conversion.numeric kind).Misconverts u t false h' v) := by
  obtain ⟨m₁, m₂, hm₁, hrun, hm'⟩ := h.one
  rw [Exec.run_convert kind (hm₁.stack.trans hstack)] at hrun
  rcases hv.conforms.of_value (hv.isValue.trans hs) with ⟨x, rfl, hx⟩ | ⟨w, fields, rfl, -⟩
  · cases hrun
    refine ⟨hm₁.aside.trans ((Machine.Aside.withStack k _ _).trans hm'.aside), _, hm'.stack, fun h' _ => ?_⟩
    have hnot : ¬ u.isStruct := fun hstruct => by
      rw [Heap.storedAs_of_isStruct hstruct] at hx
      cases hx
    refine iff_of_true ?_ (by simp [Conversion.Misconverts, hnot])
    rw [Heap.conforms_scalar_iff, Scalar.kind_convert, ht]
  · cases hrun

/-- A value that is boxed is in a box of its type. -/
theorem boxed (hv : m.world.heap.LoadedAs v s u) (hs : s.isValue) (ht : t.isReference) (hacc : t.accepts s)
    (hstack : m.frame.stack = v :: rest) (h : Played k [.box s] m (.ok () m')) :
    m.Aside k m' ∧ ∃ x, m'.frame.stack = x :: rest ∧ ∀ h', m'.world.heap.Adds h' → h'.Conforms x t := by
  obtain ⟨m₁, m₂, hm₁, hrun, hm'⟩ := h.one
  rw [Exec.run_box s (hm₁.stack.trans hstack) hv.conforms.ne_address] at hrun
  cases hrun
  have hadds := Heap.Adds.allocBox m₁.world.heap s (Value.fit s.storedAs? v)
  have hbox : m₁.Aside k { m₁ with
      world.heap := (m₁.world.heap.allocBox s (Value.fit s.storedAs? v)).2 } :=
    ⟨rfl, rfl, fun _ _ => rfl, hadds⟩
  refine ⟨hm₁.aside.trans ((hbox.trans (.withStack k _ _)).trans hm'.aside), _, hm'.stack, fun h' hh' => ?_⟩
  have hfits := ((hv.adds hm₁.aside.heap).fit hs).boxed hs ht hacc
  exact hfits.adds (hm'.aside.heap.trans hh')

/-- What passed the check is of the target, unless it is no reference. -/
theorem checked (hv : m.world.heap.LoadedAs v s u) (ht : t.isReference) (hstack : m.frame.stack = v :: rest)
    (h : Played k [.checkCast t] m (.ok () m')) :
    m.Aside k m' ∧ ∃ x, m'.frame.stack = x :: rest ∧ ∀ h', m'.world.heap.Adds h' →
      (h'.Conforms x t ↔ ¬ (Conversion.cast t).Misconverts u t false h' v) := by
  obtain ⟨m₁, m₂, hm₁, hrun, hm'⟩ := h.one
  have hv₁ := hv.conforms.adds hm₁.aside.heap
  rw [Exec.run_checkCast t (hm₁.stack.trans hstack)] at hrun
  -- a check that goes through leaves the machine as it was
  obtain ⟨rfl, hpassed⟩ : m₁ = m₂ ∧ ∀ f, m₁.world.heap.typeOf? v = some f → t.accepts f := by
    cases hf : m₁.world.heap.typeOf? v with
    | none =>
      rw [hf] at hrun
      cases hrun
      exact ⟨rfl, nofun⟩
    | some f =>
      rw [hf] at hrun
      dsimp only at hrun
      split at hrun
      · rename_i hacc
        cases hrun
        refine ⟨rfl, ?_⟩
        rintro _ ⟨⟩
        exact hacc
      · cases hrun
  refine ⟨hm₁.aside.trans hm'.aside, v, hm'.stack.trans (hm₁.stack.trans hstack), fun h' hh' => ?_⟩
  have hadds := hm'.aside.heap.trans hh'
  have hv' := hv₁.adds hadds
  have htype := hv₁.typeOf_adds hadds
  by_cases hu : u.isValue
  · -- a value that passed is left where a reference should be
    obtain ⟨f, hf⟩ := hv'.typeOf_of_value hu
    refine iff_of_false (hv'.not_reference hu ht) (not_not.2 ⟨hu, .inr ⟨f, hf, ?_⟩⟩)
    exact hpassed f (htype.symm.trans hf)
  · have hreference : u.isReference := by simp [Ty.isReference, hu]
    rw [hv'.reference_iff hreference ht, htype]
    exact iff_of_true hpassed fun h => hu h.1

/-- What is read out of a box is of the type that it was opened as, if the box was made for values that are
stored alike; an object is left as it is. -/
theorem opened (hv : m.world.heap.Conforms v s) (hs : s.isReference) (ht : t.isValue)
    (hstack : m.frame.stack = v :: rest) (h : Played k [.openBox t, .loadThrough] m (.ok () m')) :
    m.Aside k m' ∧ ∃ x, m'.frame.stack = x :: rest ∧ ∀ h', m'.world.heap.Adds h' →
      (h'.Conforms x t ↔ ¬ (Conversion.openBox t true).Misconverts s t false h' v) := by
  obtain ⟨m₀, hopen, hload⟩ : ∃ m₀, Played k [.openBox t] m (.ok () m₀) ∧
      Played k [.loadThrough] m₀ (.ok () m') := split_ok h
  obtain ⟨m₁, m₂, hm₁, hrun, hm₂⟩ := hopen.one
  obtain ⟨m₃, m₄, hm₃, hread, hm'⟩ := hload.one
  have hbetween := hm₂.trans hm₃
  have hv₁ := hv.adds hm₁.aside.heap
  obtain ⟨b, f, haside, hstack₂, hlt, hf, hunbox, hbox⟩ :=
    Exec.run_openBox_ok k hv₁ hs ht (hm₁.stack.trans hstack) hrun
  rw [Exec.run_loadThrough (hbetween.stack.trans hstack₂) rfl] at hread
  cases hread
  have hlast := (Machine.Aside.withStack k m₃ _).trans hm'.aside
  refine ⟨hm₁.aside.trans (haside.trans (hbetween.aside.trans hlast)), _, hm'.stack, fun h' hh' => ?_⟩
  -- the box stays as it was when it was opened
  have hlater : m₂.world.heap.Adds h' := hbetween.aside.heap.trans (hlast.heap.trans hh')
  have hget : m₃.world.heap.getBox b = m₂.world.heap.getBox b := by
    rw [Heap.getBox, Heap.getBox, hbetween.aside.heap.boxCell hlt]
  have hget' : h'.getBox b = m₂.world.heap.getBox b := by
    rw [Heap.getBox, Heap.getBox, hlater.boxCell hlt]
  have hadds := haside.heap.trans hlater
  have htype : h'.typeOf? v = some f := (hv₁.typeOf_adds hadds).trans hf
  rw [hget]
  rcases hbox with rfl | ⟨o, rfl, hbox⟩
  · cases htype
    have hvalue := Heap.isValue_of_unboxesAs hunbox ht
    rw [← hget', (hv₁.adds hadds).content.2.unboxes_iff hvalue hunbox, Conversion.Misconverts]
    simp [Heap.typeOf?, hunbox]
  · rw [hbox]
    refine iff_of_false ?_ (not_not.2 ⟨_, htype, hunbox, .inl ⟨o, rfl⟩⟩)
    rintro ⟨good, -, hreference, -⟩
    exact Heap.not_isValue_of_isReference hreference ht

/-- A **planned conversion** leaves one value in the place of the one that was loaded, and that is of the
target unless the plan misconverts what was loaded. -/
theorem convert (hplan : Conversion.Planned s t false c) (hv : m.world.heap.LoadedAs v s u)
    (hstack : m.frame.stack = v :: rest) (h : Played k c.ops m (.ok () m')) :
    m.Aside k m' ∧ ∃ x, m'.frame.stack = x :: rest ∧ ∀ h', m'.world.heap.Adds h' →
      (h'.Conforms x t ↔ ¬ c.Misconverts u t false h' v) := by
  cases hplan with
  | identity hsame => exact kept hv (.inl hsame) hstack h
  | upcast hs ht _ => exact kept hv (.inr ⟨hs, ht⟩) hstack h
  | numeric hs ht => exact numeric hv hs ht hstack h
  | openBox hs ht _ =>
    cases hv with
    | same hv => exact opened hv hs ht hstack h
    | scalar hstored => exact absurd (Heap.isValue_of_storedAs hstored) (Heap.not_isValue_of_isReference hs)
  | box hs ht hacc =>
    obtain ⟨haside, x, hstack', hx⟩ := boxed hv hs ht hacc hstack h
    exact ⟨haside, x, hstack', fun h' hh' => iff_of_true (hx h' hh') id⟩
  | cast ht => exact checked hv ht hstack h

end Op.Played

/-! ## (3) What is loaded -/

/-- The constants that **can be loaded**: all but characters. -/
def Constant.Loadable : Constant → Prop
  | .char _ => False
  | .enumeration t raw => ∃ k x, t.enumKind = .ok k ∧ ofRaw k raw = .scalar x
  | .null | .scalar _ | .text _ | .handle _ => True

namespace Operand

variable {o : Operand} {t : Ty} {m m' : Machine} {v : Value} {k : Nat}

/-- Slots can be loaded, and so can most constants. -/
def Loadable : Operand → Prop
  | .constant c => c.Loadable
  | .argument _ | .variable _ => True

/-- The type that an operand is **loaded as**: a scalar constant may be loaded as a scalar of another kind
than that of its type. -/
def loadedType : Operand → Ty
  | .constant c =>
    match c.loaded with
    | .scalar x => .primitive x.kind
    | _ => c.type
  | .argument a => a.type
  | .variable l => l.type

/-- A slot **holds** a value that conforms to its type; a constant holds none. -/
def Sound (m : Machine) : Operand → Prop
  | .constant _ => True
  | o => ∃ v, m.operand? o = some v ∧ m.world.heap.Conforms v o.type

/-- An operand is **mispassed** to a parameter of a type. -/
inductive Mispassed (o : Operand) (t : Ty) (h : Heap) (v : Value) : Prop
  /-- Null is passed to a value type. -/
  | null (hnull : o.isNull) (ht : t.isValue) : Mispassed o t h v
  /-- The conversion that is planned misconverts what is loaded. -/
  | converted {c : Conversion} (hnull : o.isNull = false) (hc : Conversion.between o.type t false = .ok c)
      (hmis : c.Misconverts o.loadedType t false h v) : Mispassed o t h v

/-- The values that a row of operands **arrives** as: one for each parameter, which conforms to the type
of the parameter unless the operand is mispassed. -/
inductive Arrives (m : Machine) (h : Heap) : List Operand → List Ty → List Value → Prop
  /-- Nothing. -/
  | nil : Arrives m h [] [] []
  /-- One more value. -/
  | cons {o : Operand} {t : Ty} {v x : Value} {os : List Operand} {ts : List Ty} {xs : List Value}
      (hv : m.operand? o = some v) (hx : h.Conforms x t ↔ ¬ o.Mispassed t h v)
      (hrest : Arrives m h os ts xs) : Arrives m h (o :: os) (t :: ts) (x :: xs)

/-- A sound operand is loaded as what it claims, or as a scalar instead of one. -/
theorem Sound.loadedAs (h : o.Sound m) (hload : o.Loadable) (hv : m.operand? o = some v) :
    m.world.heap.LoadedAs v o.type o.loadedType := by
  cases o with
  | argument a =>
    obtain ⟨w, hw, hconforms⟩ := h
    cases hv.symm.trans hw
    exact .same hconforms
  | «variable» l =>
    obtain ⟨w, hw, hconforms⟩ := h
    cases hv.symm.trans hw
    exact .same hconforms
  | constant c =>
    cases hv
    cases c with
    | null => exact .same ⟨fun _ => False, fun _ hb => hb.elim, rfl⟩
    | char c => exact hload.elim
    | scalar x => exact .scalar rfl
    | text x => exact .same ⟨fun _ => False, fun _ hb => hb.elim, rfl, Ty.accepts_self _⟩
    | handle x => exact .same ⟨fun _ => False, fun _ hb => hb.elim, rfl, Ty.accepts_self _⟩
    | enumeration e raw =>
      obtain ⟨kind, x, hkind, hx⟩ := hload
      -- an enumeration is loaded as the scalar that stores it
      have hloaded : (Constant.enumeration e raw).loaded = .scalar x.loaded := by
        rw [Constant.loaded, hkind]
        dsimp only
        rw [hx]
      have hstored : e.storedAs? = some kind := by
        cases e <;> cases hkind
        rfl
      show m.world.heap.LoadedAs (Constant.enumeration e raw).loaded e
        (loadedType (.constant (.enumeration e raw)))
      rw [loadedType, hloaded]
      exact .scalar hstored

/-- A sound operand has a value. -/
theorem Sound.exists_operand (h : o.Sound m) : ∃ v, m.operand? o = some v := by
  cases o with
  | constant c => exact ⟨_, rfl⟩
  | argument a => exact h.imp fun _ h => h.1
  | «variable» l => exact h.imp fun _ h => h.1

/-- What is done aside leaves operands sound. -/
theorem Sound.aside (h : o.Sound m) (hk : o.Below k) (hm : m.Aside k m') : o.Sound m' := by
  cases o with
  | constant c => exact trivial
  | argument a =>
    obtain ⟨v, hv, hconforms⟩ := h
    exact ⟨v, (hm.operand hk).trans hv, hconforms.adds hm.heap⟩
  | «variable» l =>
    obtain ⟨v, hv, hconforms⟩ := h
    exact ⟨v, (hm.operand hk).trans hv, hconforms.adds hm.heap⟩

/-- A scalar constant goes as it is to a parameter of its kind, so it is mispassed when it is **loaded as
another kind**. -/
theorem mispassed_scalar_iff {x : Scalar} {h : Heap} :
    (constant (.scalar x)).Mispassed (.primitive x.kind) h v ↔ x.loaded.kind ≠ x.kind := by
  have hsame : Conversion.between (constant (.scalar x)).type (.primitive x.kind) false = .ok .identity :=
    Conversion.between_of_beq (Ty.beq_rfl _)
  have hmis : Conversion.identity.Misconverts (constant (.scalar x)).loadedType (.primitive x.kind) false h v ↔
      x.loaded.kind ≠ x.kind := by
    have hvalue : (constant (.scalar x)).loadedType.isValue := rfl
    rw [Conversion.Misconverts, if_pos hvalue]
    exact not_congr Option.some_inj
  rw [← hmis]
  constructor
  · intro h
    cases h with
    | null hnull => cases hnull
    | converted _ hc hmis =>
      cases hsame.symm.trans hc
      exact hmis
  · exact .converted rfl hsame

/-- There is one value for each parameter. -/
theorem Arrives.length {h : Heap} {os : List Operand} {ts : List Ty} {xs : List Value}
    (hxs : Arrives m h os ts xs) : xs.length = ts.length := by
  induction hxs with
  | nil => rfl
  | cons _ _ _ ih => exact congrArg (· + 1) ih

/-- Operands have the same values in a machine that changed aside. -/
theorem Arrives.aside {h : Heap} {os : List Operand} {ts : List Ty} {xs : List Value}
    (hxs : Arrives m' h os ts xs) (hk : ∀ o ∈ os, o.Below k) (hm : m.Aside k m') :
    Arrives m h os ts xs := by
  induction hxs with
  | nil => exact .nil
  | cons hv hx _ ih =>
    obtain ⟨hfirst, hrest⟩ := List.forall_mem_cons.1 hk
    exact .cons ((hm.operand hfirst).symm.trans hv) hx (ih hrest)

end Operand

namespace Op.Played

variable {k : Nat} {m m' : Machine} {o : Operand} {t : Ty} {v : Value} {first : List Op}

/-- An operand that is loaded and **converted** is of the target unless the plan misconverts it. -/
theorem converted {c : Conversion} (hc : Conversion.between o.type t false = .ok c) (hsound : o.Sound m)
    (hload : o.Loadable) (hk : o.Below k) (hv : m.operand? o = some v)
    (h : Played k (o.loadOps ++ c.ops) m (.ok () m')) :
    m.Aside k m' ∧ ∃ x, m'.frame.stack = x :: m.frame.stack ∧ ∀ h', m'.world.heap.Adds h' →
      (h'.Conforms x t ↔ ¬ c.Misconverts o.loadedType t false h' v) := by
  obtain ⟨m₁, hfirst, hconvert⟩ := h.split_ok
  obtain ⟨haside, hstack⟩ := hfirst.load hv hk
  have hloaded := (hsound.loadedAs hload hv).adds haside.heap
  obtain ⟨haside', x, hstack', hx⟩ := hconvert.convert (Conversion.planned_of_between hc) hloaded hstack
  exact ⟨haside.trans haside', x, hstack', hx⟩

/-- The loads of **one parameter** leave one value, which is of the type of the parameter unless the
operand is mispassed. -/
theorem passed (hpassed : o.Passed t first) (hsound : o.Sound m) (hload : o.Loadable) (hk : o.Below k)
    (hv : m.operand? o = some v) (h : Played k first m (.ok () m')) :
    m.Aside k m' ∧ ∃ x, m'.frame.stack = x :: m.frame.stack ∧ ∀ h', m'.world.heap.Adds h' →
      (h'.Conforms x t ↔ ¬ o.Mispassed t h' v) := by
  cases hpassed with
  | null hnull =>
    obtain ⟨haside, hstack⟩ := h.load hv hk
    refine ⟨haside, v, hstack, fun h' _ => ?_⟩
    -- a null is loaded without a conversion, so it fits a reference type only
    obtain rfl : v = .null := by
      cases o with
      | constant c =>
        cases c with
        | null =>
          cases hv
          rfl
        | _ => cases hnull
      | _ => cases hnull
    constructor
    · rintro ⟨good, -, hreference⟩ hmis
      cases hmis with
      | null _ ht => exact Heap.not_isValue_of_isReference hreference ht
      | converted hnot => simp [hnull] at hnot
    · intro hmis
      refine ⟨fun _ => False, fun _ hb => hb.elim, ?_⟩
      by_contra ht
      refine hmis (.null hnull ?_)
      simpa [Heap.ConformsGiven, Ty.isReference] using ht
  | converted hnull hc =>
    obtain ⟨haside, x, hstack, hx⟩ := h.converted hc hsound hload hk hv
    refine ⟨haside, x, hstack, fun h' hh' => (hx h' hh').trans (not_congr ⟨?_, ?_⟩)⟩
    · exact .converted hnull hc
    · intro hmis
      cases hmis with
      | null hnot => simp [hnull] at hnot
      | converted _ hc' hmis =>
        cases hc.symm.trans hc'
        exact hmis

/-- The loads of **all parameters** leave one value for each, in order. -/
theorem passedInRow {os : List Operand} {ts : List Ty} {row : List Op}
    (hpassed : Operand.PassedInRow os ts row) (hsound : ∀ o ∈ os, o.Sound m) (hload : ∀ o ∈ os, o.Loadable)
    (hk : ∀ o ∈ os, o.Below k) (h : Played k row m (.ok () m')) :
    m.Aside k m' ∧ ∃ xs : List Value, m'.frame.stack = xs.reverse ++ m.frame.stack ∧
      ∀ h', m'.world.heap.Adds h' → Operand.Arrives m h' os ts xs := by
  induction hpassed generalizing m with
  | nil =>
    cases h with
    | done h => exact ⟨h.aside, [], h.stack, fun _ _ => .nil⟩
  | cons hfirst _ ih =>
    obtain ⟨hsound₁, hsound⟩ := List.forall_mem_cons.1 hsound
    obtain ⟨hload₁, hload⟩ := List.forall_mem_cons.1 hload
    obtain ⟨hk₁, hk⟩ := List.forall_mem_cons.1 hk
    obtain ⟨v, hv⟩ := hsound₁.exists_operand
    obtain ⟨m₁, hone, hrest⟩ := h.split_ok
    obtain ⟨haside, x, hstack, hx⟩ := hone.passed hfirst hsound₁ hload₁ hk₁ hv
    obtain ⟨haside', xs, hstack', hxs⟩ :=
      ih (fun o ho => (hsound o ho).aside (hk o ho) haside) hload hk hrest
    refine ⟨haside.trans haside', x :: xs, ?_, fun h' hh' => .cons hv (hx h' (haside'.heap.trans hh')) ?_⟩
    · rw [hstack', hstack, List.reverse_cons, List.append_assoc, List.singleton_append]
    · exact (hxs h' hh').aside hk haside

end Op.Played

/-! ## (4) What can be loaded -/

namespace Emit

/-- A constant that is loaded can be loaded. -/
theorem loadable_loadConstant (c : Constant) : (loadConstant c).Records fun _ _ => c.Loadable := by
  cases c with
  | char x => exact records_refuse _
  | enumeration t raw =>
    refine (records_note _).bind fun _ _ _ => ?_
    cases hkind : t.enumKind with
    | error e => exact records_refuse _
    | ok kind =>
      dsimp only
      cases hx : Constant.ofRaw kind raw with
      | scalar x => exact (records_loadScalar x).mono fun _ _ _ => ⟨kind, x, hkind, hx⟩
      | _ => exact records_refuse _
  | _ => exact (records_loadConstant _).mono fun _ _ _ => trivial

/-- So can an operand. -/
theorem loadable_load (o : Operand) : (load o).Records fun _ _ => o.Loadable := by
  cases o with
  | constant c => exact loadable_loadConstant c
  | argument a => exact (records_load (.argument a)).mono fun _ _ _ => trivial
  | «variable» l => exact (records_load (.variable l)).mono fun _ _ _ => trivial

/-- So can operands that are loaded for parameters. -/
theorem loadable_loadParameters {os : List Operand} {ts : List Ty} (h : ts.length = os.length) :
    (loadParameters os ts).Records fun _ _ => ∀ o ∈ os, o.Loadable := by
  induction os generalizing ts with
  | nil => exact records_pure fun o ho => absurd ho List.not_mem_nil
  | cons o os ih =>
    cases ts with
    | nil => cases h
    | cons t ts =>
      refine Records.bind (P := fun _ _ => o.Loadable) ?_ fun _ _ ho =>
        (ih (Nat.succ.inj h)).mono fun _ _ hos => List.forall_mem_cons.2 ⟨ho, hos⟩
      refine (loadable_load o).bind fun _ _ ho => ?_
      split
      · exact records_pure ho
      · exact (records_convert _ _ _).mono fun _ _ _ => ho

theorem loadable_callWith (r : Option Operand) (f : Method) (os : List Operand) :
    (callWith r f os).Records fun _ _ => ∀ o ∈ os, o.Loadable := by
  rw [callWith_eq, bind_assoc]
  refine (records_requireCount _ _ _).bind fun _ _ hcount => ?_
  rw [bind_assoc]
  exact (records_receive f r).bind fun _ _ _ => (loadable_loadParameters hcount.1).bind fun _ _ hos =>
    (records_call f).mono fun _ _ _ => hos

theorem loadable_instantiate (c : Constructor) (os : List Operand) :
    (instantiate c os).Records fun _ _ => ∀ o ∈ os, o.Loadable :=
  (records_requireCount _ _ _).bind fun _ _ hcount => (loadable_loadParameters hcount.1).bind
    fun _ _ hos => (records_traced _ _).mono fun _ _ _ => hos

end Emit

end Stackwright
