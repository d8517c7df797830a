import Stackwright.Proofs.Builder.Ending
import Stackwright.Proofs.Slots.Kinds
import Stackwright.Proofs.Slots.Stores

/-! # Slots inside the frame

The frame that a procedure runs on has as many arguments and locals as the procedure declares, and no step
changes how many. What a client records reaches a slot of that frame, in its declared kind, **unless the
client handed in a local that the procedure does not declare**: arguments are looked up when they are
reached, and locals are taken at their word.

* **`Procedure.Provides p o`** — the slot that an operation reaches is one of the procedure's.
* **`Exec.KeepsSize e`** — `e` leaves the numbers of arguments and locals as they are.
* **`Builder.slots_exist`** — what is recorded is provided, and then no run misses it. -/

namespace Stackwright

/-! ## Frames of a fixed size -/

/-- Machines with **as many slots** as each other. -/
structure Machine.SameSize (m m' : Machine) : Prop where
  /-- There are as many arguments. -/
  args : m'.frame.args.size = m.frame.args.size
  /-- There are as many locals. -/
  locals : m'.frame.locals.size = m.frame.locals.size

namespace Machine.SameSize

variable {m m' m'' : Machine}

theorem trans (h : m.SameSize m') (h' : m'.SameSize m'') : m.SameSize m'' :=
  ⟨h'.args.trans h.args, h'.locals.trans h.locals⟩

end Machine.SameSize

namespace Exec

variable {α β : Type} {e : Exec α} {f : α → Exec β} {m m' : Machine} {l : Location}

/-- A computation that **leaves the size** of the frame alone. -/
def KeepsSize (e : Exec α) : Prop := ∀ m m' a, e.run m = .ok a m' → m.SameSize m'

/-- What leaves the slots alone leaves their number alone. -/
theorem SparesSlots.keepsSize (he : e.SparesSlots) : e.KeepsSize := fun m m' a hrun => by
  have hsame := he m m' a hrun
  exact ⟨by rw [hsame.args], by rw [hsame.locals]⟩

theorem KeepsSize.bind (he : e.KeepsSize) (hf : ∀ a, (f a).KeepsSize) : (e >>= f).KeepsSize := by
  intro m m' b hrun
  rw [run_bind] at hrun
  split at hrun
  · rename_i a m₁ h₁
    exact (he m m₁ a h₁).trans (hf a m₁ m' b hrun)
  · cases hrun

theorem spares_checkSlot (slots : Array Value) (i : Nat) : (checkSlot slots i).SparesSlots := by
  unfold checkSlot
  split
  · exact spares_pure _
  · exact spares_fail _

/-- A store changes what is in a slot, not how many there are. -/
theorem keepsSize_store (l : Location) (v : Value) : (store l v).KeepsSize := by
  cases l with
  | argument i =>
    refine spares_get.keepsSize.bind fun m₀ => (spares_checkSlot _ i).keepsSize.bind fun _ => ?_
    intro m m' u hrun
    cases hrun
    exact ⟨Array.size_setIfInBounds, rfl⟩
  | «variable» i =>
    refine spares_get.keepsSize.bind fun m₀ => (spares_checkSlot _ i).keepsSize.bind fun _ => ?_
    intro m m' u hrun
    cases hrun
    exact ⟨rfl, Array.size_setIfInBounds⟩
  | element a i => exact (spares_store rfl v).keepsSize
  | boxed b => exact (spares_store rfl v).keepsSize

theorem spares_openReceiver (f : Method) (args : List Value) : (openReceiver f args).SparesSlots := by
  unfold openReceiver
  split
  · refine (spares_load _).bind fun this => ?_
    split
    · exact spares_fail _
    · exact spares_pure _
  · split
    · exact spares_fail _
    · exact spares_pure _
  · exact spares_pure _

theorem keepsSize_settle (f : Method) (origin : Option Location) (result : Value) (left : List Value) :
    (settle f origin result left).KeepsSize := by
  unfold settle
  -- with a result or without one, it is the store that may write
  split
  · split
    · exact (keepsSize_store _ _).bind fun _ => (spares_push _).keepsSize
    · exact (spares_push _).keepsSize
  · split
    · exact (keepsSize_store _ _).bind fun _ => (spares_pure _).keepsSize
    · exact (spares_pure _).keepsSize

theorem keepsSize_call (f : Method) : (call f).KeepsSize := by
  refine (spares_popMany _).keepsSize.bind fun vs => (spares_openReceiver f vs).keepsSize.bind
    fun opened => (spares_lift _).keepsSize.bind fun left => ?_
  exact keepsSize_settle f opened.2 left.1 left.2

theorem keepsSize_setFieldOf (receiver : Value) (i : Nat) (v : Value) :
    (setFieldOf receiver i v).KeepsSize := by
  unfold setFieldOf
  split
  · exact (spares_lift _).keepsSize
  · exact (spares_load _).keepsSize.bind fun _ => (spares_withField _ i v).keepsSize.bind fun _ =>
      keepsSize_store _ _
  · exact (spares_lift _).keepsSize.bind fun _ => (spares_withField _ i v).keepsSize.bind fun _ =>
      (spares_lift _).keepsSize
  · exact (spares_fail _).keepsSize
  · exact (spares_lift _).keepsSize

end Exec

open Exec in
/-- **No operation** changes how many slots there are. -/
theorem Op.keepsSize_execute (o : Op) : o.execute.KeepsSize := by
  cases hw : o.writesSlot with
  | false => exact (o.spares_execute hw).keepsSize
  | true =>
    cases o with
    | storeArg i kind => exact (spares_popFit kind).keepsSize.bind (keepsSize_store (.argument i))
    | storeLocal i kind => exact (spares_popFit kind).keepsSize.bind (keepsSize_store (.variable i))
    | storeThrough kind =>
      exact (spares_popFit kind).keepsSize.bind fun v => spares_popAddress.keepsSize.bind fun l =>
        keepsSize_store l v
    | zeroThrough t => exact spares_popAddress.keepsSize.bind fun l => keepsSize_store l _
    | putField f =>
      exact (spares_slotNumber f).keepsSize.bind fun _ => (spares_popFit _).keepsSize.bind fun v =>
        spares_pop.keepsSize.bind fun r => keepsSize_setFieldOf r _ v
    | call f => exact keepsSize_call f
    | _ => cases hw

open Exec in
/-- So does no instruction. -/
theorem Instruction.keepsSize_execute (ret : Option Ty) (i : Instruction Nat) :
    (i.execute ret).KeepsSize := by
  cases i with
  | op o => exact o.keepsSize_execute.bind fun _ => (spares_pure _).keepsSize
  | jump j =>
    refine j.spares_follow.keepsSize.bind fun target => ?_
    split
    · exact (spares_pure _).keepsSize
    · exact (spares_pure _).keepsSize
  | ret =>
    refine KeepsSize.bind ?_ fun _ => (spares_pure _).keepsSize
    unfold Exec.result
    split
    · exact (spares_popFit _).keepsSize
    · exact (spares_pure _).keepsSize

/-! ## Slots of a procedure -/

/-- The slot that an operation takes the **address** of. -/
def Op.addressed? : Op → Option Location
  | .addressArg i => some (.argument i)
  | .addressLocal i => some (.variable i)
  | _ => none

/-- A location can be **read and written**. -/
structure Machine.Reaches (m : Machine) (l : Location) : Prop where
  /-- It can be read. -/
  load : ∃ v, (Exec.load l).run m = .ok v m
  /-- It can be written, whatever the value. -/
  store : ∀ v, ∃ m', (Exec.store l v).run m = .ok () m'

namespace Procedure

variable {p : Procedure} {m m' start : Machine} {o : Op} {l : Location} {n : Nat}

/-- The procedure **declares** a local. -/
def Declares (p : Procedure) (l : Local) : Prop := p.locals[l.index]? = some l.type

/-- The slot that an operation reaches is one of the procedure's, and what is stored is of the kind that the
slot is declared with. -/
def Provides (p : Procedure) : Op → Prop
  | .loadArg i | .addressArg i => i < p.signature.args.length
  | .storeArg i kind => ∃ t, p.signature.args[i]? = some t ∧ kind = t.storedAs?
  | .loadLocal i | .addressLocal i => i < p.locals.length
  | .storeLocal i kind => ∃ t, p.locals[i]? = some t ∧ kind = t.storedAs?
  | _ => True

/-- Stores that are provided fit. -/
theorem Provides.takes (h : p.Provides o) : p.Takes o := by
  cases o <;> first | exact h | trivial

/-- A procedure provides what reaches the locals that it declares. -/
theorem Declares.provides {l : Local} (h : p.Declares l) : ∀ o ∈ l.ops, p.Provides o := by
  intro o ho
  simp only [Local.ops, List.mem_cons, List.not_mem_nil, or_false] at ho
  rcases ho with rfl | rfl | rfl
  · exact (List.getElem?_eq_some_iff.1 h).1
  · exact ⟨l.type, h, rfl⟩
  · exact (List.getElem?_eq_some_iff.1 h).1

/-- The frame has the slots that the procedure declares. -/
structure Framed (p : Procedure) (m : Machine) : Prop where
  /-- Its arguments are those of the signature. -/
  args : m.frame.args.size = p.signature.args.length
  /-- Its locals are those of the procedure. -/
  locals : m.frame.locals.size = p.locals.length

/-- A call starts on the frame of the procedure. -/
theorem framed_start {args : List Value} (h : args.length = p.signature.args.length) (world : World) :
    p.Framed ⟨p.frame args, world⟩ := by
  refine ⟨?_, ?_⟩
  · simp [frame, h]
  · simp [frame]

theorem Framed.same (h : p.Framed m) (hm : m.SameSize m') : p.Framed m' :=
  ⟨hm.args.trans h.args, hm.locals.trans h.locals⟩

/-- **Every machine of a run** has the frame of the procedure. -/
theorem Visits.framed (h : p.Visits start n m) (hstart : p.Framed start) : p.Framed m := by
  induction h with
  | start => exact hstart
  | next _ _ hstep ih => exact ih.same (Instruction.keepsSize_execute _ _ _ _ _ hstep)
  | goto _ _ hstep ih => exact ih.same (Instruction.keepsSize_execute _ _ _ _ _ hstep)

/-- A slot with a declared type can be reached. -/
theorem Framed.reaches (h : p.Framed m) {t : Ty} (hl : p.slotType? l = some t) : m.Reaches l := by
  cases l with
  | argument i =>
    have hi : i < m.frame.args.size := by
      rw [h.args]
      exact (List.getElem?_eq_some_iff.1 hl).1
    refine ⟨⟨m.frame.args[i], ?_⟩, fun v => ?_⟩
    · rw [Exec.run_load, Machine.read, Machine.read.slot, Array.getElem?_eq_getElem hi]
    · simp only [Exec.store, Exec.setArg, Exec.checkSlot, Exec.run_bind, Exec.run_get, if_pos hi,
        Exec.run_pure]
      exact ⟨_, rfl⟩
  | «variable» i =>
    have hi : i < m.frame.locals.size := by
      rw [h.locals]
      exact (List.getElem?_eq_some_iff.1 hl).1
    refine ⟨⟨m.frame.locals[i], ?_⟩, fun v => ?_⟩
    · rw [Exec.run_load, Machine.read, Machine.read.slot, Array.getElem?_eq_getElem hi]
    · simp only [Exec.store, Exec.setLocal, Exec.checkSlot, Exec.run_bind, Exec.run_get, if_pos hi,
        Exec.run_pure]
      exact ⟨_, rfl⟩
  | element a i => cases hl
  | boxed b => cases hl

/-- What takes the address of a slot that is provided takes that of a slot that can be reached. -/
theorem Framed.addressed (h : p.Framed m) (ho : p.Provides o) (hl : o.addressed? = some l) :
    m.Reaches l := by
  cases o with
  | addressArg i =>
    cases hl
    exact h.reaches (List.getElem?_eq_getElem ho)
  | addressLocal i =>
    cases hl
    exact h.reaches (List.getElem?_eq_getElem ho)
  | _ => cases hl

/-- A load from a slot that can be reached does not fail. -/
theorem run_loadSlot (h : m.Reaches l) : ∃ m', (Exec.load l >>= Exec.push).run m = .ok () m' := by
  obtain ⟨v, hv⟩ := h.load
  exact ⟨_, Exec.run_bind_ok hv⟩

/-- A store into one fails for want of an operand alone. -/
theorem run_storeSlot (h : ∀ rest, (m.withStack rest).Reaches l) (kind : Option ScalarKind) :
    (∃ m', (Exec.popFit kind >>= Exec.store l).run m = .ok () m') ∨
      (Exec.popFit kind >>= Exec.store l).run m = .error (.fault .stackUnderflow) m := by
  cases hstack : m.frame.stack with
  | nil =>
    refine .inr (Exec.run_bind_error ?_)
    obtain ⟨⟨args, locals, stack⟩, world⟩ := m
    cases hstack
    rfl
  | cons v rest =>
    obtain ⟨m', hm'⟩ := (h rest).store (Value.fit kind v)
    refine .inl ⟨m', ?_⟩
    rw [Exec.popFit, bind_assoc, Exec.run_bind_ok (Exec.run_pop hstack), pure_bind]
    exact hm'

/-- What reaches a slot that is provided does not find it **outside the frame**. -/
theorem Framed.inside (h : p.Framed m) (ho : p.Provides o) (hslot : o.isSlot) (i : Int) (k : Nat) :
    o.execute.run m ≠ .error (.fault (.indexOutOfRange i k)) m' := by
  -- a slot of a type is there to be read and to be written
  have hload : ∀ {l : Location} {t : Ty}, p.slotType? l = some t →
      (Exec.load l >>= Exec.push).run m ≠ .error (.fault (.indexOutOfRange i k)) m' := by
    intro l t ht hrun
    obtain ⟨m₁, h₁⟩ := run_loadSlot (h.reaches ht)
    rw [h₁] at hrun
    cases hrun
  have hstore : ∀ {l : Location} {t : Ty} {kind : Option ScalarKind}, p.slotType? l = some t →
      (Exec.popFit kind >>= Exec.store l).run m ≠ .error (.fault (.indexOutOfRange i k)) m' := by
    intro l t kind ht hrun
    have hreaches : ∀ rest, (m.withStack rest).Reaches l := fun rest =>
      Framed.reaches ⟨h.args, h.locals⟩ ht
    rcases run_storeSlot hreaches kind with ⟨m₁, h₁⟩ | h₁
    · rw [h₁] at hrun
      cases hrun
    · rw [h₁] at hrun
      cases hrun
  cases o with
  | loadArg j => exact hload (l := .argument j) (List.getElem?_eq_getElem ho)
  | loadLocal j => exact hload (l := .variable j) (List.getElem?_eq_getElem ho)
  | storeArg j kind => exact hstore (l := .argument j) ho.choose_spec.1
  | storeLocal j kind => exact hstore (l := .variable j) ho.choose_spec.1
  | addressArg j | addressLocal j => exact nofun
  | _ => cases hslot

end Procedure

/-! ## What a client records -/

/-- The locals that a client hands in with a call. -/
def Call.locals : Call → List Local
  | .perform o => o.locals
  | .finish => []

/-- The end of a session reaches no slot. -/
theorem Session.Fitted.ended {A : Op → Prop} {s : Session} (hs : s.Fitted A) (t : Tracer) :
    s.GoesOn A (s.ended t) := by
  have hmarked : s.GoesOn A s.marked := hs.next rfl rfl (fun _ ho => .inl ho) hs.loops hs.format
  have h₁ := hmarked.trans (hmarked.fitted.written t (s.finish.text ++ ":"))
  have h₂ := h₁.trans (h₁.fitted.written t "\x7d End method")
  have h₃ := h₂.trans (h₂.fitted.written t ("    " ++ "Ret"))
  exact h₃.trans (h₃.fitted.pushed nofun)

/-- An operation of linked code is an operation of the code. -/
theorem Linked.mem_op {labels : Marks} {code : Array (Instruction Label)}
    {code' : Array (Instruction Nat)} (hc : Linked labels code code') {n : Nat} {o : Op}
    (hn : code'[n]? = some (.op o)) : .op o ∈ code := by
  obtain ⟨i, hi, hlink⟩ := hc.getElem? hn
  cases i with
  | op o' =>
    cases hlink
    exact Array.mem_of_getElem? hi
  | ret => cases hlink
  | jump j =>
    rw [Instruction.link] at hlink
    cases hj : j.mapTargets labels.position <;> rw [hj] at hlink <;> cases hlink

namespace Builder

variable {A : Op → Prop} {b : Builder} {s s' : Session} {cs : List Call} {p : Procedure}

/-- A call that is handed over keeps what it was. -/
theorem goesOn_deliver (hs : s.Fitted A) : s.GoesOn A { s with notices := #[] } :=
  hs.next rfl rfl (fun _ ho => .inl ho) hs.loops hs.format

/-- A new builder has recorded nothing strange. -/
theorem begin_fitted (number : Nat) (name : String) (signature : Signature) (sink : Sink)
    (level : TraceDetail) (hs : (begin number name signature sink level).builder.state = .building s) :
    s.Fitted A := by
  cases hrun : (Emit.begin.run (.ofLevel level)).run (.fresh number name signature sink) with
  | error e s₁ => cases level <;> cases hrun
  | ok u s₁ =>
    have hgo := (Emit.keepsFitted_begin (A := A) (L := fun _ => False) _ (Tracer.fits_ofLevel level) _ s₁ u
      (Session.fitted_fresh number name signature sink) (fun _ hl => hl.elim) hrun).1
    unfold begin submit at hs
    dsimp only at hs
    rw [hrun] at hs
    cases hs
    exact (goesOn_deliver hgo.fitted).fitted

/-- **An accepted operation** on locals that the session serves leaves the session fitted, and the session
serves the locals that it answers. -/
theorem fitted_perform {o : Operation} {a : Answer} (hs : b.state = .building s) (hfitted : s.Fitted A)
    (ho : ∀ l ∈ o.locals, s.Serves A l) (ha : (b.perform o).result = .ok a)
    (hs' : (b.perform o).builder.state = .building s') :
    s.GoesOn A s' ∧ ∀ l ∈ a.locals, s'.Serves A l := by
  cases hrun : (o.perform.run (.ofLevel b.level)).run s with
  | error e s₁ =>
    rw [(perform_error hs hrun).1] at ha
    cases ha
  | ok a' s₁ =>
    rw [perform_ok hs hrun] at ha hs'
    cases ha
    cases hs'
    obtain ⟨hgo, hanswer⟩ := Operation.fits_perform (L := (· ∈ o.locals)) o (fun _ hl => hl) _
      (Tracer.fits_ofLevel b.level) s s₁ a hfitted ho hrun
    have hdelivered := goesOn_deliver hgo.fitted
    exact ⟨hgo.trans hdelivered, fun l hl => hdelivered.serves l (hanswer l hl)⟩

/-- Behind **any calls** the session is fitted, if what reaches the locals that are handed in is taken for
strange. -/
theorem fitted_after (hs : b.state = .building s) (hfitted : s.Fitted A)
    (hcs : ∀ c ∈ cs, ∀ l ∈ c.locals, ∀ o ∈ l.ops, A o) (hs' : (b.after cs).state = .building s') :
    s'.Fitted A := by
  induction cs generalizing b s with
  | nil =>
    rw [after, hs] at hs'
    cases hs'
    exact hfitted
  | cons c cs ih =>
    obtain ⟨hc, hrest⟩ := List.forall_mem_cons.1 hcs
    rcases take_building hs c with ⟨hgoing, s₁, hs₁⟩ | ⟨-, hstate⟩ | ⟨rfl, -, hstate⟩
    · cases c with
      | finish => exact absurd rfl hgoing.2
      | perform o =>
        cases ha : (b.perform o).result with
        | error e =>
          have hnone := hgoing.1
          simp only [take, Outcome.refusal, ha] at hnone
          cases hnone
        | ok a =>
          exact ih hs₁ (fitted_perform hs hfitted (fun l hl => .inr (hc l hl)) ha hs₁).1.fitted hrest hs'
    · rw [after, after_aborted hstate] at hs'
      cases hs'
    · rw [after, after_finalized hstate] at hs'
      cases hs'

/-- What a fitted session **links to** is provided or strange, and no jump leaves it. -/
theorem provides_of_finish (hs : b.state = .building s) (hsound : s.Sound) (hfitted : s.Fitted A)
    (hp : b.finish.result = .ok p) :
    (∀ (n : Nat) (o : Op), p.code[n]? = some (.op o) → p.Provides o ∨ A o) ∧ p.Closed := by
  cases hopen : s.constructs with
  | cons c rest =>
    rw [(finish_error hs (Emit.run_finish_open hopen)).1] at hp
    cases hp
  | nil =>
    by_cases hc : s.Complete
    · obtain ⟨code, hrun, hlinked, hclosed⟩ :=
        Emit.run_finish_complete (t := .ofLevel b.level) hsound hopen hc
      rw [(finish_ok hs hrun).1] at hp
      cases hp
      refine ⟨fun n o hn => ?_, hclosed _ _ _⟩
      refine ((hfitted.ended (.ofLevel b.level)).fitted.ops o (hlinked.mem_op hn)).imp_left fun h => ?_
      -- the end changes neither the signature nor the locals
      have hargs : (s.ended (.ofLevel b.level)).signature = s.signature := by
        simp [Session.ended, Session.marked]
      have hlocals : ∀ {i : Nat} {t : Ty}, (s.ended (.ofLevel b.level)).Owns ⟨i, t⟩ →
          (s.locals.toList.map (·.1))[i]? = some t := by
        rintro i t ⟨name, ht⟩
        have ht : s.locals[i]? = some (t, name) := by
          simpa [Session.ended, Session.marked] using ht
        simp [ht]
      cases o with
      | loadArg i | addressArg i =>
        obtain ⟨t, ht⟩ := h
        rw [hargs] at ht
        exact (List.getElem?_eq_some_iff.1 ht).1
      | storeArg i kind =>
        obtain ⟨t, ht, hkind⟩ := h
        rw [hargs] at ht
        exact ⟨t, ht, hkind⟩
      | loadLocal i | addressLocal i =>
        obtain ⟨t, ht⟩ := h
        exact (List.getElem?_eq_some_iff.1 (hlocals ht)).1
      | storeLocal i kind =>
        obtain ⟨t, ht, hkind⟩ := h
        exact ⟨t, hlocals ht, hkind⟩
      | _ => trivial
    · obtain ⟨l, hl⟩ := Session.exists_firstMissing hsound hc
      rw [(finish_error hs (Emit.run_finish_missing hsound hopen hl)).1] at hp
      cases hp

/-- **Recorded slots exist.** After any calls of a client to a new builder, at every trace level, each
recorded operation reaches a slot of the finished procedure and stores the kind that the slot is declared
with, unless it reaches a local that the client handed in and that the procedure does not declare. On
every machine of every run what is provided finds its slot, and so does whoever is given the address of
it. -/
theorem slots_exist (number : Nat) (name : String) (signature : Signature) (sink : Sink)
    (level : TraceDetail) (cs : List Call) (hcs : ∀ c ∈ cs, ∀ l ∈ c.handed, l.Issued)
    (hp : ((begin number name signature sink level).builder.after cs).finish.result = .ok p) :
    (∀ (n : Nat) (o : Op), p.code[n]? = some (.op o) →
        p.Provides o ∨ ∃ c ∈ cs, ∃ l ∈ c.locals, o ∈ l.ops ∧ ¬ p.Declares l) ∧
      ∀ (args : List Value) (world : World), args.length = p.signature.args.length →
        ∀ (n : Nat) (m : Machine), p.Visits ⟨p.frame args, world⟩ n m →
          ∀ o, p.Provides o →
            (o.isSlot → ∀ (i : Int) (k : Nat) (m' : Machine),
              o.execute.run m ≠ .error (.fault (.indexOutOfRange i k)) m') ∧
            ∀ l, o.addressed? = some l → m.Reaches l := by
  refine ⟨fun n o hn => ?_, fun args world hargs n m hvisits o ho => ?_⟩
  · obtain ⟨s₀, hs₀, hsound⟩ := begin_building number name signature sink level
    obtain ⟨s, hs⟩ := building_of_finish hp
    have hinside : ∀ c ∈ cs, Emit.Inside c.handed := fun c hc l hl => (hcs c hc l hl).inside
    have hfitted : s.Fitted fun o => ∃ c ∈ cs, ∃ l ∈ c.locals, o ∈ l.ops :=
      fitted_after hs₀ (begin_fitted number name signature sink level hs₀)
        (fun c hc l hl o ho => ⟨c, hc, l, hl, ho⟩) hs
    have hprovides := (provides_of_finish hs ((grows_after hs₀ hsound.inner hinside hs).sound hsound)
      hfitted hp).1 n o hn
    -- a local that the procedure declares is as good as its own
    by_cases hown : p.Provides o
    · exact .inl hown
    · obtain ⟨c, hc, l, hl, ho⟩ := hprovides.resolve_left hown
      exact .inr ⟨c, hc, l, hl, ho, fun hdeclares => hown (hdeclares.provides o ho)⟩
  · have hframed := hvisits.framed (Procedure.framed_start hargs world)
    exact ⟨fun hslot i k m' => hframed.inside ho hslot i k, fun l hl => hframed.addressed ho hl⟩

/-- The calls of a client that stores a 32-bit word into a local of another builder, which has the place
of an 8-bit one here, and reads that one. -/
def storeStrange : List Call :=
  [.perform (.newLocal (.primitive .i8) "y"), .perform (.loadConstant (.scalar (.i32 300))),
    .perform (.storeLocal ⟨0, .primitive .i32⟩), .perform (.loadLocal ⟨0, .primitive .i8⟩),
    .perform .ret]

/-- What they build. -/
def strangelyStored : Procedure where
  name := "f"
  signature := ⟨[], some (.primitive .i32)⟩
  locals := [.primitive .i8]
  code := #[.op (.push (.ofInt32 300)), .op (.storeLocal 0 (some .i32)), .op (.loadLocal 0), .ret, .ret]

theorem finish_storeStrange : ((begin 1 "f" ⟨[], some (.primitive .i32)⟩ .log .off).builder.after
    storeStrange).finish.result = .ok strangelyStored := by
  with_unfolding_all rfl

/-- The store is not of the kind of its slot, for the local that was handed in is not declared; so the
procedure returns what no 8-bit word can be. -/
theorem slots_exist_strange :
    (∀ c ∈ storeStrange, ∀ l ∈ c.handed, l.Issued) ∧
      ((begin 1 "f" ⟨[], some (.primitive .i32)⟩ .log .off).builder.after storeStrange).finish.result =
        .ok strangelyStored ∧
      (∃ c ∈ storeStrange, ∃ l ∈ c.locals,
        .storeLocal 0 (some .i32) ∈ l.ops ∧ ¬ strangelyStored.Declares l) ∧
      (strangelyStored.call 9 []).run {} = .ok (.ofInt32 300) {} := by
  have hissued : ∀ c ∈ storeStrange, ∀ l ∈ c.handed, l.Issued := by
    intro c hc l hl
    simp only [storeStrange, List.mem_cons, List.not_mem_nil, or_false] at hc
    rcases hc with rfl | rfl | rfl | rfl | rfl <;> exact absurd hl List.not_mem_nil
  obtain ⟨hrecorded, -⟩ :=
    slots_exist 1 "f" ⟨[], some (.primitive .i32)⟩ .log .off storeStrange hissued finish_storeStrange
  refine ⟨hissued, finish_storeStrange, (hrecorded 1 _ rfl).resolve_left ?_, rfl⟩
  rintro ⟨t, ht, hkind⟩
  cases ht
  cases hkind

end Builder

end Stackwright
