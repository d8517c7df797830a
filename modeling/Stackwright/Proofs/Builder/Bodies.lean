import Stackwright.Proofs.Builder.Standing
import Stackwright.Proofs.Emission.Parameters
import Stackwright.Proofs.Machine.Calling
import Stackwright.Proofs.Ty.Order

/-! # What bodies receive

The body of a method or of a constructor receives what the call or the new instance was given: behind the
receiver or the fresh instance, one value for each parameter. Such a value conforms to the type of its
parameter **exactly when its operand is not mispassed**, wherever the operation stands in a procedure and
at every level.

* **`Op.Enters m o args w`** — the arguments that a body receives, and the world that it finds.
* **`Operation.Passes o os ts last`** — an operation passes operands to parameters.
* **`Builder.parameters_arrive`** — what the parameters are. -/

namespace Stackwright

/-! ## (1) What is popped -/

namespace Exec

variable {m m' : Machine} {f : Method} {vs args own xs below : List Value} {origin : Option Location}

/-- Operands that are popped together **end in those on top**. -/
theorem append_of_popMany {n : Nat} (hstack : m.frame.stack = xs.reverse ++ below) (hn : xs.length ≤ n)
    (h : (popMany n).run m = .ok vs m') : m'.world = m.world ∧ vs.length = n ∧ ∃ own, vs = own ++ xs := by
  by_cases hheight : n ≤ m.frame.stack.length
  · obtain ⟨popped, rest, hpopped, hlength⟩ := exists_operands hheight
    rw [← hlength, run_popMany hpopped] at h
    cases h
    -- both are what the stack begins with
    have hxs : xs.reverse <+: m.frame.stack := ⟨below, hstack.symm⟩
    have hvs : vs.reverse <+: m.frame.stack := ⟨rest, hpopped.symm⟩
    have hle : xs.reverse.length ≤ vs.reverse.length := by
      rw [List.length_reverse, List.length_reverse, hlength]
      exact hn
    obtain ⟨own, hown⟩ := List.reverse_prefix.1 (List.prefix_of_prefix_length_le hxs hvs hle)
    exact ⟨rfl, hlength, own, hown.symm⟩
  · rw [run_popMany_short (Nat.lt_of_not_le hheight)] at h
    cases h

/-- Reading the receiver leaves the parameters as they are. -/
theorem append_of_openReceiver (hown : own.length = if f.isStatic then 0 else 1)
    (h : (openReceiver f (own ++ xs)).run m = .ok (args, origin) m') :
    m' = m ∧ ∃ own', args = own' ++ xs := by
  refine ⟨(quiet_openReceiver f _).ok h, ?_⟩
  cases hf : f.isStatic with
  | true =>
    rw [run_openReceiver_static hf] at h
    cases h
    exact ⟨own, rfl⟩
  | false =>
    rw [hf] at hown
    obtain ⟨v, rfl⟩ := List.length_eq_one_iff.1 hown
    rw [List.singleton_append] at h
    by_cases haddress : ∃ l, v = .address l
    · obtain ⟨l, rfl⟩ := haddress
      rw [run_openReceiver_address hf] at h
      split at h
      · split at h <;> cases h
        exact ⟨[_], rfl⟩
      · cases h
    · rw [run_openReceiver_plain hf fun l hl => haddress ⟨l, hl⟩] at h
      split at h <;> cases h
      exact ⟨[v], rfl⟩

end Exec

/-! ## (2) Fresh instances -/

/-- A type that accepts the root accepts every type. -/
theorem Ty.accepts_of_accepts_object {t : Ty} (ht : t.accepts .object) (u : Ty) : t.accepts u := by
  obtain rfl : t = .object := by
    cases t with
    | object => rfl
    | _ => simp [accepts, lineage, implements, lists, kind, beq_iff] at ht
  exact object_accepts u

namespace Heap

variable {h : Heap} {v : Value} {t : Ty}

/-- The type of an object that was made before stays; what was never made reads as one of the root type. -/
theorem accepts_allocObject (u : Ty) {o : ObjectId} (ht : t.accepts (h.objectCell o).type) :
    t.accepts ((h.allocObject u).2.objectCell o).type := by
  by_cases hlt : o.index < h.objects.size
  · have hcell : (h.allocObject u).2.objectCell o = h.objectCell o := by
      simp [objectCell, Heap.allocObject, Array.getD_eq_getD_getElem?, Array.getElem?_push, Nat.ne_of_lt hlt]
    rwa [hcell]
  · have hnone : h.objects[o.index]? = none := Array.getElem?_eq_none (Nat.le_of_not_lt hlt)
    refine Ty.accepts_of_accepts_object ?_ _
    simpa [objectCell, Array.getD_eq_getD_getElem?, hnone] using ht

theorem Conforms.allocObject (hv : h.Conforms v t) (u : Ty) : (h.allocObject u).2.Conforms v t :=
  hv.keep fun _ _ => ⟨fun _ => rfl, fun _ _ ht => accepts_allocObject u ht, fun _ _ => rfl⟩

end Heap

/-- What conforms still conforms behind a fresh instance. -/
theorem Heap.Conforms.fresh {w w' : World} {v made : Value} {t u : Ty} (hv : w.heap.Conforms v t)
    (h : (Constructor.fresh u).run w = .ok made w') : w'.heap.Conforms v t := by
  unfold Constructor.fresh at h
  split at h
  · cases h
    exact hv.allocObject u
  · cases h
    exact hv

/-! ## (3) Bodies -/

/-- The **arguments** that a body receives and the world that it finds, when the operation that runs it is
done on a machine. -/
inductive Op.Enters (m : Machine) : Op → List Value → World → Prop
  /-- A method receives its operands; a receiver that is given by its address is read. -/
  | method {f : Method} {args : List Value} {origin : Option Location} {m' : Machine}
      (h : (do Exec.openReceiver f (← Exec.popMany f.arity) : Exec _).run m = .ok (args, origin) m') :
      Enters m (.call f) args m'.world
  /-- A constructor receives a fresh instance and its operands. -/
  | maker {c : Constructor} {params : List Value} {made : Value} {m' : Machine} {w : World}
      (hpop : (Exec.popMany c.params.length).run m = .ok params m')
      (hfresh : (Constructor.fresh c.owner).run m'.world = .ok made w) :
      Enters m (.instantiate c) (made :: params) w

/-- An operation **passes** operands to the parameters of the body that its last instruction runs. -/
inductive Operation.Passes : Operation → List Operand → List Ty → Op → Prop
  /-- A call on operands. -/
  | call (r : Option Operand) (f : Method) (os : List Operand) :
      Passes (.callWith r f os) os f.params (.call f)
  /-- A new instance. -/
  | instantiate (c : Constructor) (os : List Operand) :
      Passes (.instantiate c os) os c.params (.instantiate c)

/-- The parameters of a body that is **entered** are the values on top of the stack. -/
theorem Op.Enters.append {o : Operation} {os : List Operand} {ts : List Ty} {last : Op} {m : Machine}
    {args xs below : List Value} {w : World} (hpasses : o.Passes os ts last)
    (hstack : m.frame.stack = xs.reverse ++ below) (hlength : xs.length = ts.length)
    (h : last.Enters m args w) :
    (∃ own, args = own ++ xs) ∧ ∀ v t, m.world.heap.Conforms v t → w.heap.Conforms v t := by
  cases h with
  | @method f args origin m' h =>
    cases hpasses
    rw [Exec.run_bind] at h
    split at h
    · rename_i vs m₁ hpop
      obtain ⟨hworld, hvs, own, rfl⟩ :=
        Exec.append_of_popMany hstack (hlength ▸ Nat.le_add_right _ _) hpop
      have hown : own.length = if f.isStatic then 0 else 1 := by
        rw [List.length_append, hlength, Method.arity] at hvs
        omega
      obtain ⟨rfl, happend⟩ := Exec.append_of_openReceiver hown h
      exact ⟨happend, fun v t hv => hworld ▸ hv⟩
    · cases h
  | @maker c params made m' w hpop hfresh =>
    cases hpasses
    obtain ⟨hworld, -, own, rfl⟩ := Exec.append_of_popMany hstack (Nat.le_of_eq hlength) hpop
    exact ⟨⟨made :: own, rfl⟩, fun v t hv => Heap.Conforms.fresh (hworld ▸ hv) hfresh⟩

/-- The operations that are recorded: those that load a receiver, those that load the parameters, and the
last. -/
theorem Operation.Passes.recorded {o : Operation} {os : List Operand} {ts : List Ty} {last : Op}
    (h : o.Passes os ts last) : ∃ e, o.perform = Operation.perform.done e ∧
      e.RecordsThen (fun x => ∃ first rest, x = first ++ rest ∧ (∀ k, ∃ n, Op.Chain k 0 first n) ∧
        Operand.PassedInRow os ts rest ∧ ∀ o ∈ os, o.Loadable) last := by
  cases h with
  | call r f os =>
    refine ⟨_, rfl, ((Emit.records_callWith r f os).and (Emit.loadable_callWith r f os)).mono ?_⟩
    rintro x ⟨⟨first, rest, hx, hfirst, hrest⟩, hload⟩
    refine ⟨first, rest, hx, fun k => ?_, hrest, hload⟩
    obtain ⟨n, -, hchain⟩ := hfirst.chain k
    exact ⟨n, hchain⟩
  | instantiate c os =>
    refine ⟨_, rfl, ((Emit.records_instantiate c os).and (Emit.loadable_instantiate c os)).mono ?_⟩
    exact fun x hx => ⟨[], x, rfl, fun k => ⟨0, .nil 0⟩, hx.1, hx.2⟩

namespace Builder

/-- **Parameters arrive.** Wherever an accepted call on operands, or an accepted new instance, stands in a
procedure, at every level: when its code is reached with slots that hold values of their types, and the
body is entered behind it, then behind the receiver or the fresh instance the body receives one value for
each operand, in order. It conforms to the type of its parameter, in the heap that the body finds as well,
unless the operand is mispassed; and then it does not. -/
theorem parameters_arrive {number : Nat} {name : String} {signature : Signature} {sink : Sink}
    {level : TraceDetail} {cs cs' : List Call} {o : Operation} {os : List Operand} {ts : List Ty} {last : Op}
    {p : Procedure} (hpasses : o.Passes os ts last)
    (hissued : ∀ call ∈ cs ++ .perform o :: cs', ∀ l ∈ call.handed, l.Issued)
    (hbelow : ∀ s, ((begin number name signature sink level).builder.after cs).state = .building s →
      ∀ x ∈ os, x.Below s.locals.size)
    (hp : ((begin number name signature sink level).builder.after (cs ++ .perform o :: cs')).finish.result =
      .ok p) :
    ∃ s s' n, ((begin number name signature sink level).builder.after cs).state = .building s ∧
      ((begin number name signature sink level).builder.after (cs ++ [.perform o])).state = .building s' ∧
      s'.code.size = n + 1 ∧ p.code[n]? = some (.op last) ∧
      ∀ m m', p.Crosses s.code.size n m m' → (∀ x ∈ os, x.Sound m) → ∀ args w, last.Enters m' args w →
        ∃ own xs, args = own ++ xs ∧ Operand.Arrives m m'.world.heap os ts xs ∧
          ∀ v t, m'.world.heap.Conforms v t → w.heap.Conforms v t := by
  obtain ⟨s, s', hs, hs', hstands⟩ := stands_of_after hissued hp
  obtain ⟨e, hperform, hrecords⟩ := hpasses.recorded
  -- the code is the receiver, the parameters and the last operation, with reports and dumps between
  obtain ⟨_, n, ⟨first, rest, rfl, hfirst, hrest, hload⟩, -, hn, hlast, hleads⟩ :=
    hstands.leadsThen hperform hrecords
  refine ⟨s, { s' with notices := #[] }, n, hs, hs', hn, hlast, fun m m' hcross hsound args w henters => ?_⟩
  have hk := hbelow s hs
  obtain ⟨m₁, hreceive, hparams⟩ := ((hleads m).crosses hcross).split_ok
  obtain ⟨n, hchain⟩ := hfirst s.locals.size
  have hbelow : m.frame.stack = [] ++ m.frame.stack := rfl
  obtain ⟨haside, zs, -, hstack⟩ := hchain.ok hreceive hbelow rfl
  obtain ⟨haside', xs, hstack', harrive⟩ := hparams.passedInRow hrest
    (fun x hx => (hsound x hx).aside (hk x hx) haside) hload hk
  have harrive := (harrive m'.world.heap (.refl _)).aside hk haside
  obtain ⟨⟨own, hargs⟩, hconforms⟩ := henters.append hpasses hstack' harrive.length
  exact ⟨own, xs, hargs, harrive, hconforms⟩

/-- A static method of an 8-bit parameter. -/
def takeByte : Method where
  owner := .object
  name := "take"
  params := [.primitive .i8]
  ret := none
  isStatic := true
  body := fun args => pure (.null, args)

/-- A procedure that calls it on a constant. -/
def byteTaken : Procedure where
  name := "f"
  signature := ⟨[], none⟩
  locals := []
  code := #[.op (.push (.ofInt32 5)), .op (.call takeByte), .ret]

theorem finish_byteTaken : ((begin 1 "f" ⟨[], none⟩ .log .off).builder.after
    ([] ++ [.perform (.callWith none takeByte [.constant (.scalar (.word .i8 5))])])).finish.result =
      .ok byteTaken := by
  with_unfolding_all rfl

/-- The body receives the 8-bit constant as a 32-bit integer. -/
theorem parameters_arrive_byte :
    ((begin 1 "f" ⟨[], none⟩ .log .off).builder.after
      ([] ++ [.perform (.callWith none takeByte [.constant (.scalar (.word .i8 5))])])).finish.result =
        .ok byteTaken ∧
      ∃ m, byteTaken.Crosses 0 1 ⟨⟨#[], #[], []⟩, {}⟩ m ∧
        Op.Enters m (.call takeByte) [.ofInt32 5] m.world ∧
        ¬ m.world.heap.Conforms (.ofInt32 5) (.primitive .i8) := by
  have hissued : ∀ call ∈ [] ++ [Call.perform (.callWith none takeByte [.constant (.scalar (.word .i8 5))])],
      ∀ l ∈ call.handed, l.Issued := by
    intro call hcall l hl
    obtain rfl := List.mem_singleton.1 hcall
    exact absurd hl List.not_mem_nil
  have hbelow : ∀ k, ∀ x ∈ [Operand.constant (.scalar (.word .i8 5))], x.Below k := by
    intro k x hx l hl
    obtain rfl := List.mem_singleton.1 hx
    exact absurd hl List.not_mem_nil
  obtain ⟨s, s', n, hs, hs', hn, -, harrive⟩ := parameters_arrive
    (.call none takeByte [.constant (.scalar (.word .i8 5))]) hissued (fun s _ => hbelow _) finish_byteTaken
  cases hs
  cases hs'
  obtain rfl : n = 1 := (Nat.succ.inj hn).symm
  have hcross : byteTaken.Crosses 0 1 ⟨⟨#[], #[], []⟩, {}⟩ ⟨⟨#[], #[], [.ofInt32 5]⟩, {}⟩ :=
    .next (Nat.le_refl _) Nat.one_pos rfl rfl (.here _ _)
  have hopen : (do Exec.openReceiver takeByte (← Exec.popMany takeByte.arity) : Exec _).run
      ⟨⟨#[], #[], [.ofInt32 5]⟩, {}⟩ = .ok ([.ofInt32 5], none) ⟨⟨#[], #[], []⟩, {}⟩ := rfl
  have henters : Op.Enters ⟨⟨#[], #[], [.ofInt32 5]⟩, {}⟩ (.call takeByte) [.ofInt32 5] {} := .method hopen
  refine ⟨finish_byteTaken, _, hcross, henters, ?_⟩
  have hsound : ∀ x ∈ [Operand.constant (.scalar (.word .i8 5))], x.Sound ⟨⟨#[], #[], []⟩, {}⟩ := by
    intro x hx
    obtain rfl := List.mem_singleton.1 hx
    exact trivial
  obtain ⟨own, xs, hargs, hxs, -⟩ := harrive _ _ hcross hsound _ _ henters
  cases hxs with
  | @cons _ _ v x _ _ xs hv hx hrest =>
    cases hrest
    obtain ⟨rfl, hargs⟩ := List.append_eq_singleton_iff.1 hargs.symm |>.resolve_right (by simp)
    cases hargs
    rw [hx, not_not]
    exact Operand.mispassed_scalar_iff.2 (by decide)

end Builder

end Stackwright
