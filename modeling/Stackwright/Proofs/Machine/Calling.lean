import Stackwright.Proofs.Machine.Runs

/-! # Calls step by step

A call pops its arguments, reads the receiver if that is given by its address, runs the body, writes the
receiver back and pushes the result. Each part is told apart here, so that what is claimed of a call is
claimed of the body between them.

* **`Exec.settle f origin result left`** — what a call does once its body has returned.
* **`Machine.LeavesReceiver m f l v`** — a call from `m` reads its receiver at `l`, and its body leaves `v`
  in the place of it. -/

namespace Stackwright

namespace Exec

variable {m m' : Machine} {f : Method} {vs below : List Value} {v : Value} {l : Location}

/-! ## Operands -/

/-- The topmost operands are popped, the lowest first. -/
theorem run_popMany (h : m.frame.stack = vs.reverse ++ below) :
    (popMany vs.length).run m = .ok vs (m.withStack below) := by
  have htake : (m.frame.stack.take vs.length) = vs.reverse := by
    rw [h, ← vs.length_reverse, List.take_left']
    rfl
  have hdrop : (m.frame.stack.drop vs.length) = below := by
    rw [h, ← vs.length_reverse, List.drop_left']
    rfl
  rw [popMany, run_bind, run_get]
  dsimp only
  rw [htake, hdrop, List.length_reverse, if_neg (Nat.lt_irrefl _), List.reverse_reverse]
  rfl

/-- With too few operands nothing is popped. -/
theorem run_popMany_short {n : Nat} (h : m.frame.stack.length < n) :
    (popMany n).run m = .error (.fault .stackUnderflow) m := by
  have htake : (m.frame.stack.take n).length < n := by
    rw [List.length_take]
    omega
  rw [popMany, run_bind, run_get]
  dsimp only
  rw [if_pos htake]
  rfl

/-- A stack that is high enough ends in some operands. -/
theorem exists_operands {stack : List Value} {n : Nat} (h : n ≤ stack.length) :
    ∃ vs below : List Value, stack = vs.reverse ++ below ∧ vs.length = n := by
  refine ⟨(stack.take n).reverse, stack.drop n, ?_, ?_⟩
  · rw [List.reverse_reverse, List.take_append_drop]
  · rw [List.length_reverse, List.length_take]
    omega

/-! ## The receiver -/

/-- A receiver given by its address is read. -/
theorem run_openReceiver_address (hf : f.isStatic = false) :
    (openReceiver f (.address l :: vs)).run m = match m.read l with
      | .ok this =>
        if this.isNull && f.isVirtual then .error (.fault .nullReference) m
        else .ok (this :: vs, some l) m
      | .error e => .error (.fault e) m := by
  unfold openReceiver
  rw [hf]
  dsimp only
  rw [run_bind, run_load]
  cases m.read l with
  | error e => rfl
  | ok this =>
    dsimp only
    split <;> rfl

/-- Any other receiver is passed on as it is. -/
theorem run_openReceiver_plain (hf : f.isStatic = false) (hv : ∀ l, v ≠ .address l) :
    (openReceiver f (v :: vs)).run m =
      if v.isNull && f.isVirtual then .error (.fault .nullReference) m
      else .ok (v :: vs, none) m := by
  unfold openReceiver
  rw [hf]
  cases v with
  | address l => exact absurd rfl (hv l)
  | _ =>
    dsimp only
    split <;> rfl

/-- A static method has no receiver. -/
theorem run_openReceiver_static (hf : f.isStatic = true) :
    (openReceiver f vs).run m = .ok (vs, none) m := by
  unfold openReceiver
  rw [hf]
  rfl

/-! ## The call -/

/-- What a call does **once its body has returned**: the receiver is written back as the body left it, and
the result is pushed. -/
def settle (f : Method) (origin : Option Location) (result : Value) (left : List Value) :
    Exec Unit := do
  match origin, left with
  | some p, this :: _ => store p this
  | _, _ => pure ()
  match f.ret with
  | some t => push (Value.fit t.storedAs? result)
  | none => pure ()

/-- A call is its parts, one after the other. -/
theorem run_call (h : m.frame.stack = vs.reverse ++ below) (hn : vs.length = f.arity) :
    (call f).run m = (do
      let (args, origin) ← openReceiver f vs
      let (result, left) ← (f.call args : Host _)
      settle f origin result left).run (m.withStack below) := by
  rw [call, ← hn, run_bind_ok (run_popMany h)]
  rfl

/-- Without enough operands there is no call. -/
theorem run_call_short (h : m.frame.stack.length < f.arity) :
    (call f).run m = .error (.fault .stackUnderflow) m := by
  rw [call]
  exact run_bind_error (run_popMany_short h)

/-- Once the arguments are known, the body runs, and what is left to do follows. -/
theorem run_body (args : List Value) (origin : Option Location) :
    (do
      let (result, left) ← (f.call args : Host _)
      settle f origin result left : Exec Unit).run m =
      match (f.body args).run m.world with
      | .ok (result, left) w => (settle f origin result left).run { m with world := w }
      | .error e w => .error e { m with world := w } := by
  rw [run_bind, run_lift]
  have hcall : (f.call args).run m.world = (f.body args).run m.world := rfl
  rw [hcall]
  cases (f.body args).run m.world <;> rfl

end Exec

/-- The receiver of a call from a machine is given by the address `l`, and its body **leaves** `v` in the
place of what it is given. -/
def Machine.LeavesReceiver (m : Machine) (f : Method) (l : Location) (v : Value) : Prop :=
  ∃ this params below result rest w, f.isStatic = false ∧ params.length = f.params.length ∧
    m.frame.stack = (.address l :: params).reverse ++ below ∧ m.read l = .ok this ∧
    (f.body (this :: params)).run m.world = .ok (result, v :: rest) w

namespace Machine

variable {m m' : Machine} {f : Method} {l l' : Location} {v v' : Value} {vs below : List Value}

/-- The stack holds no location. -/
@[simp] theorem read_withStack (m : Machine) (stack : List Value) (l : Location) :
    (m.withStack stack).read l = m.read l := by
  cases l <;> rfl

/-- What a body leaves, told from the operands of the call. -/
theorem leavesReceiver_iff (h : m.frame.stack = vs.reverse ++ below) (hn : vs.length = f.arity) :
    m.LeavesReceiver f l v ↔ f.isStatic = false ∧ ∃ this params result rest w,
      vs = .address l :: params ∧ m.read l = .ok this ∧
        (f.body (this :: params)).run m.world = .ok (result, v :: rest) w := by
  constructor
  · rintro ⟨this, params, below', result, rest, w, hf, hparams, hstack, hread, hbody⟩
    have hlength : vs.reverse.length = (Value.address l :: params).reverse.length := by
      simp [hn, hparams, Method.arity, hf]
    have hvs := (List.append_inj (h.symm.trans hstack) hlength).1
    exact ⟨hf, this, params, result, rest, w, List.reverse_inj.1 hvs, hread, hbody⟩
  · rintro ⟨hf, this, params, result, rest, w, rfl, hread, hbody⟩
    refine ⟨this, params, below, result, rest, w, hf, ?_, h, hread, hbody⟩
    simpa [Method.arity, hf] using hn

/-- A call has one receiver, and its body leaves one value in the place of it. -/
theorem LeavesReceiver.unique (h : m.LeavesReceiver f l v) (h' : m.LeavesReceiver f l' v') :
    l' = l ∧ v' = v := by
  obtain ⟨this, params, below, result, rest, w, hf, hparams, hstack, hread, hbody⟩ := h
  have hn : (Value.address l :: params).length = f.arity := by simp [Method.arity, hf, hparams]
  obtain ⟨-, this', params', result', rest', w', hvs, hread', hbody'⟩ :=
    (leavesReceiver_iff hstack hn).1 h'
  cases hvs
  rw [hread] at hread'
  cases hread'
  rw [hbody] at hbody'
  cases hbody'
  exact ⟨rfl, rfl⟩

end Machine

/-- What an accepted call comes to: either its receiver is **written back**, or it has no receiver to write
back. -/
inductive Exec.Called (f : Method) (m m' : Machine) : Prop
  /-- The receiver is written back as the body left it. -/
  | back {l : Location} {v result : Value} {rest below : List Value} {w : World}
      (hleaves : m.LeavesReceiver f l v)
      (hsettle : (settle f (some l) result (v :: rest)).run { m.withStack below with world := w } =
        .ok () m')
  /-- Nothing is written back. -/
  | plain {origin : Option Location} {result : Value} {left below : List Value} {w : World}
      (hleaves : ∀ l v, ¬ m.LeavesReceiver f l v) (ho : origin = none ∨ left = [])
      (hsettle : (settle f origin result left).run { m.withStack below with world := w } = .ok () m')

/-- A call that is done is one of the two. -/
theorem Exec.called_of_call {f : Method} {m m' : Machine} (h : (call f).run m = .ok () m') :
    Called f m m' := by
  rcases Nat.lt_or_ge m.frame.stack.length f.arity with hshort | hlong
  · rw [run_call_short hshort] at h
    cases h
  obtain ⟨vs, below, hstack, hn⟩ := exists_operands hlong
  rw [run_call hstack hn] at h
  have hleaves := fun l v => Machine.leavesReceiver_iff (l := l) (v := v) hstack hn
  -- without an address nothing is written back
  have hplain : ∀ {args : List Value}, (∀ l params, f.isStatic = false → vs ≠ .address l :: params) →
      (openReceiver f vs).run (m.withStack below) = .ok (args, none) (m.withStack below) →
      Called f m m' := by
    intro args hvs hopen
    rw [run_bind_ok hopen, run_body] at h
    split at h
    · refine .plain (fun l v hl => ?_) (.inl rfl) h
      obtain ⟨hf, this, params, -, -, -, heq, -⟩ := (hleaves l v).1 hl
      exact hvs l params hf heq
    · cases h
  cases hf : f.isStatic with
  | true => exact hplain (fun _ _ hf' => absurd hf' (by simp [hf])) (run_openReceiver_static hf)
  | false =>
    cases vs with
    | nil => simp [Method.arity, hf] at hn
    | cons this params =>
      by_cases haddress : ∃ l, this = .address l
      · obtain ⟨l, rfl⟩ := haddress
        rw [run_bind, run_openReceiver_address hf, Machine.read_withStack] at h
        cases hread : m.read l with
        | error e =>
          rw [hread] at h
          cases h
        | ok this =>
          simp only [hread] at h
          split at h
          next args m₁ hopened =>
            split at hopened
            · cases hopened
            · cases hopened
              rw [run_body] at h
              split at h
              next result left w hbody =>
                cases left with
                | nil =>
                  refine .plain (fun l' v hl => ?_) (.inr rfl) h
                  obtain ⟨-, _, _, _, _, _, heq, hread', hbody'⟩ := (hleaves l' v).1 hl
                  cases heq
                  rw [hread] at hread'
                  cases hread'
                  rw [show (m.withStack below).world = m.world from rfl, hbody'] at hbody
                  cases hbody
                | cons v rest =>
                  exact .back ((hleaves l v).2 ⟨hf, this, params, result, rest, w, rfl, hread, hbody⟩) h
              next => cases h
          next => cases h
      · have hthis : ∀ l, this ≠ .address l := fun l hl => haddress ⟨l, hl⟩
        have hopen : (openReceiver f (this :: params)).run (m.withStack below) = _ :=
          run_openReceiver_plain hf hthis
        by_cases hnull : (this.isNull && f.isVirtual) = true
        · rw [if_pos hnull] at hopen
          rw [run_bind_error hopen] at h
          cases h
        · rw [if_neg hnull] at hopen
          exact hplain (fun l _ _ heq => hthis l (List.cons.inj heq).1) hopen

end Stackwright
