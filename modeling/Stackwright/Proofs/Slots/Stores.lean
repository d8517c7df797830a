import Stackwright.Proofs.Emission.Lines
import Stackwright.Proofs.Emission.Names

/-! # Recorded slots exist

An argument is looked up in the session before it is reached, a local is not: its index and the kind that
a store writes are those of the slot that is handed in. So a session reaches **slots that exist**, and
each store is of the kind that its slot was declared with, except where a client hands in a local of
another session. The statement composes along the calls that a call is made of, like that of `Emit.Gives`;
what it needs besides is which locals a call relies on.

* **`Session.Owns s l`** — the session declared the local.
* **`Session.Provides s o`** — the slot that an operation reaches exists, and a store fits it.
* **`Session.Fitted A s`** — every recorded operation is provided or among the strange ones `A`.
* **`Emit.Fits A L e Q`** — an accepted `e` on a session that serves `L` keeps it fitted and serves `Q`. -/

namespace Stackwright

/-! ## Locals that are remembered -/

/-- The locals that an open loop remembers. -/
def LoopState.locals (k : LoopState) : List Local := k.slot.toList ++ k.bound.locals

/-- The locals that an open construct remembers. -/
def Construct.locals : Construct → List Local
  | .counted k | .enumerated k => k.locals
  | .conditional .. | .switch .. | .whileLoop _ => []

/-- The locals that an answer hands out. -/
def Answer.locals : Answer → List Local
  | .variable l => [l]
  | _ => []

/-- The exit of a loop is no local. -/
theorem Construct.locals_of_mem_setExit {h : LoopHandle} {l : Label} {c : Construct}
    {cs : List Construct} (hc : c ∈ setExit h l cs) : ∃ c' ∈ cs, c.locals = c'.locals := by
  induction cs with
  | nil => exact absurd hc List.not_mem_nil
  | cons b cs ih =>
    rw [setExit] at hc
    split at hc
    · rcases List.mem_cons.1 hc with rfl | hc
      · refine ⟨b, List.mem_cons_self, ?_⟩
        cases b <;> rfl
      · exact ⟨c, List.mem_cons_of_mem _ hc, rfl⟩
    · rcases List.mem_cons.1 hc with rfl | hc
      · exact ⟨c, List.mem_cons_self, rfl⟩
      · obtain ⟨c', hc', heq⟩ := ih hc
        exact ⟨c', List.mem_cons_of_mem _ hc', heq⟩

/-- The operations that **reach** a local: its load, its store and the taking of its address. -/
def Local.ops (l : Local) : List Op :=
  [.loadLocal l.index, .storeLocal l.index l.type.storedAs?, .addressLocal l.index]

/-- Whether an operation reaches an argument or a local. -/
def Op.isSlot : Op → Bool
  | .loadArg _ | .storeArg .. | .addressArg _ | .loadLocal _ | .storeLocal .. | .addressLocal _ => true
  | _ => false

namespace Session

variable {A : Op → Prop} {s s' : Session} {l : Local} {o : Op}

/-! ## Fitted sessions -/

/-- The session **declared** the local. -/
def Owns (s : Session) (l : Local) : Prop := ∃ name, s.locals[l.index]? = some (l.type, name)

/-- The slot that an operation reaches **exists**, and what is stored is of the kind that it was declared
with. -/
def Provides (s : Session) : Op → Prop
  | .loadArg i | .addressArg i => ∃ t, s.signature.args[i]? = some t
  | .storeArg i kind => ∃ t, s.signature.args[i]? = some t ∧ kind = t.storedAs?
  | .loadLocal i | .addressLocal i => ∃ t, s.Owns ⟨i, t⟩
  | .storeLocal i kind => ∃ t, s.Owns ⟨i, t⟩ ∧ kind = t.storedAs?
  | _ => True

theorem provides_of_not_isSlot (ho : o.isSlot = false) : s.Provides o := by
  cases o <;> simp_all [Provides, Op.isSlot]

/-- A session provides what reaches its own locals. -/
theorem Owns.provides (h : s.Owns l) : ∀ o ∈ l.ops, s.Provides o := by
  intro o ho
  simp only [Local.ops, List.mem_cons, List.not_mem_nil, or_false] at ho
  rcases ho with rfl | rfl | rfl
  · exact ⟨l.type, h⟩
  · exact ⟨l.type, h, rfl⟩
  · exact ⟨l.type, h⟩

/-- The session **serves** a local: it is its own, or all that reaches it is among the strange operations. -/
def Serves (A : Op → Prop) (s : Session) (l : Local) : Prop := s.Owns l ∨ ∀ o ∈ l.ops, A o

/-- Where nothing is strange, a session serves its own locals. -/
theorem serves_none_iff : s.Serves (fun _ => False) l ↔ s.Owns l :=
  ⟨fun h => h.resolve_right fun hnone => hnone (.loadLocal l.index) List.mem_cons_self, .inl⟩

/-- An operation is provided or strange. -/
def Takes (A : Op → Prop) (s : Session) (o : Op) : Prop := s.Provides o ∨ A o

theorem Serves.takes (h : s.Serves A l) (ho : o ∈ l.ops) : s.Takes A o :=
  h.imp (fun h => h.provides o ho) fun h => h o ho

/-- Every recorded operation is provided or **strange**, and the session serves the locals that it
remembers. -/
structure Fitted (A : Op → Prop) (s : Session) : Prop where
  /-- Every recorded operation is provided or strange. -/
  ops : ∀ o, .op o ∈ s.code → s.Takes A o
  /-- The session serves the locals of open loops. -/
  loops : ∀ c ∈ s.constructs, ∀ l ∈ c.locals, s.Serves A l
  /-- So it does the local for the operands of formatted text. -/
  format : ∀ l, s.formatArray = some l → s.Serves A l

/-- A session **goes on** fitted: what it owned it still owns. -/
structure GoesOn (A : Op → Prop) (s s' : Session) : Prop where
  /-- It is still fitted. -/
  fitted : s'.Fitted A
  /-- It still owns its locals. -/
  owns : ∀ l, s.Owns l → s'.Owns l

theorem Fitted.goesOn (hs : s.Fitted A) : s.GoesOn A s := ⟨hs, fun _ h => h⟩

theorem GoesOn.trans {s'' : Session} (h : s.GoesOn A s') (h' : s'.GoesOn A s'') : s.GoesOn A s'' :=
  ⟨h'.fitted, fun l hl => h'.owns l (h.owns l hl)⟩

theorem fitted_fresh (number : Nat) (name : String) (signature : Signature) (sink : Sink) :
    (fresh number name signature sink).Fitted A where
  ops o ho := absurd ho (Array.not_mem_empty _)
  loops c hc := absurd hc List.not_mem_nil
  format l hl := by cases hl

/-- What it served it still serves. -/
theorem GoesOn.serves (h : s.GoesOn A s') (l : Local) (hl : s.Serves A l) : s'.Serves A l :=
  hl.imp_left (h.owns l)

/-- What is provided stays so as long as the slots stay what they are. -/
theorem Takes.mono (h : s.Takes A o) (howns : ∀ l, s.Owns l → s'.Owns l)
    (hsignature : s'.signature = s.signature) : s'.Takes A o := by
  refine h.imp_left fun h => ?_
  cases o with
  | loadArg i | addressArg i | storeArg i kind => simpa only [Provides, hsignature] using h
  | loadLocal i | addressLocal i => exact h.imp fun t ht => howns _ ht
  | storeLocal i kind => exact h.imp fun t ht => ht.imp_left (howns _)
  | _ => trivial

/-- What leaves the locals alone keeps a session fitted, if it records what is provided or strange and
remembers locals that are served. -/
theorem Fitted.next (hs : s.Fitted A) (hlocals : s'.locals = s.locals)
    (hsignature : s'.signature = s.signature)
    (hcode : ∀ o, .op o ∈ s'.code → .op o ∈ s.code ∨ s.Takes A o)
    (hloops : ∀ c ∈ s'.constructs, ∀ l ∈ c.locals, s.Serves A l)
    (hformat : ∀ l, s'.formatArray = some l → s.Serves A l) : s.GoesOn A s' := by
  have howns : ∀ l, s.Owns l → s'.Owns l := by
    intro l hl
    rw [Owns, hlocals]
    exact hl
  refine ⟨⟨fun o ho => ?_, fun c hc l hl => (hloops c hc l hl).imp_left (howns l),
    fun l hl => (hformat l hl).imp_left (howns l)⟩, howns⟩
  exact ((hcode o ho).elim (hs.ops o) fun h => h).mono howns hsignature

theorem Fitted.recorded (hs : s.Fitted A) (ho : s.Takes A o) : s.GoesOn A (s.recorded [o]) := by
  refine hs.next rfl rfl (fun o' ho' => ?_) hs.loops hs.format
  rcases Array.mem_append.1 ho' with h | h
  · exact .inl h
  · cases List.mem_singleton.1 (Array.mem_def.1 h)
    exact .inr ho

/-- An instruction that is no operation reaches no slot. -/
theorem Fitted.pushed (hs : s.Fitted A) {i : Instruction Label} (hi : ∀ o, i ≠ .op o) :
    s.GoesOn A { s with code := s.code.push i } := by
  refine hs.next rfl rfl (fun o ho => .inl ?_) hs.loops hs.format
  rcases Array.mem_push.1 ho with h | h
  · exact h
  · exact absurd h.symm (hi o)

theorem Fitted.written (hs : s.Fitted A) (t : Tracer) (text : String) :
    s.GoesOn A (s.written t text) := by
  refine hs.next (locals_written s t text) (signature_written s t text) (fun o ho => ?_)
    (by rw [constructs_written]; exact hs.loops) fun l hl => hs.format l ?_
  · rw [code_written] at ho
    rcases Array.mem_append.1 ho with h | h
    · exact .inl h
    · obtain ⟨o', ho', heq⟩ := List.mem_map.1 (Array.mem_def.1 h)
      cases heq
      -- a report pushes a text and calls, it reaches no slot
      unfold Tracer.report at ho'
      split at ho'
      · rcases List.mem_cons.1 ho' with rfl | ho'
        · exact .inr (.inl trivial)
        · cases List.mem_singleton.1 ho'
          exact .inr (.inl trivial)
      · exact absurd ho' List.not_mem_nil
  · unfold Session.written at hl
    split at hl <;> exact hl

/-- A declared local is the session's own, and the others stay so. -/
theorem Fitted.declare (hs : s.Fitted A) (t : Ty) (name : String) :
    s.GoesOn A { s with locals := s.locals.push (t, name) } ∧
      ({ s with locals := s.locals.push (t, name) } : Session).Owns ⟨s.locals.size, t⟩ := by
  have howns : ∀ l, s.Owns l →
      ({ s with locals := s.locals.push (t, name) } : Session).Owns l := by
    rintro l ⟨n, hn⟩
    exact ⟨n, (Session.Change.declare t name).locals hn⟩
  exact ⟨⟨⟨fun o ho => (hs.ops o ho).mono howns rfl,
    fun c hc l hl => (hs.loops c hc l hl).imp_left (howns l),
    fun l hl => (hs.format l hl).imp_left (howns l)⟩, howns⟩, name, by simp⟩

theorem Fitted.withConstructs (hs : s.Fitted A) {cs : List Construct}
    (hcs : ∀ c ∈ cs, ∀ l ∈ c.locals, s.Serves A l) : s.GoesOn A { s with constructs := cs } :=
  hs.next rfl rfl (fun _ ho => .inl ho) hcs hs.format

end Session

/-- Showing a value keeps sessions fitted. -/
def Tracer.Fits (A : Op → Prop) (t : Tracer) : Prop :=
  ∀ (T : Ty) (s s' : Session), s.Fitted A → (t.probe T).run s = .ok () s' → s.GoesOn A s'

namespace Emit

variable {α β : Type} {e : Emit α} {f : α → Emit β} {A : Op → Prop} {L L' : Local → Prop}
  {Q Q' : α → List Local} {R : β → List Local}

/-- An accepted call on a fitted session that serves some locals **keeps it fitted**, and the session serves
the locals that are answered. -/
def Fits (A : Op → Prop) (L : Local → Prop) (e : Emit α) (Q : α → List Local) : Prop :=
  ∀ t : Tracer, t.Fits A → ∀ (s s' : Session) (a : α), s.Fitted A → (∀ l, L l → s.Serves A l) →
    (e.run t).run s = .ok a s' → s.GoesOn A s' ∧ ∀ l ∈ Q a, s'.Serves A l

/-- The same, for a call whose answer is no local. -/
def KeepsFitted (A : Op → Prop) (L : Local → Prop) (e : Emit α) : Prop := e.Fits A L fun _ => []

/-! ## Composition -/

theorem fits_pure {a : α} (h : ∀ l ∈ Q a, L l) : (pure a : Emit α).Fits A L Q := by
  intro t ht s s' b hs hL hrun
  cases hrun
  exact ⟨hs.goesOn, fun l hl => hL l (h l hl)⟩

theorem keepsFitted_pure (a : α) : (pure a : Emit α).KeepsFitted A L :=
  fits_pure fun _ hl => absurd hl List.not_mem_nil

theorem Fits.bind (he : e.Fits A L Q) (hf : ∀ a, (f a).Fits A (fun l => L l ∨ l ∈ Q a) R) :
    (e >>= f).Fits A L R := by
  intro t ht s s' b hs hL hrun
  rw [run_bind] at hrun
  split at hrun
  · rename_i a s₁ h₁
    obtain ⟨hgo, hQ⟩ := he t ht s s₁ a hs hL h₁
    have howned : ∀ l, L l ∨ l ∈ Q a → s₁.Serves A l := fun l hl =>
      hl.elim (fun hl => hgo.serves l (hL l hl)) (hQ l)
    obtain ⟨hgo', hR⟩ := hf a t ht s₁ s' b hgo.fitted howned hrun
    exact ⟨hgo.trans hgo', hR⟩
  · cases hrun

theorem Fits.weaken (h : e.Fits A L Q) (hL : ∀ l, L l → L' l) (hQ : ∀ a, Q' a ⊆ Q a) :
    e.Fits A L' Q' := by
  intro t ht s s' a hs hL' hrun
  obtain ⟨hgo, hans⟩ := h t ht s s' a hs (fun l hl => hL' l (hL l hl)) hrun
  exact ⟨hgo, fun l hl => hans l (hQ a hl)⟩

/-- Where no local is answered, the rest relies on the same locals. -/
theorem KeepsFitted.seq (he : e.KeepsFitted A L) (hf : ∀ a, (f a).Fits A L R) : (e >>= f).Fits A L R :=
  Fits.bind he fun a => (hf a).weaken (fun _ => .inl) fun _ => List.Subset.refl _

theorem Fits.keeps (h : e.Fits A L Q) : e.KeepsFitted A L :=
  h.weaken (fun _ hl => hl) fun _ => List.nil_subset _

theorem Fits.ite {c : Prop} [Decidable c] {e e' : Emit α} (h : e.Fits A L Q) (h' : e'.Fits A L Q) :
    (if c then e else e').Fits A L Q := by
  split
  · exact h
  · exact h'

theorem fits_refuse (r : BuildError) : (refuse r : Emit α).Fits A L Q := by
  intro t ht s s' a hs hL hrun
  cases hrun

theorem keepsFitted_ofExcept (r : Except BuildError α) : (ofExcept r).KeepsFitted A L := by
  cases r with
  | ok a => exact keepsFitted_pure a
  | error e => exact fits_refuse e

/-- A call that looks at the session is the call that it then makes on it. -/
theorem fits_get {g : Session → Emit α}
    (h : ∀ s : Session, s.Fitted A → (∀ l, L l → s.Serves A l) → (g s).Fits A (fun l => s.Serves A l) Q) :
    (get >>= g : Emit α).Fits A L Q := by
  intro t ht s s' a hs hL hrun
  exact h s hs hL t ht s s' a hs (fun _ hl => hl) hrun

/-- One change of the session. -/
theorem keepsFitted_modify {c : Session → Session}
    (h : ∀ s : Session, s.Fitted A → (∀ l, L l → s.Serves A l) → s.GoesOn A (c s)) :
    (modify c : Emit PUnit).KeepsFitted A L := by
  intro t ht s s' a hs hL hrun
  cases hrun
  exact ⟨h s hs hL, fun _ hl => absurd hl List.not_mem_nil⟩

/-! ## Recording and tracing -/

theorem keepsFitted_line (text : String) : (line text).KeepsFitted A L := by
  intro t ht s s' a hs hL hrun
  rw [run_line] at hrun
  cases hrun
  exact ⟨hs.written t text, fun _ hl => absurd hl List.not_mem_nil⟩

theorem keepsFitted_note (text : String) : (note text).KeepsFitted A L := keepsFitted_line _

theorem keepsFitted_probe (T : Ty) : (probe T).KeepsFitted A L := fun _ ht s s' _ hs _ hrun =>
  ⟨ht T s s' hs hrun, fun _ hl => absurd hl List.not_mem_nil⟩

/-- An operation is recorded if it stores what fits. -/
theorem keepsFitted_op {o : Op} (ho : ∀ s : Session, (∀ l, L l → s.Serves A l) → s.Takes A o) :
    (op o).KeepsFitted A L := by
  intro t ht s s' a hs hL hrun
  rw [run_op] at hrun
  cases hrun
  exact ⟨hs.recorded (ho s hL), fun _ hl => absurd hl List.not_mem_nil⟩

/-- An operation that is no store into an argument or a local. -/
theorem keepsFitted_plain {o : Op} (ho : o.isSlot = false) : (op o).KeepsFitted A L :=
  keepsFitted_op fun _ _ => .inl (Session.provides_of_not_isSlot ho)

theorem keepsFitted_traced (text : String) (o : Op) (ho : o.isSlot = false) :
    (traced text o).KeepsFitted A L :=
  (keepsFitted_note text).seq fun _ => keepsFitted_plain ho

theorem keepsFitted_jump (j : Jump Label) : (jump j).KeepsFitted A L := by
  refine fits_get fun s hs _ => (keepsFitted_ofExcept _).seq fun _ => KeepsFitted.seq ?_ fun _ => ?_
  · exact keepsFitted_modify fun s hs _ => hs.next rfl rfl (fun _ ho => .inl ho) hs.loops hs.format
  · exact keepsFitted_modify fun s hs _ => hs.pushed nofun

/-! ## Labels and constructs -/

theorem keepsFitted_newLabel : newLabel.KeepsFitted A L := by
  intro t ht s s' a hs hL hrun
  cases hrun
  exact ⟨hs.next rfl rfl (fun _ ho => .inl ho) hs.loops hs.format, fun _ hl => absurd hl List.not_mem_nil⟩

theorem keepsFitted_markHere (l : Label) : (markHere l).KeepsFitted A L := by
  refine fits_get fun s hs _ => (keepsFitted_ofExcept _).seq fun _ => KeepsFitted.seq ?_ fun _ =>
    keepsFitted_line _
  exact keepsFitted_modify fun s hs _ => hs.next rfl rfl (fun _ ho => .inl ho) hs.loops hs.format

theorem keepsFitted_openConstruct {c : Construct} (h : ∀ l ∈ c.locals, L l) :
    (openConstruct c).KeepsFitted A L :=
  keepsFitted_modify fun s hs hL => hs.withConstructs fun c' hc' l hl => by
    rcases List.mem_cons.1 hc' with rfl | hc'
    · exact hL l (h l hl)
    · exact hs.loops c' hc' l hl

theorem fits_takeInnermost : takeInnermost.Fits A L fun c => c.toList.flatMap Construct.locals := by
  intro t ht s s' a hs hL hrun
  cases hrun
  have hgo : s.GoesOn A { s with constructs := s.constructs.drop 1 } :=
    hs.withConstructs fun c hc => hs.loops c (List.mem_of_mem_drop hc)
  refine ⟨hgo, fun l hl => hgo.serves l ?_⟩
  obtain ⟨c, hc, hl⟩ := List.mem_flatMap.1 hl
  exact hs.loops c (List.mem_of_mem_head? (Option.mem_toList.1 hc)) l hl

theorem fits_takeCounted : takeCounted.Fits A L LoopState.locals := by
  refine Fits.bind fits_takeInnermost fun found => ?_
  split
  · exact fits_pure fun l hl => .inr (by simpa [Construct.locals] using hl)
  · exact fits_refuse _

theorem fits_takeEnumerated : takeEnumerated.Fits A L LoopState.locals := by
  refine Fits.bind fits_takeInnermost fun found => ?_
  split
  · exact fits_pure fun l hl => .inr (by simpa [Construct.locals] using hl)
  · exact fits_refuse _

theorem keepsFitted_takeConditional : takeConditional.KeepsFitted A L := by
  refine KeepsFitted.seq (Fits.keeps fits_takeInnermost) fun found => ?_
  split
  · exact keepsFitted_pure _
  · exact fits_refuse _

theorem keepsFitted_takeSwitch : takeSwitch.KeepsFitted A L := by
  refine KeepsFitted.seq (Fits.keeps fits_takeInnermost) fun found => ?_
  split
  · exact keepsFitted_pure _
  · exact fits_refuse _

theorem keepsFitted_takeWhileHead : takeWhileHead.KeepsFitted A L := by
  refine KeepsFitted.seq (Fits.keeps fits_takeInnermost) fun found => ?_
  split
  · exact keepsFitted_pure _
  · exact fits_refuse _

theorem keepsFitted_currentSwitch : currentSwitch.KeepsFitted A L := by
  refine fits_get fun s hs _ => ?_
  split
  · exact keepsFitted_pure _
  · exact fits_refuse _

/-! ## Slots and constants -/

theorem keepsFitted_arg (i : Nat) : (arg i).KeepsFitted A L := by
  refine fits_get fun s hs _ => ?_
  dsimp only
  split
  · exact keepsFitted_pure _
  · exact fits_refuse _

/-- An argument is looked up before it is reached, whatever slot is handed in. -/
theorem keepsFitted_reachArg (i : Nat) (text : Argument → String) {o : Argument → Op}
    (ho : ∀ (s : Session) (T : Ty), s.signature.args[i]? = some T → s.Provides (o ⟨i, T⟩)) :
    KeepsFitted A L (do
      let a ← arg i
      traced (text a) (o a)) := by
  intro t ht s s' u hs hL hrun
  simp only [arg, run_bind, run_get] at hrun
  cases hi : s.signature.args[i]? with
  | none =>
    rw [hi] at hrun
    cases hrun
  | some T =>
    simp only [hi, run_pure, run_traced] at hrun
    cases hrun
    have hwritten := hs.written t ("    " ++ text ⟨i, T⟩)
    refine ⟨hwritten.trans (hwritten.fitted.recorded (.inl (ho _ T ?_))),
      fun _ hl => absurd hl List.not_mem_nil⟩
    rw [Session.signature_written]
    exact hi

theorem keepsFitted_loadArg (a : Argument) : (loadArg a).KeepsFitted A L :=
  keepsFitted_reachArg a.index (fun a => "Ldarg " ++ toString a.index) fun _ T hi => ⟨T, hi⟩

theorem keepsFitted_storeArg (a : Argument) : (storeArg a).KeepsFitted A L :=
  keepsFitted_reachArg a.index (fun a => "Starg " ++ toString a.index) fun _ T hi => ⟨T, hi, rfl⟩

theorem keepsFitted_loadArgAddress (a : Argument) : (loadArgAddress a).KeepsFitted A L :=
  keepsFitted_reachArg a.index (fun a => "Ldarga " ++ toString a.index) fun _ T hi => ⟨T, hi⟩

theorem fits_newLocal (t : Ty) (name : String) : (newLocal t name).Fits A L fun l => [l] := by
  intro tr htr s s' a hs hL hrun
  simp only [newLocal, run_bind, run_get, run_modify, run_note, run_pure] at hrun
  cases hrun
  obtain ⟨hgo, hown⟩ := hs.declare t name
  have hwritten := hgo.fitted.written tr
    ("    " ++ ("// Declare local '" ++ name ++ "' of type " ++ t.path))
  refine ⟨hgo.trans hwritten, fun l hl => ?_⟩
  rw [List.mem_singleton.1 hl]
  exact hwritten.serves _ (.inl hown)

theorem keepsFitted_nameOf (l : Local) : (nameOf l).KeepsFitted A L := by
  refine fits_get fun s hs _ => ?_
  split <;> exact keepsFitted_pure _

/-- A local is reached as it is handed in. -/
theorem keepsFitted_reachLocal {l : Local} (hl : L l) {o : Op} (ho : o ∈ l.ops) :
    (op o).KeepsFitted A L :=
  keepsFitted_op fun _ hL => (hL l hl).takes ho

theorem keepsFitted_loadLocal {l : Local} (hl : L l) : (loadLocal l).KeepsFitted A L :=
  (keepsFitted_nameOf l).seq fun _ => (keepsFitted_note _).seq fun _ =>
    (keepsFitted_reachLocal hl (by simp [Local.ops])).seq fun _ => keepsFitted_probe _

theorem keepsFitted_storeLocal {l : Local} (hl : L l) : (storeLocal l).KeepsFitted A L :=
  (keepsFitted_nameOf l).seq fun _ => (keepsFitted_note _).seq fun _ =>
    (keepsFitted_probe _).seq fun _ => keepsFitted_reachLocal hl (by simp [Local.ops])

theorem keepsFitted_loadLocalAddress {l : Local} (hl : L l) :
    (loadLocalAddress l).KeepsFitted A L :=
  (keepsFitted_nameOf l).seq fun _ => (keepsFitted_note _).seq fun _ =>
    (keepsFitted_reachLocal hl (by simp [Local.ops])).seq fun _ => keepsFitted_probe _

theorem keepsFitted_loadText (x : String) : (loadText x).KeepsFitted A L :=
  keepsFitted_traced _ _ rfl

theorem keepsFitted_loadNull : loadNull.KeepsFitted A L := keepsFitted_traced _ _ rfl

theorem keepsFitted_loadToken (t : Ty) : (loadToken t).KeepsFitted A L :=
  keepsFitted_traced _ _ rfl

theorem keepsFitted_call (m : Method) : (call m).KeepsFitted A L :=
  keepsFitted_traced _ _ rfl

theorem keepsFitted_loadInt (n : Int) : (loadInt n).KeepsFitted A L :=
  keepsFitted_traced _ _ rfl

theorem keepsFitted_loadScalar (x : Scalar) : (loadScalar x).KeepsFitted A L := by
  unfold loadScalar
  split
  case h_2 => exact fits_refuse _
  case h_6 => exact keepsFitted_loadInt _
  all_goals exact keepsFitted_traced _ _ rfl

theorem keepsFitted_loadConstant (c : Constant) : (loadConstant c).KeepsFitted A L := by
  cases c with
  | null => exact keepsFitted_loadNull
  | text x => exact keepsFitted_loadText x
  | char c => exact fits_refuse _
  | scalar x => exact keepsFitted_loadScalar x
  | handle t => exact (keepsFitted_loadToken t).seq fun _ => keepsFitted_call _
  | enumeration t raw =>
    refine (keepsFitted_note _).seq fun _ => ?_
    split
    · exact fits_refuse _
    · split
      · exact keepsFitted_loadScalar _
      · exact fits_refuse _

/-- A constant is no local. -/
theorem forall_locals_constant (c : Constant) : ∀ l ∈ (Operand.constant c).locals, L l :=
  fun _ hl => absurd hl List.not_mem_nil

theorem keepsFitted_load {o : Operand} (h : ∀ l ∈ o.locals, L l) : (load o).KeepsFitted A L := by
  rcases o with c | a | l
  · exact keepsFitted_loadConstant c
  · exact keepsFitted_loadArg a
  · exact keepsFitted_loadLocal (h l List.mem_cons_self)

theorem keepsFitted_store {o : Operand} (h : ∀ l ∈ o.locals, L l) : (store o).KeepsFitted A L := by
  rcases o with c | a | l
  · exact fits_refuse _
  · exact keepsFitted_storeArg a
  · exact keepsFitted_storeLocal (h l List.mem_cons_self)

theorem keepsFitted_loadByAddress {o : Operand} (h : ∀ l ∈ o.locals, L l) :
    (loadByAddress o).KeepsFitted A L := by
  rcases o with c | a | l
  · exact keepsFitted_loadConstant c
  · exact Fits.ite (keepsFitted_loadArgAddress a) (keepsFitted_loadArg a)
  · have hl := h l List.mem_cons_self
    exact Fits.ite (keepsFitted_loadLocalAddress hl) (keepsFitted_loadLocal hl)

/-- One is added to a slot, or subtracted from it. -/
theorem keepsFitted_count {o : Operand} (h : ∀ l ∈ o.locals, L l) (text : String) {step : Op}
    (hstep : step.isSlot = false) :
    KeepsFitted A L (do load o; loadInt 1; traced text step; store o) :=
  (keepsFitted_load h).seq fun _ => (keepsFitted_loadInt 1).seq fun _ =>
    (keepsFitted_traced _ _ hstep).seq fun _ => keepsFitted_store h

theorem keepsFitted_loadZero (t : Ty) : (loadZero t).KeepsFitted A L := by
  unfold loadZero
  split
  case h_5 => exact keepsFitted_loadInt 0
  case h_6 =>
    refine Fits.ite ?_ keepsFitted_loadNull
    refine (fits_newLocal t _).bind fun l => ?_
    have hown : ∀ m ∈ (Operand.variable l).locals, L m ∨ m ∈ [l] := fun m hm => .inr hm
    exact (keepsFitted_loadByAddress hown).seq fun _ => (keepsFitted_traced _ _ rfl).seq fun _ =>
      keepsFitted_load hown
  all_goals exact keepsFitted_loadScalar _

/-! ## Objects, calls and conversions -/

theorem keepsFitted_loadThrough (t : Ty) : (loadThrough t).KeepsFitted A L :=
  keepsFitted_traced _ _ rfl

theorem keepsFitted_applyConversion (c : Conversion) : (applyConversion c).KeepsFitted A L := by
  cases c with
  | identity => exact keepsFitted_pure _
  | upcast => exact keepsFitted_pure _
  | numeric k => exact keepsFitted_traced _ _ rfl
  | openBox t readThrough =>
    exact (keepsFitted_traced _ _ rfl).seq fun _ =>
      Fits.ite (keepsFitted_loadThrough t) (keepsFitted_pure _)
  | box t loadFirst =>
    cases loadFirst with
    | true =>
      exact (keepsFitted_loadThrough t).seq fun _ => keepsFitted_traced _ _ rfl
    | false => exact keepsFitted_traced _ _ rfl
  | cast t => exact keepsFitted_traced _ _ rfl

theorem keepsFitted_convert (source target : Ty) (isAddress : Bool) :
    (convert source target isAddress).KeepsFitted A L :=
  (keepsFitted_ofExcept _).seq fun c => keepsFitted_applyConversion c

theorem keepsFitted_convertTop (source target : Ty) : (convertTop source target).KeepsFitted A L :=
  keepsFitted_convert source target false

theorem keepsFitted_assign {l : Local} {o : Operand} (hl : L l) (ho : ∀ m ∈ o.locals, L m) :
    (assign l o).KeepsFitted A L :=
  (keepsFitted_load ho).seq fun _ => (keepsFitted_convertTop _ _).seq fun _ => keepsFitted_storeLocal hl

theorem fits_newLocalWith (t : Ty) (name : String) {init : Operand} (h : ∀ l ∈ init.locals, L l) :
    (newLocalWith t name init).Fits A L fun l => [l] :=
  (fits_newLocal t name).bind fun _ =>
    (keepsFitted_assign (.inr List.mem_cons_self) fun l hl => .inl (h l hl)).seq fun _ =>
      fits_pure fun _ hl => .inr hl

theorem keepsFitted_requireCount (method : String) (declared supplied : Nat) :
    (requireCount method declared supplied).KeepsFitted A L :=
  Fits.ite (keepsFitted_pure ()) (fits_refuse _)

theorem keepsFitted_loadParameters {os : List Operand} (ts : List Ty)
    (h : ∀ l ∈ os.flatMap Operand.locals, L l) : (loadParameters os ts).KeepsFitted A L := by
  have hone : ∀ {o : Operand} t, (∀ l ∈ o.locals, L l) → (loadParameter o t).KeepsFitted A L :=
    fun t ho => (keepsFitted_load ho).seq fun _ =>
      Fits.ite (keepsFitted_pure ()) (keepsFitted_convertTop _ _)
  induction os generalizing ts with
  | nil => exact keepsFitted_pure ()
  | cons o os ih =>
    rw [List.flatMap_cons, List.forall_mem_append] at h
    cases ts with
    | nil => exact keepsFitted_pure ()
    | cons t ts => exact (hone t h.1).seq fun _ => ih ts h.2

theorem keepsFitted_callWith {receiver : Option Operand} (m : Method) {params : List Operand}
    (hr : ∀ o ∈ receiver, ∀ l ∈ o.locals, L l) (hp : ∀ l ∈ params.flatMap Operand.locals, L l) :
    (callWith receiver m params).KeepsFitted A L := by
  have hrest : KeepsFitted A L (do loadParameters params m.params; call m) :=
    (keepsFitted_loadParameters m.params hp).seq fun _ => keepsFitted_call m
  refine (keepsFitted_requireCount _ _ _).seq fun _ => ?_
  cases receiver with
  | none => exact hrest
  | some o =>
    dsimp only
    split
    · exact hrest
    · exact KeepsFitted.seq ((keepsFitted_loadByAddress (hr o rfl)).seq fun _ =>
        keepsFitted_convert _ _ true) fun _ => hrest

theorem keepsFitted_instantiate (c : Constructor) {params : List Operand}
    (h : ∀ l ∈ params.flatMap Operand.locals, L l) : (instantiate c params).KeepsFitted A L :=
  (keepsFitted_requireCount _ _ _).seq fun _ => (keepsFitted_loadParameters c.params h).seq
    fun _ => keepsFitted_traced _ _ rfl

theorem keepsFitted_getField (f : Field) : (getField f).KeepsFitted A L :=
  Fits.ite (keepsFitted_traced _ _ rfl) (keepsFitted_traced _ _ rfl)

theorem keepsFitted_putField (f : Field) : (putField f).KeepsFitted A L :=
  Fits.ite (keepsFitted_traced _ _ rfl) (keepsFitted_traced _ _ rfl)

theorem keepsFitted_accessor (m : Member) (which : Accessor) (f : Option Method) :
    (accessor m which f).KeepsFitted A L := by
  cases f with
  | some f => exact keepsFitted_pure f
  | none => exact fits_refuse _

theorem keepsFitted_getMember (m : Member) : (getMember m).KeepsFitted A L := by
  have hshow : ∀ t : Ty, KeepsFitted A L (do probe t; pure t) := fun t =>
    (keepsFitted_probe t).seq fun _ => keepsFitted_pure t
  cases m with
  | field f => exact (keepsFitted_getField f).seq fun _ => hshow _
  | property p =>
    exact (keepsFitted_accessor _ _ _).seq fun f => (keepsFitted_call f).seq fun _ => hshow _
  | method f =>
    unfold getMember
    dsimp only
    split
    · exact (keepsFitted_call f).seq fun _ => hshow _
    · exact fits_refuse _

theorem keepsFitted_putMember (m : Member) : (putMember m).KeepsFitted A L := by
  cases m with
  | field f => exact keepsFitted_putField f
  | property p => exact (keepsFitted_accessor _ _ _).seq fun f => keepsFitted_call f
  | method f => exact fits_refuse _

/-! ## Arrays -/

theorem keepsFitted_makeArray (element : Ty) {length : Operand} (h : ∀ l ∈ length.locals, L l) :
    (makeArray element length).KeepsFitted A L :=
  (keepsFitted_load h).seq fun _ => keepsFitted_traced _ _ rfl

theorem keepsFitted_loadLength : loadLength.KeepsFitted A L :=
  (keepsFitted_traced _ _ rfl).seq fun _ => keepsFitted_traced _ _ rfl

theorem keepsFitted_loadItem (element : Ty) : (loadItem element).KeepsFitted A L :=
  (keepsFitted_ofExcept _).seq fun _ => (keepsFitted_traced _ _ rfl).seq fun _ =>
    keepsFitted_probe element

theorem keepsFitted_loadItemAddress (element : Ty) : (loadItemAddress element).KeepsFitted A L :=
  (keepsFitted_traced _ _ rfl).seq fun _ => keepsFitted_probe element

theorem keepsFitted_storeItem (element : Ty) : (storeItem element).KeepsFitted A L :=
  (keepsFitted_ofExcept _).seq fun _ => (keepsFitted_note _).seq fun _ =>
    (keepsFitted_probe element).seq fun _ => keepsFitted_plain rfl

theorem keepsFitted_itemTypeOf (array : Operand) : (itemTypeOf array).KeepsFitted A L := by
  unfold itemTypeOf
  split
  · exact keepsFitted_pure _
  · exact fits_refuse _

theorem keepsFitted_loadItemOf {array index : Operand} (ha : ∀ l ∈ array.locals, L l)
    (hi : ∀ l ∈ index.locals, L l) : (loadItemOf array index).KeepsFitted A L :=
  (keepsFitted_itemTypeOf array).seq fun element => (keepsFitted_load ha).seq fun _ =>
    (keepsFitted_load hi).seq fun _ =>
      Fits.ite ((keepsFitted_loadItemAddress element).seq fun _ => keepsFitted_loadThrough element)
        (keepsFitted_loadItem element)

theorem keepsFitted_storeItemOf {array index value : Operand} (ha : ∀ l ∈ array.locals, L l)
    (hi : ∀ l ∈ index.locals, L l) (hv : ∀ l ∈ value.locals, L l) :
    (storeItemOf array index value).KeepsFitted A L := by
  refine Fits.ite (keepsFitted_callWith _ ?_ ?_) ?_
  · rintro o ⟨⟩
    exact ha
  · rw [List.flatMap_cons, List.flatMap_cons, List.flatMap_nil, List.append_nil]
    exact List.forall_mem_append.2 ⟨hv, hi⟩
  refine (keepsFitted_itemTypeOf array).seq fun element => (keepsFitted_load ha).seq fun _ =>
    (keepsFitted_load hi).seq fun _ => ?_
  have hrest : ∀ {last : Emit Unit}, last.KeepsFitted A L →
      KeepsFitted A L (do load value; convertTop value.type element; last) := fun hlast =>
    (keepsFitted_load hv).seq fun _ => (keepsFitted_convertTop _ _).seq fun _ => hlast
  dsimp only
  split
  · exact (keepsFitted_loadItemAddress element).seq fun _ =>
      hrest (keepsFitted_traced _ _ rfl)
  · exact hrest (keepsFitted_storeItem element)

/-! ## Branches and conditionals -/

theorem keepsFitted_ret : ret.KeepsFitted A L :=
  (keepsFitted_note _).seq fun _ => keepsFitted_modify fun _ hs _ => hs.pushed nofun

/-- A jump behind its line. -/
theorem keepsFitted_branch (text : String) (j : Jump Label) :
    KeepsFitted A L (do note text; jump j) :=
  (keepsFitted_note text).seq fun _ => keepsFitted_jump j

theorem keepsFitted_jumpUnless (c : Comparison) : (jumpUnless c).KeepsFitted A L :=
  keepsFitted_newLabel.seq fun _ => (keepsFitted_note _).seq fun _ =>
    (keepsFitted_jump _).seq fun _ => keepsFitted_pure _

/-- A construct that remembers no local. -/
theorem keepsFitted_openPlain {c : Construct} (h : c.locals = []) :
    (openConstruct c).KeepsFitted A L :=
  keepsFitted_openConstruct fun l hl => by
    rw [h] at hl
    exact absurd hl List.not_mem_nil

theorem keepsFitted_openIfTrue : openIfTrue.KeepsFitted A L :=
  keepsFitted_newLabel.seq fun _ => keepsFitted_newLabel.seq fun _ =>
    (keepsFitted_branch _ _).seq fun _ => keepsFitted_openPlain rfl

theorem keepsFitted_openIfFalse : openIfFalse.KeepsFitted A L :=
  keepsFitted_newLabel.seq fun _ => keepsFitted_newLabel.seq fun _ =>
    (keepsFitted_branch _ _).seq fun _ => keepsFitted_openPlain rfl

theorem keepsFitted_openIf (c : Comparison) : (openIf c).KeepsFitted A L :=
  keepsFitted_newLabel.seq fun _ => (keepsFitted_jumpUnless c).seq fun _ => keepsFitted_openPlain rfl

theorem keepsFitted_openIfCompared {a b : Operand} (c : Comparison) (ha : ∀ l ∈ a.locals, L l)
    (hb : ∀ l ∈ b.locals, L l) : (openIfCompared a c b).KeepsFitted A L :=
  (keepsFitted_load ha).seq fun _ => (keepsFitted_load hb).seq fun _ => keepsFitted_openIf c

theorem keepsFitted_openIfNotZero {o : Operand} (h : ∀ l ∈ o.locals, L l) :
    (openIfNotZero o).KeepsFitted A L := by
  unfold openIfNotZero
  refine Fits.ite ?_ ?_
  · exact (keepsFitted_loadZero _).seq fun _ => (keepsFitted_convertTop _ _).seq fun _ =>
      (keepsFitted_load h).seq fun _ => (keepsFitted_convertTop _ _).seq fun _ =>
        (keepsFitted_call _).seq fun _ => keepsFitted_openIfFalse
  · exact (keepsFitted_loadZero _).seq fun _ => (keepsFitted_load h).seq fun _ =>
      keepsFitted_openIf _

theorem keepsFitted_loadTextLength {l : Local} (hl : L l) : (loadTextLength l).KeepsFitted A L :=
  (keepsFitted_loadLocal hl).seq fun _ => (keepsFitted_call _).seq fun _ => keepsFitted_loadInt 0

theorem keepsFitted_openIfNotEmpty {l : Local} (hl : L l) : (openIfNotEmpty l).KeepsFitted A L :=
  (keepsFitted_loadTextLength hl).seq fun _ => keepsFitted_openIf _

theorem keepsFitted_nextAlternative : nextAlternative.KeepsFitted A L :=
  keepsFitted_takeConditional.seq fun _ => (keepsFitted_branch _ _).seq fun _ =>
    (keepsFitted_markHere _).seq fun _ => keepsFitted_pure _

theorem keepsFitted_openElse : openElse.KeepsFitted A L :=
  KeepsFitted.seq keepsFitted_nextAlternative fun _ => keepsFitted_openPlain rfl

theorem keepsFitted_openElseIf {a b : Operand} (c : Comparison) (ha : ∀ l ∈ a.locals, L l)
    (hb : ∀ l ∈ b.locals, L l) : (openElseIf a c b).KeepsFitted A L :=
  KeepsFitted.seq keepsFitted_nextAlternative fun _ => (keepsFitted_load ha).seq fun _ =>
    (keepsFitted_load hb).seq fun _ => (keepsFitted_jumpUnless c).seq fun _ => keepsFitted_openPlain rfl

theorem keepsFitted_openElseIfEmpty {l : Local} (hl : L l) : (openElseIfEmpty l).KeepsFitted A L :=
  KeepsFitted.seq keepsFitted_nextAlternative fun _ => (keepsFitted_loadTextLength hl).seq fun _ =>
    (keepsFitted_jumpUnless _).seq fun _ => keepsFitted_openPlain rfl

theorem keepsFitted_closeIf : closeIf.KeepsFitted A L :=
  keepsFitted_takeConditional.seq fun _ => Fits.ite (keepsFitted_markHere _)
    ((keepsFitted_markHere _).seq fun _ => keepsFitted_markHere _)

/-! ## Loops and switches -/

/-- A new loop remembers the locals that it is given. -/
theorem fits_newLoop {slot : Option Local} {bound : Operand} (hslot : ∀ l ∈ slot, L l)
    (hbound : ∀ l ∈ bound.locals, L l) : (newLoop slot bound).Fits A L LoopState.locals := by
  refine fits_get fun s hs hL => KeepsFitted.seq ?_ fun _ => keepsFitted_newLabel.seq fun _ =>
    keepsFitted_newLabel.seq fun _ => fits_pure fun l hl => hL l ?_
  · exact keepsFitted_modify fun s hs _ => hs.next rfl rfl (fun _ ho => .inl ho) hs.loops hs.format
  · rcases List.mem_append.1 hl with hl | hl
    · exact hslot l (Option.mem_toList.1 hl)
    · exact hbound l hl

theorem keepsFitted_openFor {index : Option Local} {start bound : Operand}
    (hindex : ∀ l ∈ index, L l) (hstart : ∀ l ∈ start.locals, L l)
    (hbound : ∀ l ∈ bound.locals, L l) : (openFor index start bound).KeepsFitted A L := by
  refine (fits_newLoop hindex hbound).bind fun loop => ?_
  have hrest : KeepsFitted A (fun l => L l ∨ l ∈ loop.locals) (do
      markHere loop.body
      openConstruct (.counted loop)
      pure loop.handle) :=
    (keepsFitted_markHere _).seq fun _ => (keepsFitted_openConstruct fun l hl => .inr hl).seq fun _ =>
      keepsFitted_pure _
  cases index with
  | some l =>
    exact (keepsFitted_load fun l hl => .inl (hstart l hl)).seq fun _ =>
      (keepsFitted_storeLocal (.inl (hindex l rfl))).seq fun _ =>
        (keepsFitted_branch _ _).seq fun _ => hrest
  | none => exact hrest

theorem keepsFitted_markExit (loop : LoopState) : (markExit loop).KeepsFitted A L := by
  unfold markExit
  split
  · exact keepsFitted_markHere _
  · exact keepsFitted_pure ()

theorem keepsFitted_closeFor : closeFor.KeepsFitted A L := by
  refine fits_takeCounted.bind fun loop => ?_
  have hback : KeepsFitted A (fun l => L l ∨ l ∈ loop.locals)
      (do jumpIfLess loop.body; markExit loop) :=
    (keepsFitted_branch _ _).seq fun _ => keepsFitted_markExit loop
  dsimp only
  split
  · rename_i l hl
    have hslot : l ∈ loop.locals := List.mem_append_left _ (by simp [hl])
    refine (keepsFitted_loadLocal (.inr hslot)).seq fun _ => (keepsFitted_loadInt 1).seq fun _ =>
      (keepsFitted_traced _ _ rfl).seq fun _ =>
        (keepsFitted_storeLocal (.inr hslot)).seq fun _ => (keepsFitted_markHere _).seq fun _ =>
          (keepsFitted_loadLocal (.inr hslot)).seq fun _ =>
            (keepsFitted_load fun l hl => .inr (List.mem_append_right _ hl)).seq fun _ => ?_
    split
    · exact keepsFitted_loadLength.seq fun _ => hback
    · exact hback
  · exact (keepsFitted_branch _ _).seq fun _ => keepsFitted_markExit loop

/-- A call on what a loop goes over. -/
theorem keepsFitted_callOnBound {loop : LoopState} (m : Method) (h : ∀ l ∈ loop.locals, L l) :
    (callWith (some loop.bound) m []).KeepsFitted A L := by
  refine keepsFitted_callWith m ?_ fun l hl => absurd hl List.not_mem_nil
  rintro o ⟨⟩ l hl
  exact h l (List.mem_append_right _ hl)

theorem keepsFitted_openEach {l enumerator : Local} (hl : L l) (he : L enumerator) (element : Ty)
    (getCurrent : Method) : (openEach l element enumerator getCurrent).KeepsFitted A L := by
  have hslot : ∀ m ∈ some l, L m := by
    rintro m ⟨⟩
    exact hl
  have hbound : ∀ m ∈ (Operand.variable enumerator).locals, L m := fun m hm => by
    rw [List.mem_singleton.1 hm]
    exact he
  exact (fits_newLoop hslot hbound).bind fun loop => (keepsFitted_branch _ _).seq fun _ =>
    (keepsFitted_markHere _).seq fun _ => (keepsFitted_callOnBound _ fun _ => .inr).seq fun _ =>
      (keepsFitted_convertTop _ _).seq fun _ => (keepsFitted_storeLocal (.inl hl)).seq fun _ =>
        (keepsFitted_openConstruct fun m hm => .inr hm).seq fun _ => keepsFitted_pure _

theorem keepsFitted_closeEach (moveNext : Method) : (closeEach moveNext).KeepsFitted A L :=
  fits_takeEnumerated.bind fun loop => (keepsFitted_markHere _).seq fun _ =>
    (keepsFitted_callOnBound _ fun _ => .inr).seq fun _ => (keepsFitted_branch _ _).seq fun _ =>
      keepsFitted_markExit loop

theorem keepsFitted_exitOf (h : LoopHandle) : (exitOf h).KeepsFitted A L := by
  refine fits_get fun s hs _ => ?_
  dsimp only
  split
  · exact fits_refuse _
  · split
    · exact keepsFitted_pure _
    · refine keepsFitted_newLabel.seq fun l => KeepsFitted.seq ?_ fun _ => keepsFitted_pure l
      refine keepsFitted_modify fun s hs _ => hs.withConstructs fun c hc m hm => ?_
      obtain ⟨c', hc', heq⟩ := Construct.locals_of_mem_setExit hc
      exact hs.loops c' hc' m (heq ▸ hm)

/-- A break by some jump. -/
theorem keepsFitted_break (h : LoopHandle) (text : Label → String) (j : Label → Jump Label) :
    KeepsFitted A L (do let l ← exitOf h; note (text l); jump (j l)) :=
  (keepsFitted_exitOf h).seq fun _ => keepsFitted_branch _ _

theorem keepsFitted_openWhile : openWhile.KeepsFitted A L :=
  keepsFitted_newLabel.seq fun _ => (keepsFitted_markHere _).seq fun _ => keepsFitted_openPlain rfl

theorem keepsFitted_openWhileBody (c : Comparison) : (openWhileBody c).KeepsFitted A L :=
  keepsFitted_takeWhileHead.seq fun _ => (keepsFitted_openIf c).seq fun _ => keepsFitted_openPlain rfl

theorem keepsFitted_closeWhile : closeWhile.KeepsFitted A L :=
  keepsFitted_takeWhileHead.seq fun _ => (keepsFitted_branch _ _).seq fun _ => keepsFitted_closeIf

theorem keepsFitted_newLabels (n : Nat) : (newLabels n).KeepsFitted A L := by
  induction n with
  | zero => exact keepsFitted_pure _
  | succ n ih => exact keepsFitted_newLabel.seq fun _ => ih.seq fun _ => keepsFitted_pure _

theorem keepsFitted_noteLabels (ls : List Label) : (noteLabels ls).KeepsFitted A L := by
  induction ls with
  | nil => exact keepsFitted_pure ()
  | cons l ls ih => exact (keepsFitted_note _).seq fun _ => ih

theorem keepsFitted_openSwitch (cases : Nat) : (openSwitch cases).KeepsFitted A L :=
  keepsFitted_newLabel.seq fun _ => keepsFitted_newLabel.seq fun _ =>
    (keepsFitted_newLabels cases).seq fun ls => (keepsFitted_note _).seq fun _ =>
      (keepsFitted_noteLabels ls).seq fun _ => (keepsFitted_note _).seq fun _ =>
        (keepsFitted_jump _).seq fun _ => (keepsFitted_branch _ _).seq fun _ =>
          (keepsFitted_openPlain rfl).seq fun _ => keepsFitted_pure _

theorem keepsFitted_openCase (l : Label) (name : String) : (openCase l name).KeepsFitted A L :=
  (keepsFitted_note _).seq fun _ => keepsFitted_markHere l

theorem keepsFitted_closeCase : closeCase.KeepsFitted A L :=
  keepsFitted_currentSwitch.seq fun _ => (keepsFitted_branch _ _).seq fun _ => keepsFitted_note _

theorem keepsFitted_openDefault : openDefault.KeepsFitted A L := by
  refine keepsFitted_currentSwitch.seq fun p => KeepsFitted.seq ?_ fun _ => keepsFitted_markHere _
  refine keepsFitted_modify fun s hs _ => hs.withConstructs fun c hc l hl => ?_
  rcases List.mem_cons.1 hc with rfl | hc
  · exact absurd hl List.not_mem_nil
  · exact hs.loops c (List.mem_of_mem_drop hc) l hl

theorem keepsFitted_closeSwitch : closeSwitch.KeepsFitted A L :=
  keepsFitted_takeSwitch.seq fun _ => (keepsFitted_note _).seq fun _ => Fits.ite
    (keepsFitted_markHere _) ((keepsFitted_markHere _).seq fun _ => keepsFitted_markHere _)

/-! ## Text -/

theorem keepsFitted_toText (t : Ty) : (toText t).KeepsFitted A L := by
  unfold toText
  split
  · exact keepsFitted_pure ()
  · split
    · exact (keepsFitted_traced _ _ rfl).seq fun _ => keepsFitted_call _
    · exact keepsFitted_call _

theorem keepsFitted_arrayText (t : Ty) {itemText : Emit Unit}
    (h : ∀ L : Local → Prop, itemText.KeepsFitted A L) : (arrayText t itemText).KeepsFitted A L := by
  refine (fits_newLocal _ _).bind fun array => (keepsFitted_storeLocal (.inr List.mem_cons_self)).seq
    fun _ => (keepsFitted_loadText _).seq fun _ => (fits_newLocal _ _).bind fun text =>
    (keepsFitted_storeLocal (.inr List.mem_cons_self)).seq fun _ => (fits_newLocal _ _).bind fun i => ?_
  -- all three locals are those that the loop itself declares
  have harray : ∀ l ∈ (Operand.variable array).locals,
      ((L l ∨ l ∈ [array]) ∨ l ∈ [text]) ∨ l ∈ [i] := fun l hl => .inl (.inl (.inr hl))
  have htext : ((L text ∨ text ∈ [array]) ∨ text ∈ [text]) ∨ text ∈ [i] :=
    .inl (.inr List.mem_cons_self)
  have hi : ∀ l ∈ (Operand.variable i).locals,
      ((L l ∨ l ∈ [array]) ∨ l ∈ [text]) ∨ l ∈ [i] := fun l hl => .inr hl
  have hindex : ∀ l ∈ some i, ((L l ∨ l ∈ [array]) ∨ l ∈ [text]) ∨ l ∈ [i] := by
    rintro l ⟨⟩
    exact .inr List.mem_cons_self
  exact (keepsFitted_openFor hindex (forall_locals_constant _) harray).seq fun _ =>
    (keepsFitted_loadLocal htext).seq fun _ =>
    (keepsFitted_loadItemOf harray hi).seq fun _ =>
    (h _).seq fun _ => (keepsFitted_loadText _).seq fun _ => (keepsFitted_call _).seq fun _ =>
    (keepsFitted_storeLocal htext).seq fun _ => keepsFitted_closeFor.seq fun _ =>
    (keepsFitted_loadLocal htext).seq fun _ => (keepsFitted_loadText _).seq fun _ =>
    keepsFitted_call _

theorem keepsFitted_referenceText {text : Emit Unit} (h : text.KeepsFitted A L) :
    (referenceText text).KeepsFitted A L :=
  (keepsFitted_traced _ _ rfl).seq fun _ => keepsFitted_loadNull.seq fun _ =>
    (keepsFitted_openIf _).seq fun _ => (keepsFitted_traced _ _ rfl).seq fun _ =>
      (keepsFitted_loadText _).seq fun _ => keepsFitted_openElse.seq fun _ =>
        h.seq fun _ => keepsFitted_closeIf

theorem keepsFitted_toFullText (t : Ty) : (toFullText t).KeepsFitted A L := by
  induction t using toFullText.induct generalizing L with
  | case1 element ih => exact keepsFitted_referenceText (keepsFitted_arrayText _ fun _ => ih)
  | case2 t hne hvalue =>
    rw [toFullText.eq_2 t hne, if_pos hvalue]
    exact (keepsFitted_traced _ _ rfl).seq fun _ => keepsFitted_call _
  | case3 t hne hvalue =>
    rw [toFullText.eq_2 t hne, if_neg hvalue]
    exact keepsFitted_referenceText (keepsFitted_call _)

theorem fits_formatArray : formatArray.Fits A L fun l => [l] := by
  refine fits_get fun s hs _ => ?_
  split
  · rename_i l hl
    refine fits_pure fun m hm => ?_
    rw [List.mem_singleton.1 hm]
    exact hs.format l hl
  · refine (fits_newLocal _ _).bind fun l => KeepsFitted.seq ?_ fun _ => fits_pure fun _ hl => .inr hl
    refine keepsFitted_modify fun s hs hL => hs.next rfl rfl (fun _ ho => .inl ho) hs.loops fun m hm => ?_
    obtain rfl := Option.some.inj hm
    exact hL _ (.inr List.mem_cons_self)

theorem keepsFitted_storeOperands {array : Local} (ha : L array) (i : Nat) {os : List Operand}
    (h : ∀ l ∈ os.flatMap Operand.locals, L l) : (storeOperands array i os).KeepsFitted A L := by
  have harray : ∀ l ∈ (Operand.variable array).locals, L l := fun l hl => by
    rw [List.mem_singleton.1 hl]
    exact ha
  induction os generalizing i with
  | nil => exact keepsFitted_pure ()
  | cons o os ih =>
    rw [List.flatMap_cons, List.forall_mem_append] at h
    exact (keepsFitted_storeItemOf harray (forall_locals_constant _) h.1).seq fun _ => ih (i + 1) h.2

theorem keepsFitted_formatText (format : String) {operands : List Operand}
    (h : ∀ l ∈ operands.flatMap Operand.locals, L l) : (formatText format operands).KeepsFitted A L :=
  (keepsFitted_makeArray _ (forall_locals_constant _)).seq fun _ => fits_formatArray.bind fun _ =>
    (keepsFitted_storeLocal (.inr List.mem_cons_self)).seq fun _ =>
      (keepsFitted_storeOperands (.inr List.mem_cons_self) _ fun l hl => .inl (h l hl)).seq fun _ =>
        (keepsFitted_loadText _).seq fun _ =>
          (keepsFitted_loadLocal (.inr List.mem_cons_self)).seq fun _ => keepsFitted_call _

theorem keepsFitted_showTop (t : Ty) : (showTop t).KeepsFitted A L :=
  (keepsFitted_traced _ _ rfl).seq fun _ => (keepsFitted_toFullText t).seq fun _ =>
    (fits_newLocal _ _).bind fun _ => (keepsFitted_storeLocal (.inr List.mem_cons_self)).seq fun _ =>
      (keepsFitted_loadText _).seq fun _ => (keepsFitted_loadLocal (.inr List.mem_cons_self)).seq
        fun _ => (keepsFitted_call _).seq fun _ => fits_get fun _ _ _ => keepsFitted_call _

end Emit

/-! ## Tracers -/

theorem Tracer.fits_silent {A : Op → Prop} : Tracer.silent.Fits A := by
  intro T s s' hs hrun
  cases hrun
  exact hs.goesOn

/-- At every level, showing a value keeps sessions fitted. -/
theorem Tracer.fits_ofLevel {A : Op → Prop} (level : TraceDetail) : (Tracer.ofLevel level).Fits A := by
  cases level with
  | off => exact fits_silent
  | log =>
    intro T s s' hs hrun
    cases hrun
    exact hs.goesOn
  | full =>
    intro T s s' hs hrun
    exact (Emit.keepsFitted_showTop (L := fun _ => False) T _ fits_silent s s' () hs
      (fun _ hl => hl.elim) hrun).1

/-! ## Operations -/

namespace Operation

open Emit

variable {A : Op → Prop} {L : Local → Prop}

theorem fits_done {e : Emit Unit} (h : e.KeepsFitted A L) : (perform.done e).Fits A L Answer.locals :=
  h.seq fun _ => fits_pure fun _ hl => absurd hl List.not_mem_nil

/-- An answer hands out the locals that the call gives it. -/
theorem fits_answer {α : Type} {e : Emit α} {f : α → Answer} {Q : α → List Local} (h : e.Fits A L Q)
    (hf : ∀ a, (f a).locals ⊆ Q a) : (f <$> e).Fits A L Answer.locals := by
  have hmap : f <$> e = e >>= fun a => pure (f a) := (bind_pure_comp f e).symm
  rw [hmap]
  exact h.bind fun a => fits_pure fun l hl => .inr (hf a hl)

/-- An **accepted operation** whose locals the session serves keeps the session fitted, and the session
serves the locals that it answers. -/
theorem fits_perform (o : Operation) (h : ∀ l ∈ o.locals, L l) : o.perform.Fits A L Answer.locals := by
  have hnone : ∀ {α : Type} {e : Emit α} {f : α → Answer}, e.KeepsFitted A L →
      (∀ a, (f a).locals = []) → (f <$> e).Fits A L Answer.locals := fun he hf =>
    fits_answer he fun a => by rw [hf a]; exact List.Subset.refl _
  cases o with
  | arg i => exact hnone (keepsFitted_arg i) fun _ => rfl
  | newLocal t name => exact fits_answer (fits_newLocal t name) fun _ => List.Subset.refl _
  | newLocalWith t name init =>
    exact fits_answer (fits_newLocalWith t name h) fun _ => List.Subset.refl _
  | assign l o =>
    obtain ⟨hl, ho⟩ := List.forall_mem_cons.1 h
    exact fits_done (keepsFitted_assign hl ho)
  | load o => exact fits_done (keepsFitted_load h)
  | store o => exact fits_done (keepsFitted_store h)
  | loadByAddress o => exact fits_done (keepsFitted_loadByAddress h)
  | increment o => exact fits_done (keepsFitted_count h _ rfl)
  | decrement o => exact fits_done (keepsFitted_count h _ rfl)
  | loadConstant c => exact fits_done (keepsFitted_loadConstant c)
  | loadArg a => exact fits_done (keepsFitted_loadArg a)
  | storeArg a => exact fits_done (keepsFitted_storeArg a)
  | loadArgAddress a => exact fits_done (keepsFitted_loadArgAddress a)
  | loadLocal l => exact fits_done (keepsFitted_loadLocal (h l List.mem_cons_self))
  | storeLocal l => exact fits_done (keepsFitted_storeLocal (h l List.mem_cons_self))
  | loadLocalAddress l => exact fits_done (keepsFitted_loadLocalAddress (h l List.mem_cons_self))
  | loadZero t => exact fits_done (keepsFitted_loadZero t)
  | newLabel => exact hnone keepsFitted_newLabel fun _ => rfl
  | markHere l => exact fits_done (keepsFitted_markHere l)
  | jumpTo l | jumpIfTrue l | jumpIfFalse l | jumpIfLess l | jumpIfGreater l | jumpIfLessOrEqual l =>
    exact fits_done (keepsFitted_branch _ _)
  | ret => exact fits_done keepsFitted_ret
  | convertTop s t => exact fits_done (keepsFitted_convertTop s t)
  | convertPointee s t => exact fits_done (keepsFitted_convert s t true)
  | instantiate c params => exact fits_done (keepsFitted_instantiate c h)
  | getMember m => exact hnone (keepsFitted_getMember m) fun _ => rfl
  | putMember m => exact fits_done (keepsFitted_putMember m)
  | callWith receiver m params =>
    obtain ⟨hr, hp⟩ := List.forall_mem_append.1 h
    refine fits_done (keepsFitted_callWith m (fun o ho l hl => hr l ?_) hp)
    exact List.mem_flatMap.2 ⟨o, Option.mem_toList.2 ho, hl⟩
  | makeArray t n => exact fits_done (keepsFitted_makeArray t h)
  | loadLength => exact fits_done keepsFitted_loadLength
  | loadItem t => exact fits_done (keepsFitted_loadItem t)
  | loadItemAddress t => exact fits_done (keepsFitted_loadItemAddress t)
  | storeItem t => exact fits_done (keepsFitted_storeItem t)
  | loadItemOf a i =>
    obtain ⟨ha, hi⟩ := List.forall_mem_append.1 h
    exact fits_done (keepsFitted_loadItemOf ha hi)
  | storeItemOf a i v =>
    obtain ⟨hslots, hv⟩ := List.forall_mem_append.1 h
    obtain ⟨ha, hi⟩ := List.forall_mem_append.1 hslots
    exact fits_done (keepsFitted_storeItemOf ha hi hv)
  | toText t => exact fits_done (keepsFitted_toText t)
  | toFullText t => exact fits_done (keepsFitted_toFullText t)
  | formatText format operands => exact fits_done (keepsFitted_formatText format h)
  | openIfTrue => exact fits_done keepsFitted_openIfTrue
  | openIfFalse => exact fits_done keepsFitted_openIfFalse
  | openIf c => exact fits_done (keepsFitted_openIf c)
  | openIfCompared a c b =>
    obtain ⟨ha, hb⟩ := List.forall_mem_append.1 h
    exact fits_done (keepsFitted_openIfCompared c ha hb)
  | openElse => exact fits_done keepsFitted_openElse
  | openElseIf a c b =>
    obtain ⟨ha, hb⟩ := List.forall_mem_append.1 h
    exact fits_done (keepsFitted_openElseIf c ha hb)
  | closeIf => exact fits_done keepsFitted_closeIf
  | openIfNotZero o => exact fits_done (keepsFitted_openIfNotZero h)
  | openIfNotEmpty l => exact fits_done (keepsFitted_openIfNotEmpty (h l List.mem_cons_self))
  | openElseIfEmpty l => exact fits_done (keepsFitted_openElseIfEmpty (h l List.mem_cons_self))
  | openFor index start bound =>
    obtain ⟨hslots, hbound⟩ := List.forall_mem_append.1 h
    obtain ⟨hindex, hstart⟩ := List.forall_mem_append.1 hslots
    exact hnone (keepsFitted_openFor (fun l hl => hindex l (Option.mem_toList.2 hl)) hstart hbound)
      fun _ => rfl
  | closeFor => exact fits_done keepsFitted_closeFor
  | openEach l element enumerator getCurrent =>
    obtain ⟨hl, he⟩ := List.forall_mem_cons.1 h
    exact hnone (keepsFitted_openEach hl (he _ List.mem_cons_self) element getCurrent) fun _ => rfl
  | closeEach moveNext => exact fits_done (keepsFitted_closeEach moveNext)
  | leave k | leaveIfTrue k | leaveIfFalse k => exact fits_done (keepsFitted_break k _ _)
  | openSwitch cases => exact hnone (keepsFitted_openSwitch cases) fun _ => rfl
  | openCase l name => exact fits_done (keepsFitted_openCase l name)
  | closeCase => exact fits_done keepsFitted_closeCase
  | openDefault => exact fits_done keepsFitted_openDefault
  | closeSwitch => exact fits_done keepsFitted_closeSwitch
  | openWhile => exact fits_done keepsFitted_openWhile
  | openWhileBody c => exact fits_done (keepsFitted_openWhileBody c)
  | closeWhile => exact fits_done keepsFitted_closeWhile
  | _ => exact fits_done (keepsFitted_traced _ _ rfl)

end Operation

/-- Beginning a procedure keeps its session fitted. -/
theorem Emit.keepsFitted_begin {A : Op → Prop} {L : Local → Prop} : Emit.begin.KeepsFitted A L := by
  refine fits_get fun s _ _ => ?_
  -- the call looks at the tracer, and then it is the call that it makes
  intro t
  have hbegin : ∀ x, KeepsFitted A (fun l => s.Serves A l) (do
      notify (.message .debug x)
      line ("Begin method " ++ s.name ++ " \x7b")) := fun x =>
    KeepsFitted.seq (keepsFitted_modify fun s hs _ =>
      hs.next rfl rfl (fun _ ho => .inl ho) hs.loops hs.format) fun _ => keepsFitted_line _
  exact hbegin _ t

end Stackwright
