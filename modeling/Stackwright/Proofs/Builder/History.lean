import Stackwright.Proofs.Emission.Calls
import Stackwright.Proofs.Session.Sound

/-! # Histories of a builder

A client makes one call after another, and each is accepted or refused. What a builder is afterwards is
told by its history: it still takes calls as long as every call was accepted and none finished it, and
the first call that breaks this decides for good. While it takes calls its session is sound.

* **`Builder.history b cs`** — the calls with why each was refused, if it was.
* **`Builder.after b cs`** — the builder behind a row of calls.
* **`Label.Issued l`** — some builder answered the label, so a client can hand it in. -/

namespace Stackwright

/-! ## Calls -/

/-- A **call** to a builder. -/
inductive Call
  /-- An emission call. -/
  | perform (operation : Operation)
  /-- The call that finishes the procedure. -/
  | finish

/-- The labels that a client hands in with a call. -/
def Call.handed : Call → List Label
  | .perform o => o.handed
  | .finish => []

/-- Why a call was **refused**, if it was. -/
def Outcome.refusal {α : Type} (r : Outcome α) : Option BuildError :=
  match r.result with
  | .ok _ => none
  | .error e => some e

/-- A call and why it was refused. It is **going** when it was accepted and does not finish. -/
def Going (r : Call × Option BuildError) : Prop := r.2 = none ∧ r.1 ≠ .finish

namespace Builder

/-- The builder behind a call, and why the call was refused. -/
def take (b : Builder) : Call → Builder × Option BuildError
  | .perform o => ((b.perform o).builder, (b.perform o).refusal)
  | .finish => (b.finish.builder, b.finish.refusal)

/-- The builder **behind a row** of calls. -/
def after (b : Builder) : List Call → Builder
  | [] => b
  | c :: cs => (b.take c).1.after cs

/-- The **history** of a row of calls. -/
def history (b : Builder) : List Call → List (Call × Option BuildError)
  | [] => []
  | c :: cs => (c, (b.take c).2) :: (b.take c).1.history cs

/-- The first call that was not going was refused. -/
def AbortedIn (b : Builder) (cs : List Call) : Prop :=
  ∃ before c e behind, b.history cs = before ++ (c, some e) :: behind ∧ ∀ r ∈ before, Going r

/-- The first call that was not going finished the procedure. -/
def FinishedIn (b : Builder) (cs : List Call) : Prop :=
  ∃ before behind, b.history cs = before ++ (.finish, none) :: behind ∧ ∀ r ∈ before, Going r

end Builder

/-- A label that some builder **issued**: it answered the label, after calls with issued labels. -/
inductive Label.Issued : Label → Prop
  /-- An accepted operation answers the label. -/
  | answered (number : Nat) (name : String) (signature : Signature) (sink : Sink)
      (level : TraceDetail) (cs : List Call) (o : Operation) (a : Answer) (l : Label)
      (hcs : ∀ c ∈ cs, ∀ m ∈ c.handed, m.Issued) (ho : ∀ m ∈ o.handed, m.Issued)
      (ha : (((Builder.begin number name signature sink level).builder.after cs).perform o).result =
        .ok a) (hl : l ∈ a.issued) : l.Issued

namespace Builder

variable {b : Builder} {c : Call} {cs : List Call} {s s' : Session} {o : Operation}

/-! ## One call -/

/-- A builder as it takes calls. -/
def taking (sink : Sink) (level : TraceDetail) (s : Session) : Builder := ⟨sink, level, .building s⟩

theorem eq_taking (h : b.state = .building s) : b = taking b.sink b.level s := by
  obtain ⟨sink, level, state⟩ := b
  cases h
  rfl

/-- An accepted operation leaves the builder taking calls. -/
theorem perform_ok (h : b.state = .building s) {a : Answer}
    (hrun : (o.perform.run (.ofLevel b.level)).run s = .ok a s') :
    b.perform o = ⟨.ok a, taking b.sink b.level { s' with notices := #[] }, s'.notices⟩ := by
  rw [eq_taking h] at hrun ⊢
  unfold perform submit taking
  dsimp only at hrun ⊢
  rw [show (o.perform.run (.ofLevel b.level)).run s = .ok a s' from hrun]

/-- A refused operation aborts the builder. -/
theorem perform_error (h : b.state = .building s) {e : BuildError}
    (hrun : (o.perform.run (.ofLevel b.level)).run s = .error e s') :
    (b.perform o).result = .error e ∧ (b.perform o).builder.state = .aborted := by
  rw [eq_taking h] at hrun ⊢
  unfold perform submit taking
  dsimp only at hrun ⊢
  rw [show (o.perform.run (.ofLevel b.level)).run s = .error e s' from hrun]
  exact ⟨rfl, rfl⟩

/-- An accepted end finalizes the builder. -/
theorem finish_ok (h : b.state = .building s) {p : Procedure}
    (hrun : (Emit.finish.run (.ofLevel b.level)).run s = .ok p s') :
    b.finish.result = .ok p ∧ b.finish.builder.state = .finalized := by
  rw [eq_taking h] at hrun ⊢
  unfold finish submit taking
  dsimp only at hrun ⊢
  rw [show (Emit.finish.run (.ofLevel b.level)).run s = .ok p s' from hrun]
  exact ⟨rfl, rfl⟩

/-- A refused end aborts the builder. -/
theorem finish_error (h : b.state = .building s) {e : BuildError}
    (hrun : (Emit.finish.run (.ofLevel b.level)).run s = .error e s') :
    b.finish.result = .error e ∧ b.finish.builder.state = .aborted := by
  rw [eq_taking h] at hrun ⊢
  unfold finish submit taking
  dsimp only at hrun ⊢
  rw [show (Emit.finish.run (.ofLevel b.level)).run s = .error e s' from hrun]
  exact ⟨rfl, rfl⟩

/-- An aborted builder refuses the end and stays aborted. -/
theorem finish_aborted (h : b.state = .aborted) : b.finish.result = .error .sessionAborted := by
  obtain ⟨sink, level, state⟩ := b
  cases h
  rfl

/-- A finalized builder refuses the end and stays finalized. -/
theorem finish_finalized (h : b.state = .finalized) :
    b.finish.result = .error .useAfterFinalize := by
  obtain ⟨sink, level, state⟩ := b
  cases h
  rfl

/-- So do they refuse an operation. -/
theorem perform_aborted (h : b.state = .aborted) : (b.perform o).result = .error .sessionAborted := by
  obtain ⟨sink, level, state⟩ := b
  cases h
  rfl

theorem perform_finalized (h : b.state = .finalized) :
    (b.perform o).result = .error .useAfterFinalize := by
  obtain ⟨sink, level, state⟩ := b
  cases h
  rfl

theorem take_aborted (h : b.state = .aborted) (c : Call) : (b.take c).1.state = .aborted := by
  obtain ⟨sink, level, state⟩ := b
  cases h
  cases c <;> rfl

theorem take_finalized (h : b.state = .finalized) (c : Call) :
    (b.take c).1.state = .finalized := by
  obtain ⟨sink, level, state⟩ := b
  cases h
  cases c <;> rfl

/-- While a builder takes calls, a call is going, or it is refused and aborts the builder, or it finishes
the procedure. -/
theorem take_building (h : b.state = .building s) (c : Call) :
    (Going (c, (b.take c).2) ∧ ∃ s', (b.take c).1.state = .building s') ∨
      ((∃ e, (b.take c).2 = some e) ∧ (b.take c).1.state = .aborted) ∨
      (c = .finish ∧ (b.take c).2 = none ∧ (b.take c).1.state = .finalized) := by
  cases c with
  | perform o =>
    cases hrun : (o.perform.run (.ofLevel b.level)).run s with
    | ok a s' =>
      refine .inl ⟨⟨?_, nofun⟩, { s' with notices := #[] }, ?_⟩
      · simp only [take, perform_ok h hrun]
        rfl
      · simp only [take, perform_ok h hrun]
        rfl
    | error e s' =>
      obtain ⟨hresult, hstate⟩ := perform_error h hrun
      refine .inr (.inl ⟨⟨e, ?_⟩, hstate⟩)
      simp only [take, Outcome.refusal, hresult]
  | finish =>
    cases hrun : (Emit.finish.run (.ofLevel b.level)).run s with
    | ok p s' =>
      obtain ⟨hresult, hstate⟩ := finish_ok h hrun
      refine .inr (.inr ⟨rfl, ?_, hstate⟩)
      simp only [take, Outcome.refusal, hresult]
    | error e s' =>
      obtain ⟨hresult, hstate⟩ := finish_error h hrun
      refine .inr (.inl ⟨⟨e, ?_⟩, hstate⟩)
      simp only [take, Outcome.refusal, hresult]

/-! ## A row of calls -/

theorem after_aborted (h : b.state = .aborted) (cs : List Call) : (b.after cs).state = .aborted := by
  induction cs generalizing b with
  | nil => exact h
  | cons c cs ih => exact ih (take_aborted h c)

theorem after_finalized (h : b.state = .finalized) (cs : List Call) :
    (b.after cs).state = .finalized := by
  induction cs generalizing b with
  | nil => exact h
  | cons c cs ih => exact ih (take_finalized h c)

/-- Two rows of calls in a row. -/
theorem after_append (b : Builder) (cs cs' : List Call) :
    b.after (cs ++ cs') = (b.after cs).after cs' := by
  induction cs generalizing b with
  | nil => rfl
  | cons c cs ih => exact ih _

/-- A builder that takes calls behind a row took calls before it. -/
theorem building_of_after (h : (b.after cs).state = .building s) : ∃ s₀, b.state = .building s₀ := by
  cases hstate : b.state with
  | building s₀ => exact ⟨s₀, rfl⟩
  | aborted =>
    rw [after_aborted hstate] at h
    cases h
  | finalized =>
    rw [after_finalized hstate] at h
    cases h

/-- A going call before a row does not change what the row ends in. -/
theorem abortedIn_cons (hc : Going (c, (b.take c).2)) (h : (b.take c).1.AbortedIn cs) :
    b.AbortedIn (c :: cs) := by
  obtain ⟨before, c', e, behind, heq, hgoing⟩ := h
  refine ⟨(c, (b.take c).2) :: before, c', e, behind, ?_, List.forall_mem_cons.2 ⟨hc, hgoing⟩⟩
  rw [history, heq, List.cons_append]

theorem finishedIn_cons (hc : Going (c, (b.take c).2)) (h : (b.take c).1.FinishedIn cs) :
    b.FinishedIn (c :: cs) := by
  obtain ⟨before, behind, heq, hgoing⟩ := h
  refine ⟨(c, (b.take c).2) :: before, behind, ?_, List.forall_mem_cons.2 ⟨hc, hgoing⟩⟩
  rw [history, heq, List.cons_append]

/-- The **history decides the state**: behind a row of calls a builder takes calls if all of them were
going, and otherwise the first one that was not decides. -/
theorem state_after (h : b.state = .building s) (cs : List Call) :
    ((∀ r ∈ b.history cs, Going r) ∧ ∃ s', (b.after cs).state = .building s') ∨
      (b.AbortedIn cs ∧ (b.after cs).state = .aborted) ∨
      (b.FinishedIn cs ∧ (b.after cs).state = .finalized) := by
  induction cs generalizing b s with
  | nil => exact .inl ⟨fun r hr => absurd hr List.not_mem_nil, s, h⟩
  | cons c cs ih =>
    rcases take_building h c with ⟨hgoing, s', hs'⟩ | ⟨⟨e, he⟩, hstate⟩ | ⟨rfl, hnone, hstate⟩
    · rcases ih hs' with ⟨hall, hafter⟩ | ⟨haborted, hafter⟩ | ⟨hfinished, hafter⟩
      · exact .inl ⟨List.forall_mem_cons.2 ⟨hgoing, hall⟩, hafter⟩
      · exact .inr (.inl ⟨abortedIn_cons hgoing haborted, hafter⟩)
      · exact .inr (.inr ⟨finishedIn_cons hgoing hfinished, hafter⟩)
    · refine .inr (.inl ⟨⟨[], c, e, (b.take c).1.history cs, ?_, fun r hr => absurd hr List.not_mem_nil⟩,
        after_aborted hstate cs⟩)
      rw [history, he, List.nil_append]
    · refine .inr (.inr ⟨⟨[], (b.take .finish).1.history cs, ?_, fun r hr => absurd hr List.not_mem_nil⟩,
        after_finalized hstate cs⟩)
      rw [history, hnone, List.nil_append]

/-! ## The session behind a row of calls -/

/-- An accepted operation grows the session of a builder, and the labels that it answers are inside the
procedure. -/
theorem grows_perform (h : b.state = .building s) (hs : s.Inner) (ho : Emit.Inside o.handed)
    {a : Answer} (ha : (b.perform o).result = .ok a) :
    (∃ s', (b.perform o).builder.state = .building s' ∧ s.Grows s') ∧ Emit.Inside a.issued := by
  cases hrun : (o.perform.run (.ofLevel b.level)).run s with
  | error e s' =>
    rw [(perform_error h hrun).1] at ha
    cases ha
  | ok a' s' =>
    rw [perform_ok h hrun] at ha ⊢
    cases ha
    obtain ⟨hgrows, hissued⟩ :=
      o.gives_perform ho _ (Tracer.moves_ofLevel b.level) s s' a hs hrun
    exact ⟨⟨_, rfl, hgrows.trans Session.Change.deliver.grows⟩, hissued⟩

/-- As long as a builder takes calls, its session **grows**. -/
theorem grows_after (h : b.state = .building s) (hs : s.Inner)
    (hcs : ∀ c ∈ cs, Emit.Inside c.handed) (h' : (b.after cs).state = .building s') :
    s.Grows s' := by
  induction cs generalizing b s with
  | nil =>
    rw [after, h] at h'
    cases h'
    exact .refl _
  | cons c cs ih =>
    obtain ⟨hc, hrest⟩ := List.forall_mem_cons.1 hcs
    rcases take_building h c with ⟨hgoing, s₁, hs₁⟩ | ⟨-, hstate⟩ | ⟨rfl, -, hstate⟩
    · cases c with
      | finish => exact absurd rfl hgoing.2
      | perform o =>
        cases ha : (b.perform o).result with
        | error e =>
          have hnone := hgoing.1
          simp only [take, Outcome.refusal, ha] at hnone
          cases hnone
        | ok a =>
          -- an accepted call grows the session; every other one leaves no session to grow
          obtain ⟨⟨s₂, hs₂, hgrows⟩, -⟩ := grows_perform h hs hc ha
          exact hgrows.trans (ih hs₂ (hgrows.inner hs) hrest h')
    · rw [after, after_aborted hstate] at h'
      cases h'
    · rw [after, after_finalized hstate] at h'
      cases h'

/-- A new builder takes calls, with a sound session. -/
theorem begin_building (number : Nat) (name : String) (signature : Signature) (sink : Sink)
    (level : TraceDetail) :
    ∃ s, (begin number name signature sink level).builder.state = .building s ∧ s.Sound := by
  have hfresh := Session.sound_fresh number name signature sink
  cases hrun : (Emit.begin.run (.ofLevel level)).run (.fresh number name signature sink) with
  | error e s =>
    exfalso
    cases level <;> cases hrun
  | ok u s =>
    obtain ⟨hgrows, -⟩ := Emit.moves_begin _ (Tracer.moves_ofLevel level) _ s u hfresh.inner hrun
    refine ⟨{ s with notices := #[] }, ?_, (hgrows.trans Session.Change.deliver.grows).sound hfresh⟩
    unfold begin submit
    dsimp only
    rw [hrun]

end Builder

/-! ## Issued labels -/

/-- The end label is **never issued**. -/
theorem Label.Issued.inside {l : Label} (h : l.Issued) : l.id ≠ 0 := by
  induction h with
  | answered number name signature sink level cs o a l hcs ho ha hl ihcs iho =>
    obtain ⟨s₀, hs₀, hsound⟩ := Builder.begin_building number name signature sink level
    cases hstate : ((Builder.begin number name signature sink level).builder.after cs).state with
    | building s =>
      have hgrows := Builder.grows_after hs₀ hsound.inner ihcs hstate
      exact (Builder.grows_perform hstate (hgrows.inner hsound.inner) iho ha).2 l hl
    | aborted =>
      rw [Builder.perform_aborted hstate] at ha
      cases ha
    | finalized =>
      rw [Builder.perform_finalized hstate] at ha
      cases ha

end Stackwright
