import Stackwright.Proofs.Builder.History
import Stackwright.Proofs.Machine.Visits

/-! # What the end of a builder comes to

The end of a builder is decided by its history and by the session behind it: after calls that were all
accepted, it is accepted exactly when nothing is open and every label that is jumped to is marked, and
otherwise the refusal says which of these fails. What it builds never runs past its instructions.

* **`Builder.Ready b cs`** — behind the calls, nothing is open and no target is missing.
* **`Builder.Blamed b cs e`** — what a refusal of the end blames.
* **`Procedure.Contained p`** — no run of a procedure goes past its instructions. -/

namespace Stackwright

/-- No run of a procedure goes past its instructions: jumps stay inside, the last instruction is the
return, every position that a run gets to holds an instruction, and what a run returns comes from a
return that it got to. -/
structure Procedure.Contained (p : Procedure) : Prop where
  /-- Every target is the position of an instruction. -/
  targets : ∀ i ∈ p.code, ∀ t ∈ i.targets, t < p.code.size
  /-- The last instruction is the return. -/
  last : p.code.back? = some .ret
  /-- Every position that a call gets to holds an instruction. -/
  inside : ∀ args world n m, p.Visits ⟨p.frame args, world⟩ n m → n < p.code.size
  /-- A call that ends does so by a return that it gets to. -/
  returns : ∀ args world fuel v m, p.runFrom fuel 0 ⟨p.frame args, world⟩ = .ok v m →
    ∃ n m₁, p.Visits ⟨p.frame args, world⟩ n m₁ ∧ p.code[n]? = some .ret ∧
      (Exec.result p.signature.ret).run m₁ = .ok v m

theorem Procedure.Closed.contained {p : Procedure} (h : p.Closed) : p.Contained where
  targets := h.targets
  last := h.last
  inside _ _ _ _ hvisit := h.inside hvisit
  returns _ _ _ _ _ hrun := h.returns .start hrun

namespace Builder

/-- Behind a row of calls, the builder is **ready** to end: it takes calls, nothing is open, and every
label that a recorded jump goes to is marked. -/
def Ready (b : Builder) (cs : List Call) : Prop :=
  ∃ s, (b.after cs).state = .building s ∧ s.constructs = [] ∧ s.Complete

/-- What a refusal of the end **blames**. -/
inductive Blamed (b : Builder) (cs : List Call) : BuildError → Prop
  /-- A call was refused before. -/
  | aborted (h : b.AbortedIn cs) : Blamed b cs .sessionAborted
  /-- The procedure was finished before. -/
  | finished (h : b.FinishedIn cs) : Blamed b cs .useAfterFinalize
  /-- A construct is open. -/
  | unclosed (s : Session) (c : Construct) (rest : List Construct)
      (h : (b.after cs).state = .building s) (hopen : s.constructs = c :: rest) :
      Blamed b cs (.unclosedBlock s.constructs.length c.kind)
  /-- Nothing is open, and a target is missing. -/
  | unmarked (s : Session) (l : Label) (h : (b.after cs).state = .building s)
      (hopen : s.constructs = []) (hl : s.FirstMissing l) : Blamed b cs (.labelNotMarked l)

variable {b : Builder} {cs : List Call} {s : Session}

/-- The end of a sound session. -/
theorem finish_sound (h : (b.after cs).state = .building s) (hs : s.Sound) :
    (b.Ready cs ∧ ∃ p, (b.after cs).finish.result = .ok p ∧ p.Contained) ∨
      (¬ b.Ready cs ∧ ∃ e, (b.after cs).finish.result = .error e ∧ b.Blamed cs e) := by
  have hready : b.Ready cs → s.constructs = [] ∧ s.Complete := by
    rintro ⟨s', hs', hready⟩
    rw [h] at hs'
    cases hs'
    exact hready
  cases hopen : s.constructs with
  | cons c rest =>
    refine .inr ⟨fun hr => ?_, _, (finish_error h (Emit.run_finish_open hopen)).1,
      .unclosed s c rest h hopen⟩
    have hnone := (hready hr).1
    rw [hopen] at hnone
    cases hnone
  | nil =>
    by_cases hc : s.Complete
    · obtain ⟨code, hrun, -, hclosed⟩ := Emit.run_finish_complete hs hopen hc
      exact .inl ⟨⟨s, h, hopen, hc⟩, _, (finish_ok h hrun).1, (hclosed _ _ _).contained⟩
    · obtain ⟨l, hl⟩ := Session.exists_firstMissing hs hc
      exact .inr ⟨fun hr => hc (hready hr).2, _,
        (finish_error h (Emit.run_finish_missing hs hopen hl)).1, .unmarked s l h hopen hl⟩

/-- An accepted end links the code of the session. -/
theorem linked_of_finish (h : b.state = .building s) (hs : s.Sound) {p : Procedure}
    (hp : b.finish.result = .ok p) :
    Linked (s.ended (.ofLevel b.level)).labels (s.ended (.ofLevel b.level)).code p.code := by
  cases hopen : s.constructs with
  | cons c rest =>
    rw [(finish_error h (Emit.run_finish_open hopen)).1] at hp
    cases hp
  | nil =>
    by_cases hc : s.Complete
    · obtain ⟨code, hrun, hlinked, -⟩ := Emit.run_finish_complete hs hopen hc
      rw [(finish_ok h hrun).1] at hp
      cases hp
      exact hlinked
    · obtain ⟨l, hl⟩ := Session.exists_firstMissing hs hc
      rw [(finish_error h (Emit.run_finish_missing hs hopen hl)).1] at hp
      cases hp

/-- Only a builder that takes calls finishes. -/
theorem building_of_finish {p : Procedure} (hp : b.finish.result = .ok p) :
    ∃ s, b.state = .building s := by
  cases hstate : b.state with
  | building s => exact ⟨s, rfl⟩
  | aborted =>
    rw [finish_aborted hstate] at hp
    cases hp
  | finalized =>
    rw [finish_finalized hstate] at hp
    cases hp

/-- A builder that does not take calls is not ready. -/
theorem not_ready (h : ∀ s, (b.after cs).state ≠ .building s) : ¬ b.Ready cs := by
  rintro ⟨s, hs, -⟩
  exact h s hs

/-- The end behind any calls of a client. -/
theorem finish_cases (h : b.state = .building s) (hs : s.Sound)
    (hcs : ∀ c ∈ cs, Emit.Inside c.handed) :
    ((∀ r ∈ b.history cs, Going r) ∧ b.Ready cs ∧
        ∃ p, (b.after cs).finish.result = .ok p ∧ p.Contained) ∨
      (¬ b.Ready cs ∧ ∃ e, (b.after cs).finish.result = .error e ∧ b.Blamed cs e) := by
  rcases state_after h cs with ⟨hgoing, s', hs'⟩ | ⟨haborted, hstate⟩ | ⟨hfinished, hstate⟩
  · have hsound : s'.Sound := (grows_after h hs.inner hcs hs').sound hs
    exact (finish_sound hs' hsound).imp_left fun hready => ⟨hgoing, hready⟩
  · refine .inr ⟨not_ready fun s' => ?_, _, finish_aborted hstate, .aborted haborted⟩
    rw [hstate]
    exact nofun
  · refine .inr ⟨not_ready fun s' => ?_, _, finish_finalized hstate, .finished hfinished⟩
    rw [hstate]
    exact nofun

/-- **The end of every history.** After any calls of a client to a new builder, the end is accepted
exactly when no call was refused, none finished the procedure, nothing is open and every label that a
recorded jump goes to is marked. Otherwise it blames the first call that was refused or that finished,
the innermost open construct, or the lowest label that is missing. What it builds is contained. -/
theorem finish_after (number : Nat) (name : String) (signature : Signature) (sink : Sink)
    (level : TraceDetail) (cs : List Call) (hcs : ∀ c ∈ cs, ∀ l ∈ c.handed, l.Issued) :
    let b := (begin number name signature sink level).builder
    ((∃ p, (b.after cs).finish.result = .ok p) ↔
        (∀ r ∈ b.history cs, r.2 = none) ∧ (.finish, none) ∉ b.history cs ∧ b.Ready cs) ∧
      (∀ e, (b.after cs).finish.result = .error e → b.Blamed cs e) ∧
      ∀ p, (b.after cs).finish.result = .ok p → p.Contained := by
  intro b
  obtain ⟨s₀, hs₀, hsound⟩ := begin_building number name signature sink level
  have hinside : ∀ c ∈ cs, Emit.Inside c.handed := fun c hc l hl => (hcs c hc l hl).inside
  -- the end succeeds just when the builder is ready for it; else its error has its cause in the history
  rcases finish_cases hs₀ hsound hinside with ⟨hgoing, hready, p, hp, hcontained⟩ |
    ⟨hready, e, he, hblamed⟩
  · have hnone : ∀ r ∈ b.history cs, r.2 = none := fun r hr => (hgoing r hr).1
    have hfinish : (Call.finish, none) ∉ b.history cs := fun hmem => (hgoing _ hmem).2 rfl
    refine ⟨⟨fun _ => ⟨hnone, hfinish, hready⟩, fun _ => ⟨p, hp⟩⟩, fun e he => ?_, fun p' hp' => ?_⟩
    · rw [hp] at he
      cases he
    · rw [hp] at hp'
      cases hp'
      exact hcontained
  · refine ⟨⟨fun ⟨p, hp⟩ => ?_, fun h => absurd h.2.2 hready⟩, fun e' he' => ?_, fun p hp => ?_⟩
    · rw [he] at hp
      cases hp
    · rw [he] at he'
      cases he'
      exact hblamed
    · rw [he] at hp
      cases hp

/-- The calls of a client that jumps to a label that it got, and marks it. -/
def jumpAhead : List Call :=
  [.perform .newLabel, .perform (.jumpTo ⟨1, 1⟩), .perform (.markHere ⟨1, 1⟩)]

theorem issued_jumpAhead : ∀ c ∈ jumpAhead, ∀ l ∈ c.handed, l.Issued := by
  have hanswer : (((begin 1 "f" ⟨[], none⟩ .log .off).builder.after []).perform .newLabel).result =
      .ok (.label ⟨1, 1⟩) := rfl
  have hl : Label.Issued ⟨1, 1⟩ :=
    .answered 1 "f" ⟨[], none⟩ .log .off [] .newLabel _ _ (fun _ hc => absurd hc List.not_mem_nil)
      (fun _ hm => absurd hm List.not_mem_nil) hanswer List.mem_cons_self
  simp [jumpAhead, Call.handed, Operation.handed, hl]

/-- The session behind these calls has one jump, to a marked label. -/
theorem ready_jumpAhead : ((begin 1 "f" ⟨[], none⟩ .log .off).builder).Ready jumpAhead := by
  refine ⟨_, rfl, rfl, ?_⟩
  rintro l ⟨i, hi, hl⟩
  obtain rfl := List.mem_singleton.1 (Array.mem_def.1 hi)
  obtain rfl := List.mem_singleton.1 hl
  exact ⟨1, rfl, _, rfl, rfl⟩

/-- Such a client gets a contained procedure. -/
theorem finish_after_jumpAhead :
    (∀ c ∈ jumpAhead, ∀ l ∈ c.handed, l.Issued) ∧
      ∃ p, ((begin 1 "f" ⟨[], none⟩ .log .off).builder.after jumpAhead).finish.result = .ok p ∧
        p.Contained := by
  obtain ⟨haccepted, -, hcontained⟩ :=
    finish_after 1 "f" ⟨[], none⟩ .log .off jumpAhead issued_jumpAhead
  have hhistory : (begin 1 "f" ⟨[], none⟩ .log .off).builder.history jumpAhead =
      jumpAhead.map fun c => (c, none) := rfl
  have hready : ∃ p, ((begin 1 "f" ⟨[], none⟩ .log .off).builder.after jumpAhead).finish.result =
      .ok p := by
    refine haccepted.2 ⟨?_, ?_, ready_jumpAhead⟩
    · rw [hhistory]
      simp
    · rw [hhistory]
      simp [jumpAhead]
  obtain ⟨p, hp⟩ := hready
  exact ⟨issued_jumpAhead, p, hp, hcontained p hp⟩

end Builder

end Stackwright
