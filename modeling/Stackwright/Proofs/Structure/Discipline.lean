import Stackwright.Proofs.Builder.Ending
import Stackwright.Proofs.Structure.Turns

/-! # The discipline of constructs

Which rows of calls a builder takes as far as their constructs go, at every level. Its session keeps the
records that the brackets of the calls make, so a call that breaks the nesting is refused as a structural
mismatch and no procedure comes of it, and calls that do lead to a procedure are nested properly. The two
slips are the exception: the records of a while loop do not tell its condition from its body.

* **`Builder.kinds_after`** — the records behind calls that were taken.
* **`Builder.nested_after`** — calls that lead to a procedure are nested properly, unless a slip occurs. -/

namespace Stackwright

/-! ## The records behind a row of calls -/

/-- The kinds of the records that a session keeps behind a row of calls, unless it refuses one. -/
def records : List Operation → List ConstructKind → Option (List ConstructKind)
  | [], ks => some ks
  | o :: os, ks => (o.bracket.shift ks).bind (records os)

/-- A **slip occurs** among calls: before it they are nested properly. -/
def SlipOccurs (os : List Operation) : Prop :=
  ∃ before o behind st, os = before ++ o :: behind ∧ opened before [] = some st ∧ o.bracket.slips st

/-- Calls that leave records behind are those that the client's view of the constructs takes, or a slip
occurs among them. -/
theorem opened_of_records {os : List Operation} {ks : List ConstructKind} {st : List Opened}
    (h : records os (st.flatMap Opened.records) = some ks) :
    (∃ st', opened os st = some st' ∧ ks = st'.flatMap Opened.records) ∨
      ∃ before o behind st', os = before ++ o :: behind ∧ opened before st = some st' ∧
        o.bracket.slips st' := by
  induction os generalizing st with
  | nil => exact .inl ⟨st, rfl, (Option.some.inj h).symm⟩
  | cons o os ih =>
    rw [records, Option.bind_eq_some_iff] at h
    obtain ⟨ks₁, hshift, hrest⟩ := h
    cases hstep : o.bracket.step st with
    | none =>
      refine .inr ⟨[], o, os, st, rfl, rfl, ?_⟩
      by_contra hslip
      rw [Bracket.shift_eq_none hstep hslip] at hshift
      cases hshift
    | some st₁ =>
      rw [Bracket.shift_of_step hstep] at hshift
      obtain rfl := Option.some.inj hshift
      rcases ih hrest with ⟨st', hst', hks⟩ | ⟨before, o', behind, st', rfl, hst', hslip⟩
      · exact .inl ⟨st', by rw [opened_cons, hstep]; exact hst', hks⟩
      · exact .inr ⟨o :: before, o', behind, st', rfl, by rw [opened_cons, hstep]; exact hst', hslip⟩

/-- A slip breaks the nesting. -/
theorem not_nested_of_slipOccurs {os : List Operation} (h : SlipOccurs os) : ¬ Nested none os := by
  rintro hnested
  obtain ⟨before, o, behind, st, rfl, hst, hslip⟩ := h
  have hopened := opened_eq_nil_iff.2 hnested
  rw [opened_append, hst, Option.bind_some, opened_cons, Bracket.step_of_slips hslip] at hopened
  cases hopened

/-- A session keeps the records of what the client sees open. -/
theorem records_of_opened {os : List Operation} {st st' : List Opened} (h : opened os st = some st') :
    records os (st.flatMap Opened.records) = some (st'.flatMap Opened.records) := by
  induction os generalizing st with
  | nil =>
    cases h
    rfl
  | cons o os ih =>
    rw [opened_cons, Option.bind_eq_some_iff] at h
    obtain ⟨st₁, hstep, hrest⟩ := h
    rw [records, Bracket.shift_of_step hstep]
    exact ih hrest

namespace Session

/-- The records behind a turned session are those that the bracket makes. -/
theorem Turned.kinds {b : Bracket} {s s' : Session} (h : s.Turned b s') : b.shift s.kinds = some s'.kinds := by
  have hturns := h.outline
  rw [kinds_eq, kinds_eq]
  -- the kinds follow the constructs, for which each bracket says what becomes of them
  cases b with
  | plain =>
    have heq : s'.outline = s.outline := hturns
    rw [heq]
    rfl
  | opens k =>
    obtain ⟨c, rfl, hcs⟩ := hturns
    rw [hcs]
    rfl
  | alternative =>
    obtain ⟨o, o', f, rest, hcs, hcs', -⟩ := hturns
    rw [hcs, hcs']
    rfl
  | part =>
    obtain ⟨d, f, given, given', rest, hcs, hcs'⟩ := hturns
    rw [hcs, hcs']
    rfl
  | body =>
    obtain ⟨head, o, f, rest, hcs, hcs'⟩ := hturns
    rw [hcs, hcs']
    rfl
  | closes k =>
    cases k with
    | conditional =>
      obtain ⟨o, f, hcs, -⟩ := hturns
      rw [hcs]
      rfl
    | whileLoop =>
      obtain ⟨head, o, f, hcs, -⟩ := hturns
      rw [hcs]
      rfl
    | _ =>
      obtain ⟨c, hc, hcs⟩ := hturns
      rw [hcs, List.map_cons, hc]
      rfl

end Session

namespace Builder

variable {b : Builder} {s s' : Session} {o : Operation} {os : List Operation} {cs : List Call}

/-- The session of a new builder is spared by what begins it. -/
theorem begin_spares (number : Nat) (name : String) (signature : Signature) (sink : Sink)
    (level : TraceDetail) :
    ∃ s, (begin number name signature sink level).builder.state = .building s ∧
      (Session.fresh number name signature sink).Spares s := by
  obtain ⟨x, hrun⟩ := Emit.run_begin (.ofLevel level) (.fresh number name signature sink)
  have hnoticed := Session.spares_noticed (Session.fit_fresh number name signature sink) (.message .debug x)
  have hwritten := hnoticed.trans (Session.spares_written hnoticed.fit (.ofLevel level)
    ("Begin method " ++ name ++ " \x7b"))
  refine ⟨_, ?_, hwritten.trans (Session.spares_delivered hwritten.fit)⟩
  rw [begin, submit]
  dsimp only
  rw [show (Emit.begin.run (.ofLevel level)).run (.fresh number name signature sink) = _ from hrun]
  rfl

/-- An operation that a builder takes turns its session. -/
theorem turned_perform (h : b.state = .building s) (hs : s.Fit)
    (h' : (b.perform o).builder.state = .building s') : s.Turned o.bracket s' := by
  cases hrun : (o.perform.run (.ofLevel b.level)).run s with
  | ok a s₁ =>
    rw [perform_ok h hrun] at h'
    cases h'
    have hturned := o.turns_perform b.level s s₁ a hs hrun
    exact hturned.behind (Session.spares_delivered hturned.fit).turned
  | error e s₁ =>
    rw [(perform_error h hrun).2] at h'
    cases h'

/-- Behind calls that a builder took, its session keeps the records that their brackets make. -/
theorem kinds_after (h : b.state = .building s) (hs : s.Fit)
    (h' : (b.after (os.map .perform)).state = .building s') :
    s'.Fit ∧ records os s.kinds = some s'.kinds := by
  induction os generalizing b s with
  | nil =>
    rw [List.map_nil, after, h] at h'
    cases h'
    exact ⟨hs, rfl⟩
  | cons o os ih =>
    obtain ⟨s₁, hs₁⟩ : ∃ s₁, (b.perform o).builder.state = .building s₁ := building_of_after h'
    have hturned : s.Turned o.bracket s₁ := turned_perform h hs hs₁
    obtain ⟨hfit, hrecords⟩ := ih hs₁ hturned.fit h'
    exact ⟨hfit, by rw [records, hturned.kinds]; exact hrecords⟩

/-- A builder that still takes calls was given operations only. -/
theorem operations_of_after (h : (b.after cs).state = .building s) : ∃ os : List Operation, cs = os.map .perform := by
  induction cs generalizing b with
  | nil => exact ⟨[], rfl⟩
  | cons c cs ih =>
    obtain ⟨os, rfl⟩ := ih h
    cases c with
    | perform o => exact ⟨o :: os, rfl⟩
    | finish =>
      obtain ⟨s₀, hs₀⟩ := building_of_after h
      rcases take_building hs₀ .finish with ⟨hgoing, -⟩ | ⟨-, hstate⟩ | ⟨-, -, hstate⟩
      · exact absurd rfl hgoing.2
      · rw [after, after_aborted hstate] at h
        cases h
      · rw [after, after_finalized hstate] at h
        cases h

/-- A builder with an open construct does not finish. -/
theorem constructs_of_finish (h : b.state = .building s) {p : Procedure} (hp : b.finish.result = .ok p) :
    s.constructs = [] := by
  cases hcs : s.constructs with
  | nil => rfl
  | cons c cs =>
    rw [(finish_error h (Emit.run_finish_open hcs)).1] at hp
    cases hp

/-- No procedure comes of a builder behind a refused operation. -/
theorem finish_of_refused (h : b.state = .building s) {e : BuildError}
    (he : (b.perform o).result = .error e) (cs : List Call) (p : Procedure) :
    ((b.after (.perform o :: cs)).finish.result ≠ .ok p) := by
  have habsurd : (b.perform o).builder.state = .aborted := by
    cases hrun : (o.perform.run (.ofLevel b.level)).run s with
    | ok a s₁ =>
      rw [perform_ok h hrun] at he
      cases he
    | error r s₁ => exact (perform_error h hrun).2
  have hstate : (b.after (.perform o :: cs)).state = .aborted := after_aborted habsurd cs
  rw [finish_aborted hstate]
  exact nofun

/-! ## Proper nesting -/

/-- **The discipline of constructs**, at every level. Calls that lead to a procedure are operations, and
they are nested properly exactly if no slip occurs among them. A call that breaks the nesting of those
before it, and is no slip, is refused as a structural mismatch, and then no calls lead to a procedure. -/
theorem nested_after (number : Nat) (name : String) (signature : Signature) (sink : Sink)
    (level : TraceDetail) :
    let b := (begin number name signature sink level).builder
    (∀ cs p, (b.after cs).finish.result = .ok p →
        ∃ os : List Operation, cs = os.map .perform ∧ (Nested none os ↔ ¬ SlipOccurs os)) ∧
      ∀ (os : List Operation) (o : Operation) (st : List Opened) (s : Session),
        (b.after (os.map .perform)).state = .building s → opened os [] = some st →
          o.bracket.step st = none → ¬ o.bracket.slips st →
            (∃ expected found, ((b.after (os.map .perform)).perform o).result =
              .error (.structuralMismatch expected found)) ∧
            ∀ cs p, (b.after (os.map .perform ++ .perform o :: cs)).finish.result ≠ .ok p := by
  intro b
  obtain ⟨s₀, hs₀, hspares⟩ := begin_spares number name signature sink level
  have hnone : s₀.kinds = [] := by
    rw [Session.kinds, hspares.constructs]
    rfl
  refine ⟨fun cs p hp => ?_, fun os o st s hs hst hstep hslip => ?_⟩
  · obtain ⟨s, hs⟩ := building_of_finish hp
    obtain ⟨os, rfl⟩ := operations_of_after hs
    obtain ⟨-, hrecords⟩ := kinds_after hs₀ hspares.fit hs
    rw [hnone, Session.kinds, constructs_of_finish hs hp] at hrecords
    refine ⟨os, rfl, fun hnested hslip => not_nested_of_slipOccurs hslip hnested, fun hslip => ?_⟩
    have hopen : records os (([] : List Opened).flatMap Opened.records) = some [] := hrecords
    rcases opened_of_records hopen with ⟨st, hst, hrecs⟩ | ⟨before, o, behind, st, heq, hst, hs⟩
    · -- nothing is recorded, so nothing is open
      have hnil : st = [] := by
        cases st with
        | nil => rfl
        | cons x st => cases x <;> simp [Opened.records] at hrecs
      exact opened_eq_nil_iff.1 (hnil ▸ hst)
    · exact absurd ⟨before, o, behind, st, heq, hst, hs⟩ hslip
  · obtain ⟨hfit, hrecords⟩ := kinds_after hs₀ hspares.fit hs
    have hkinds : s.kinds = st.flatMap Opened.records := by
      rw [hnone] at hrecords
      exact Option.some.inj (hrecords.symm.trans (records_of_opened hst))
    have hshift : o.bracket.shift s.kinds = none := by
      rw [hkinds]
      exact Bracket.shift_eq_none hstep hslip
    obtain ⟨expected, found, s', hrun⟩ := o.refuses_perform _ s hfit hshift
    have herror := (perform_error hs hrun).1
    refine ⟨⟨expected, found, herror⟩, fun cs p => ?_⟩
    rw [after_append]
    exact finish_of_refused hs herror cs p

/-- The condition of a while loop, directly in a conditional of the client, is closed as if it were a
body. -/
def closedCondition : List Operation :=
  [.loadConstant (.scalar (.bool true)), .openIfTrue, .openWhile, .closeWhile]

/-- The session behind these calls: both jumps go to marked labels. -/
theorem state_closedCondition :
    ∃ s, ((begin 1 "f" ⟨[], none⟩ .log .off).builder.after (closedCondition.map .perform)).state =
        .building s ∧ s.constructs = [] ∧
      s.code = #[.op (.push (.scalar (.bool true))), .jump (.ifFalse ⟨1, 2⟩), .jump (.always ⟨1, 3⟩)] ∧
      s.labels = ⟨1, #[⟨none, false⟩, ⟨some 3, false⟩, ⟨some 3, true⟩, ⟨some 2, true⟩]⟩ :=
  ⟨_, rfl, rfl, rfl, rfl⟩

theorem ready_closedCondition :
    (begin 1 "f" ⟨[], none⟩ .log .off).builder.Ready (closedCondition.map .perform) := by
  obtain ⟨s, hs, hopen, hcode, hlabels⟩ := state_closedCondition
  refine ⟨s, hs, hopen, ?_⟩
  rintro l ⟨i, hi, hl⟩
  simp only [hcode, List.mem_toArray, List.mem_cons, List.not_mem_nil, or_false] at hi
  rw [hlabels]
  rcases hi with rfl | rfl | rfl
  · cases hl
  · obtain rfl := List.mem_singleton.1 hl
    exact ⟨3, rfl, _, rfl, rfl⟩
  · obtain rfl := List.mem_singleton.1 hl
    exact ⟨2, rfl, _, rfl, rfl⟩

/-- These calls lead to a procedure although they are not nested properly. -/
theorem nested_after_closedCondition :
    ∃ p, ((begin 1 "f" ⟨[], none⟩ .log .off).builder.after (closedCondition.map .perform)).finish.result =
      .ok p ∧ ¬ Nested none closedCondition := by
  obtain ⟨s₀, hs₀, hsound⟩ := begin_building 1 "f" ⟨[], none⟩ .log .off
  have hinside : ∀ c ∈ closedCondition.map Call.perform, Emit.Inside c.handed := by
    simp [closedCondition, Call.handed, Operation.handed, Emit.Inside]
  rcases finish_cases hs₀ hsound hinside with ⟨-, -, p, hp, -⟩ | ⟨hnot, -⟩
  case inr => exact absurd ready_closedCondition hnot
  obtain ⟨os, hos, hnested⟩ := (nested_after 1 "f" ⟨[], none⟩ .log .off).1 _ p hp
  have hsame : os = closedCondition := List.map_injective_iff.2 (fun _ _ => Call.perform.inj) hos.symm
  subst hsame
  have hslip : SlipOccurs closedCondition :=
    ⟨closedCondition.take 3, .closeWhile, [], [.construct .whileLoop, .construct .conditional], rfl, rfl, rfl⟩
  exact ⟨p, hp, fun h => hnested.1 h hslip⟩

end Builder

end Stackwright
