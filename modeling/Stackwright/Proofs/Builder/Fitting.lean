import Stackwright.Proofs.Builder.Standing
import Stackwright.Proofs.Machine.Paths
import Stackwright.Proofs.Structure.Turns

/-! # Sessions that fit a procedure

What an accepted end makes of a session is read off earlier sessions: their instructions are where they
were recorded, and their jumps go where the labels are marked in the end. So what a call records is
described once, by the sessions around it, and what becomes of its jumps by the last session.

* **`Procedure.Fits p f`** — the procedure is what the session links to.
* **`Builder.Takes level cs s s'`** — the calls are accepted one after the other. -/

namespace Stackwright

/-! ## Linked jumps -/

/-- A row is accepted alike by what agrees about its members. -/
theorem mapM_of_mem {α β ε : Type} {f g : α → Except ε β} {l : List α} {l' : List β}
    (h : ∀ a ∈ l, ∀ b, f a = .ok b → g a = .ok b) (hl : l.mapM f = .ok l') : l.mapM g = .ok l' := by
  have hrow := mapM_eq_ok.1 hl
  clear hl
  rw [mapM_eq_ok]
  induction hrow with
  | nil => exact .nil
  | cons hab _ ih =>
    exact .cons (h _ List.mem_cons_self _ hab) (ih fun a ha => h a (List.mem_cons_of_mem _ ha))

/-- A jump is accepted alike by what agrees about its own targets. -/
theorem Jump.mapTargets_of_mem {α β : Type} {f g : α → Except BuildError β} {j : Jump α} {j' : Jump β}
    (h : ∀ t ∈ j.targets, ∀ p, f t = .ok p → g t = .ok p) (hj : j.mapTargets f = .ok j') :
    j.mapTargets g = .ok j' := by
  cases j with
  | switch ts =>
    cases hts : ts.mapM f with
    | error e =>
      rw [mapTargets, hts] at hj
      cases hj
    | ok ps =>
      have hsame : ts.mapM g = .ok ps := mapM_of_mem h hts
      rw [mapTargets, hts] at hj
      rw [mapTargets, hsame]
      exact hj
  | always t | ifTrue t | ifFalse t | compare c t =>
    cases ht : f t with
    | error e =>
      rw [mapTargets, ht] at hj
      cases hj
    | ok p =>
      rw [mapTargets, ht] at hj
      rw [mapTargets, h t List.mem_cons_self p ht]
      exact hj

/-- Where the only target of a jump is. -/
theorem Jump.mapTargets_goal {labels : Marks} {j : Jump Label} {j' : Jump Nat} {l : Label}
    (h : j.mapTargets labels.position = .ok j') (hl : j.targets = [l]) :
    ∃ q, labels.MarkedAt l q ∧ j'.targets = [q] := by
  have hrow := Jump.targets_mapTargets h
  rw [hl, List.forall₂_cons_left_iff] at hrow
  obtain ⟨q, rest, hq, hrest, hj⟩ := hrow
  cases hrest
  exact ⟨q, Marks.position_eq_ok.1 hq, hj⟩

/-! ## Sessions that go on -/

namespace Session

variable (s : Session)

theorem extends_jumped (j : Jump Label) : s.Extends (s.jumped j) where
  code _ _ hi := getElem?_push_of_some hi
  size := by simp
  marks _ _ hp := Marks.markedAt_target.2 hp
  later _ _ hp := .inl (Marks.markedAt_target.1 hp)

variable {s}

theorem extends_markedHere {l : Label} (hknown : s.labels.Known l) (hfree : ¬ s.labels.Marked l) :
    s.Extends (s.markedHere l) where
  code _ _ hi := hi
  size := Nat.le_refl _
  marks m p hp := by
    refine (Marks.markedAt_mark hknown).2 (.inr ⟨?_, hp⟩)
    rintro rfl
    exact hfree ⟨p, hp⟩
  later m p hp := by
    rcases (Marks.markedAt_mark hknown).1 hp with ⟨-, rfl⟩ | ⟨-, hp⟩
    · exact .inr (Nat.le_refl _)
    · exact .inl hp

/-- The constructs do not matter. -/
theorem extends_withConstructs (s : Session) (cs : List Construct) : s.Extends (s.withConstructs cs) :=
  ⟨fun _ _ h => h, Nat.le_refl _, fun _ _ h => h, fun _ _ h => .inl h⟩

end Session

/-- A jump that was recorded goes to known labels. -/
theorem Emit.jumped_of_jump {t : Tracer} {s s' : Session} {j : Jump Label}
    (h : ((jump j).run t).run s = .ok () s') :
    (∀ l ∈ j.targets, s.labels.Known l) ∧ s' = s.jumped j := by
  cases hc : s.labels.checkKnown j.targets with
  | ok _ =>
    rw [run_jump _ _ hc] at h
    cases h
    exact ⟨Marks.checkKnown_eq_ok.1 hc, rfl⟩
  | error r =>
    rw [run_jump_unknown _ _ hc] at h
    cases h

namespace Procedure

/-- A procedure **fits** a session: it is what the session links to. -/
structure Fits (p : Procedure) (f : Session) : Prop where
  /-- The session is sound. -/
  sound : f.Sound
  /-- Each instruction is linked where it was recorded. -/
  code : ∀ (n : Nat) (i : Instruction Label), f.code[n]? = some i →
    ∃ i', p.code[n]? = some i' ∧ i.link f.labels = .ok i'
  /-- The procedure has the locals of the session. -/
  locals : p.locals.length = f.locals.size

namespace Fits

variable {p : Procedure} {f s s' : Session} {n : Nat}

/-- What an earlier session spells is code of the procedure. -/
theorem has (h : p.Fits f) (hs : s.Extends f) {is : List (Instruction Nat)} (hspells : s.Spells n is) :
    p.Has n is := by
  intro j i' hj
  obtain ⟨i, hi, hlink⟩ := (hspells.extends hs) j i' hj
  obtain ⟨i'', hi'', hlink'⟩ := h.code _ i hi
  cases hlink.symm.trans hlink'
  exact hi''

/-- A jump of an earlier session goes where its labels are marked in the end. -/
theorem jump (h : p.Fits f) (hs : s.Extends f) {j : Jump Label}
    (hj : s.code[n]? = some (.jump j)) :
    ∃ j', p.code[n]? = some (.jump j') ∧ j.mapTargets f.labels.position = .ok j' := by
  obtain ⟨i', hi', hlink⟩ := h.code n _ (hs.code n _ hj)
  obtain ⟨j', hj', rfl⟩ := map_eq_ok.1 hlink
  exact ⟨j', hi', hj'⟩

/-- A jump to one label goes where it is marked. -/
theorem goes (h : p.Fits f) {j : Jump Label} {l : Label} {jump : Nat → Jump Nat}
    (hj : j.mapTargets f.labels.position = jump <$> f.labels.position l) (hs : (s.jumped j).Extends f) :
    ∃ q, f.labels.MarkedAt l q ∧ p.code[s.code.size]? = some (.jump (jump q)) := by
  obtain ⟨j', hj', hgoal⟩ := h.jump (n := s.code.size) hs (j := j) (by simp)
  rw [hj] at hgoal
  obtain ⟨q, hq, rfl⟩ := map_eq_ok.1 hgoal
  exact ⟨q, Marks.position_eq_ok.1 hq, hj'⟩

/-- A jump without a condition goes where its label is marked. -/
theorem always (h : p.Fits f) {l : Label} (hs : (s.jumped (.always l)).Extends f) :
    ∃ q, f.labels.MarkedAt l q ∧ p.code[s.code.size]? = some (.jump (.always q)) :=
  h.goes rfl hs

/-- So does a jump on a comparison. -/
theorem compare (h : p.Fits f) {c : Comparison} {l : Label} (hs : (s.jumped (.compare c l)).Extends f) :
    ∃ q, f.labels.MarkedAt l q ∧ p.code[s.code.size]? = some (.jump (.compare c q)) :=
  h.goes rfl hs

end Fits

end Procedure

/-! ## Lines -/

/-- A session went on with nothing but **lines**: what reports them is slid through. -/
structure Session.Tells (s s' : Session) : Prop where
  /-- The session went on. -/
  further : s.Extends s'
  /-- The same constructs are open. -/
  constructs : s'.constructs = s.constructs
  /-- There are the same locals. -/
  locals : s'.locals = s.locals
  /-- No label is given back. -/
  labels : s.labels.entries.size ≤ s'.labels.entries.size
  /-- What was recorded only reports. -/
  slides : ∀ {p : Procedure} {f : Session}, p.Fits f → s'.Extends f → p.Slides s.code.size s'.code.size

namespace Session

variable {s s' s'' : Session}

theorem Tells.refl (s : Session) : s.Tells s := ⟨.refl s, rfl, rfl, Nat.le_refl _, fun _ _ => .refl _ _⟩

theorem Tells.trans (h : s.Tells s') (h' : s'.Tells s'') : s.Tells s'' where
  further := h.further.trans h'.further
  constructs := h'.constructs.trans h.constructs
  locals := h'.locals.trans h.locals
  labels := Nat.le_trans h.labels h'.labels
  slides hp hf := (h.slides hp (h'.further.trans hf)).trans (h'.slides hp hf) h.further.size h'.further.size

/-- A line. -/
theorem tells_written (s : Session) (t : Tracer) (text : String) : s.Tells (s.written t text) where
  further := (s.grows_written t text).extends
  constructs := by simp
  locals := by simp
  labels := by simp
  slides {p f} hp hf := by
    have hwent := s.wentOn_written t text
    have hhas := hp.has hf hwent.spells
    intro m
    obtain ⟨m', hreport, halike⟩ :
        ∃ m', (Exec.all (t.report s text)).run m = .ok () m' ∧ m.Alike m' := by
      unfold Tracer.report
      split
      · exact Exec.run_report _ _ m
      · exact ⟨m, rfl, .refl m⟩
    refine ⟨m', ?_, halike⟩
    rw [hwent.size, Op.length_straight]
    exact Procedure.within_all (Procedure.has_straight.1 hhas) (Nat.le_refl _) (Nat.le_refl _) hreport

/-- What was made known is handed over. -/
theorem tells_delivered (s : Session) : s.Tells { s with notices := #[] } :=
  ⟨Change.deliver.grows.extends, rfl, rfl, Nat.le_refl _, fun _ _ => .refl _ _⟩

/-- A label and its line. -/
theorem tells_markedHere {l : Label} (hknown : s.labels.Known l) (hfree : ¬ s.labels.Marked l) :
    s.Tells (s.markedHere l) where
  further := s.extends_markedHere hknown hfree
  constructs := rfl
  locals := rfl
  labels := by simp
  slides _ _ := .refl _ _

end Session

namespace Emit

variable {t : Tracer} {s s' : Session} {l : Label}

theorem tells_newLabel (h : (newLabel.run t).run s = .ok l s') : s.Tells s' := by
  cases h
  exact ⟨Session.Change.define.grows.extends, rfl, rfl, by simp, fun _ _ => .refl _ _⟩

theorem tells_note {text : String} (h : ((note text).run t).run s = .ok () s') : s.Tells s' := by
  rw [run_note] at h
  cases h
  exact s.tells_written t _

/-- From where a label is marked there is at most a report. -/
theorem tells_markHere (h : ((markHere l).run t).run s = .ok () s') :
    s.Tells s' ∧ s'.labels.MarkedAt l s.code.size := by
  obtain ⟨⟨hknown, hfree⟩, rfl⟩ := marks_of_markHere h
  refine ⟨(Session.tells_markedHere hknown hfree).trans (Session.tells_written _ t _), ?_⟩
  rw [Session.labels_written]
  exact (Marks.markedAt_mark hknown).2 (.inl ⟨rfl, rfl⟩)

/-- The label behind a loop is marked, or nothing is. -/
theorem tells_markExit {loop : LoopState} (h : ((markExit loop).run t).run s = .ok () s') :
    s.Tells s' := by
  rw [markExit] at h
  cases hexit : loop.exit with
  | none =>
    rw [hexit] at h
    cases h
    exact .refl s
  | some x =>
    rw [hexit] at h
    exact (tells_markHere h).1

/-- A jump stands behind its line. -/
theorem tells_jump {text : String} {j : Jump Label}
    (h : ((do note text; jump j : Emit Unit).run t).run s = .ok () s') :
    ∃ s₁, s.Tells s₁ ∧ (∀ l ∈ j.targets, s₁.labels.Known l) ∧ s' = s₁.jumped j := by
  obtain ⟨u, s₁, hnote, hrun⟩ := run_bind_eq_ok.1 h
  exact ⟨s₁, tells_note hnote, jumped_of_jump hrun⟩

end Emit

namespace Builder

variable {b : Builder} {s : Session} {p : Procedure}

/-- What a builder finishes fits its session. -/
theorem fits_of_finish (h : b.state = .building s) (hs : s.Sound) (hp : b.finish.result = .ok p) :
    p.Fits s where
  sound := hs
  locals := locals_of_finish h hs hp
  code n i hi := by
    obtain ⟨i', hi', hlink⟩ := (linked_of_finish h hs hp).getElem?_of (Session.getElem?_ended hi)
    refine ⟨i', hi', ?_⟩
    cases i with
    | op o => exact hlink
    | ret => exact hlink
    | jump j =>
      -- no recorded jump goes to the end label, the only one that the end marks
      have hmarks : ∀ l ∈ j.targets, ∀ q,
          (s.ended (.ofLevel b.level)).labels.position l = .ok q → s.labels.position l = .ok q := by
        intro l hl q hq
        have hne : l ≠ s.finish :=
          (hs.ne_finish (hs.inside l ⟨_, Array.mem_of_getElem? hi, hl⟩)).symm
        rw [Marks.position_eq_ok, Session.labels_ended, Marks.markedAt_mark hs.finish_known] at hq
        exact Marks.position_eq_ok.2 (hq.resolve_left fun h => hne h.1).2
      rw [Instruction.link] at hlink ⊢
      cases hjump : j.mapTargets (s.ended (.ofLevel b.level)).labels.position with
      | error e =>
        rw [hjump] at hlink
        cases hlink
      | ok j' =>
        rw [hjump] at hlink
        rw [Jump.mapTargets_of_mem hmarks hjump]
        exact hlink

/-! ## Calls that are accepted -/

/-- Calls are **accepted** one after the other, and lead from one session to another. -/
inductive Takes (level : TraceDetail) : List Call → Session → Session → Prop
  /-- There are none. -/
  | nil (s : Session) : Takes level [] s s
  /-- One call, and the others. -/
  | cons {o : Operation} {a : Answer} {s s₁ s' : Session} {cs : List Call}
      (h : (o.perform.run (.ofLevel level)).run s = .ok a s₁)
      (hrest : Takes level cs { s₁ with notices := #[] } s') : Takes level (.perform o :: cs) s s'

variable {level : TraceDetail} {cs cs' : List Call} {s' s'' : Session}

theorem Takes.trans (h : Takes level cs s s') (h' : Takes level cs' s' s'') :
    Takes level (cs ++ cs') s s'' := by
  induction h with
  | nil => exact h'
  | cons h _ ih => exact .cons h (ih h')

/-- Accepted calls can be taken apart anywhere. -/
theorem Takes.split (h : Takes level (cs ++ cs') s s'') :
    ∃ s', Takes level cs s s' ∧ Takes level cs' s' s'' := by
  induction cs generalizing s with
  | nil => exact ⟨s, .nil s, h⟩
  | cons c cs ih =>
    cases h with
    | cons h hrest =>
      obtain ⟨s', hcs, hcs'⟩ := ih hrest
      exact ⟨s', .cons h hcs, hcs'⟩

/-- The first call can be taken off. -/
theorem Takes.uncons {c : Call} (h : Takes level (c :: cs) s s'') :
    ∃ s', Takes level [c] s s' ∧ Takes level cs s' s'' := by
  have h : Takes level ([c] ++ cs) s s'' := h
  exact h.split

/-- One accepted call. -/
theorem Takes.one {o : Operation} (h : Takes level [.perform o] s s') :
    ∃ a s₁, (o.perform.run (.ofLevel level)).run s = .ok a s₁ ∧ s' = { s₁ with notices := #[] } := by
  cases h with
  | cons h hrest =>
    cases hrest
    exact ⟨_, _, h, rfl⟩

/-- An accepted call that has nothing to answer. -/
theorem Takes.done {o : Operation} {e : Emit Unit} (h : Takes level [.perform o] s s')
    (ho : o.perform = Operation.perform.done e) :
    ∃ s₁, (e.run (.ofLevel level)).run s = .ok () s₁ ∧ s' = { s₁ with notices := #[] } := by
  obtain ⟨a, s₁, hrun, rfl⟩ := h.one
  rw [ho, Operation.perform.done, Emit.run_bind_eq_ok] at hrun
  obtain ⟨u, s₂, hrun, hdone⟩ := hrun
  cases hdone
  exact ⟨_, hrun, rfl⟩

/-- A builder that takes calls behind a row has accepted them. -/
theorem takes_of_after (h : b.state = .building s) (h' : (b.after cs).state = .building s') :
    Takes b.level cs s s' := by
  induction cs generalizing b s with
  | nil =>
    rw [after, h] at h'
    cases h'
    exact .nil _
  | cons c cs ih =>
    cases c with
    | finish =>
      obtain ⟨hgoing, -⟩ | ⟨-, hfinish⟩ | ⟨-, -, hfinish⟩ := take_building h .finish
      · exact absurd rfl hgoing.2
      · rw [after, after_aborted hfinish] at h'
        cases h'
      · rw [after, after_finalized hfinish] at h'
        cases h'
    | perform o =>
      cases hrun : (o.perform.run (.ofLevel b.level)).run s with
      | error e s₁ =>
        rw [after, after_aborted (b := (b.take (.perform o)).1) (perform_error h hrun).2] at h'
        cases h'
      | ok a s₁ =>
        have htake : (b.take (.perform o)).1 = taking b.sink b.level { s₁ with notices := #[] } := by
          rw [take, perform_ok h hrun]
        rw [after, htake] at h'
        exact .cons hrun (ih (b := taking b.sink b.level _) rfl h')

/-- Accepted calls leave the builder taking calls. -/
theorem Takes.after (ht : Takes b.level cs s s') (h : b.state = .building s) :
    (b.after cs).state = .building s' := by
  generalize hlevel : b.level = level at ht
  induction ht generalizing b with
  | nil => exact h
  | cons hrun _ ih =>
    subst hlevel
    refine ih (b := (b.take _).1) ?_ ?_
    · rw [take, perform_ok h hrun]
      rfl
    · rw [take, perform_ok h hrun]
      rfl

/-- The session **grows** with every accepted call. -/
theorem Takes.grows (h : Takes level cs s s') (hs : s.Inner)
    (hcs : ∀ c ∈ cs, Emit.Inside c.handed) : s.Grows s' :=
  grows_after (b := taking .log level s) rfl hs hcs (h.after rfl)

/-- What a session can rely on it keeps to with every accepted call. -/
theorem Takes.fit (h : Takes level cs s s') (hs : s.Fit) : s'.Fit := by
  induction h with
  | nil => exact hs
  | @cons o a _ _ _ _ hrun _ ih =>
    have hturned := o.turns_perform level _ _ a hs hrun
    exact ih (Session.spares_delivered hturned.fit).fit

/-- **What a client builds**: each row of calls that it made was accepted, and the procedure fits the last
session. -/
theorem takes_of_finish {number : Nat} {name : String} {signature : Signature} {sink : Sink}
    (hissued : ∀ call ∈ cs, ∀ l ∈ call.handed, l.Issued)
    (hp : ((begin number name signature sink level).builder.after cs).finish.result = .ok p) :
    ∃ s f, (begin number name signature sink level).builder.state = .building s ∧ s.Sound ∧
      Takes level cs s f ∧ p.Fits f := by
  obtain ⟨s, hs, hsound⟩ := begin_building number name signature sink level
  obtain ⟨f, hf⟩ := building_of_finish hp
  have hlevel : (begin number name signature sink level).builder.level = level := level_submit
  have htakes := takes_of_after hs hf
  rw [hlevel] at htakes
  have hgrows := htakes.grows hsound.inner fun c hc l hl => (hissued c hc l hl).inside
  exact ⟨s, f, hs, hsound, htakes, fits_of_finish hf (hgrows.sound hsound) hp⟩

/-- The state behind accepted calls. -/
theorem Takes.state {number : Nat} {name : String} {signature : Signature} {sink : Sink}
    (h : Takes level cs s s') (hs : (begin number name signature sink level).builder.state = .building s) :
    ((begin number name signature sink level).builder.after cs).state = .building s' := by
  have hlevel : (begin number name signature sink level).builder.level = level := level_submit
  exact (hlevel ▸ h).after hs

end Builder

end Stackwright
