import Stackwright.Proofs.Builder.Finish
import Stackwright.Proofs.Tracing.Interwoven
import Stackwright.Proofs.Tracing.Transcripts

/-! # Ending in tandem

The end of a procedure at two levels: both ends are accepted, or both are refused for the same reason.
Without a trace and with a transcript the procedures are the same; a full trace adds interludes to them, but no
label that is jumped to and not marked. -/

namespace Stackwright

namespace Tandem

variable {T : Tandem} {g : Pairing} {s s' : Session}

/-- Marking the end and returning keeps sessions together. -/
theorem Structured.ended (hT : T.Structured) (h : T.sessions g s s')
    (hf : s.finish.Paired g s'.finish) (hs : s.Sound) :
    T.sessions g (s.ended T.left) (s'.ended T.right) := by
  have hmarked := hT.markedHere h hf hs.finish_known hs.ahead
  have htext := hT.labelled hf "" ":"
  rw [String.empty_append, String.empty_append] at htext
  have hwritten := hT.written (hT.written (hT.written hmarked htext) (hT.same _ "\x7d End method"))
    (hT.same _ ("    " ++ "Ret"))
  exact hT.returned hwritten

/-- Without a trace and with a transcript, the **same procedure** is built, or the same refusal is given. -/
theorem finish_logged (h : logged.sessions g s s') (hs : s.Sound) (hs' : s'.Sound) :
    logged.Agree g (fun _ p p' => p' = p) ((Emit.finish.run logged.left).run s)
      ((Emit.finish.run logged.right).run s') := by
  have hended : s.constructs = [] → logged.sessions g (s.ended logged.left) (s'.ended logged.right) := by
    intro _
    obtain ⟨rfl, n, ns, rfl⟩ := h
    exact structured_logged.ended ⟨rfl, n, ns, rfl⟩ s.finish.paired_same hs
  obtain ⟨rfl, n, ns, rfl⟩ := h
  cases hopen : s.constructs with
  | cons c cs =>
    have hopen' : (s.retold n ns).constructs = c :: cs := hopen
    have hsame : (s.retold n ns).constructs.length = s.constructs.length := rfl
    rw [Emit.run_finish_open hopen, Emit.run_finish_open hopen', hsame]
    exact .error le_rfl ⟨rfl, n, ns, rfl⟩ (.other rfl)
  | nil =>
    have hopen' : (s.retold n ns).constructs = [] := hopen
    obtain ⟨-, m, ms, hm⟩ := hended hopen
    -- retelling a session changes no label, so both are complete or both miss the same one
    by_cases hc : s.Complete
    · have hc' : (s.retold n ns).Complete := hc
      obtain ⟨code, hrun, hlinked, -⟩ := Emit.run_finish_complete (t := logged.left) hs hopen hc
      obtain ⟨code', hrun', hlinked', -⟩ :=
        Emit.run_finish_complete (t := logged.right) hs' hopen' hc'
      have hcode : code' = code := by
        rw [hm] at hlinked'
        have heq := Eq.symm hlinked |>.trans hlinked'
        cases heq
        rfl
      rw [hrun, hrun', hcode]
      obtain ⟨told, hdelivered⟩ : ∃ told, (s.retold n ns).delivered logged.right code.size =
          (s.delivered logged.left code.size).retold m told := by
        rw [Session.delivered, hm]
        exact ⟨_, rfl⟩
      exact .ok le_rfl ⟨rfl, m, told, hdelivered⟩ rfl
    · obtain ⟨l, hl⟩ := Session.exists_firstMissing hs hc
      have hl' : (s.retold n ns).FirstMissing l := ⟨hl.jumps, hl.missing, hl.lowest⟩
      rw [Emit.run_finish_missing hs hopen hl, Emit.run_finish_missing hs' hopen' hl']
      exact .error le_rfl ⟨rfl, m, ms, hm⟩ (.labelNotMarked l.paired_same)

end Tandem

namespace Session.Alike

variable {g : Pairing} {s s' : Session} (h : s.Alike g s') (hs : s.Sound) (hs' : s'.Sound)

include h hs hs'

/-- Labels that belong together are both jumped to or both not. -/
theorem jumpsTo {l l' : Label} (hl : l.Paired g l') : s.JumpsTo l ↔ s'.JumpsTo l' := by
  rw [← hs.noted, ← hs'.noted]
  exact h.targeted l l' hl

/-- A label that the first session is missing belongs to one that the other is. -/
theorem exists_right {l : Label} (hj : s.JumpsTo l) (hm : ¬ s.labels.Marked l) :
    ∃ l', l.Paired g l' ∧ s'.JumpsTo l' ∧ ¬ s'.labels.Marked l' := by
  have hk := ((hs.noted l).2 hj).known
  obtain ⟨k, hr⟩ := h.labels.total l.id hk.2
  have hl : l.Paired g ⟨l.session, k⟩ := ⟨rfl, hr⟩
  exact ⟨_, hl, (h.jumpsTo hs hs' hl).1 hj, mt (h.marked _ _ hl).2 hm⟩

/-- A label that the second session is missing is none of its own, and so belongs to one that the first
is. -/
theorem exists_left {l' : Label} (hj : s'.JumpsTo l') (hm : ¬ s'.labels.Marked l') :
    ∃ l, l.Paired g l' ∧ s.JumpsTo l ∧ ¬ s.labels.Marked l := by
  have hk := ((hs'.noted l').2 hj).known
  have hr : ∃ i, g.labels i l'.id := by
    by_contra hnone
    exact hm (h.spare l' hk fun i hi => hnone ⟨i, hi⟩)
  obtain ⟨i, hi⟩ := hr
  have hl : (⟨l'.session, i⟩ : Label).Paired g l' := ⟨rfl, hi⟩
  exact ⟨_, hl, (h.jumpsTo hs hs' hl).2 hj, mt (h.marked _ _ hl).1 hm⟩

theorem complete (hc : s.Complete) : s'.Complete := by
  intro l' hj
  by_contra hm
  obtain ⟨l, -, hj, hm⟩ := h.exists_left hs hs' hj hm
  exact hm (hc l hj)

/-- The first missing labels belong together. -/
theorem firstMissing {l : Label} (hl : s.FirstMissing l) : ∃ l', l.Paired g l' ∧ s'.FirstMissing l' := by
  obtain ⟨l', hl', hj', hm'⟩ := h.exists_right hs hs' hl.jumps hl.missing
  refine ⟨l', hl', hj', hm', fun m' hj hm => ?_⟩
  obtain ⟨m, hmm', hj, hm⟩ := h.exists_left hs hs' hj hm
  have hle := hl.lowest m hj hm
  have horder := h.labels.order _ _ _ _ hmm'.2 hl'.2
  omega

end Session.Alike

namespace Tandem

variable {sink : Sink} {g : Pairing} {s s' : Session}

/-- With and without shown values, a procedure is built and **the same one with interludes**, or the same refusal is
given. -/
theorem finish_shown (h : (shown sink).sessions g s s') (hs : s.Sound) (hs' : s'.Sound) :
    (shown sink).Agree g (fun _ => Procedure.Woven sink) ((Emit.finish.run (shown sink).left).run s)
      ((Emit.finish.run (shown sink).right).run s') := by
  have hconstructs := h.toAlike.constructs
  have hended : (shown sink).sessions g (s.ended (shown sink).left) (s'.ended (shown sink).right) :=
    structured_shown.ended h h.toAlike.finish hs
  cases hopen : s.constructs with
  | cons c cs =>
    obtain ⟨c', cs', hc, hcs, hopen'⟩ := List.forall₂_cons_left_iff.1 (hopen ▸ hconstructs)
    rw [Emit.run_finish_open hopen, Emit.run_finish_open hopen', hopen, hopen', List.length_cons,
      List.length_cons, hcs.length_eq, hc.kind]
    exact .error le_rfl h (.other rfl)
  | nil =>
    have hopen' : s'.constructs = [] := List.forall₂_nil_left_iff.1 (hopen ▸ hconstructs)
    -- labels of the dumps are all marked, so the two miss the same labels of the client
    by_cases hc : s.Complete
    · obtain ⟨code, hrun, hlinked, -⟩ := Emit.run_finish_complete (t := (shown sink).left) hs hopen hc
      obtain ⟨code', hrun', hlinked', -⟩ := Emit.run_finish_complete (t := (shown sink).right) hs' hopen'
        (h.toAlike.complete hs hs' hc)
      rw [hrun, hrun']
      refine .ok le_rfl ⟨?_, hended.sink, ?_⟩ ⟨g, _, _, hended.linked hlinked hlinked' ?_ ?_⟩
      · exact { hended.toAlike with
          notices := Session.forall₂_push hended.toAlike.notices (.message _ _ _ _) }
      · exact hended.woven.notified _ _
      · simp [Session.ended, Session.marked]
      · simp [Session.ended, Session.marked]
    · obtain ⟨l, hl⟩ := Session.exists_firstMissing hs hc
      obtain ⟨l', hll', hl'⟩ := h.toAlike.firstMissing hs hs' hl
      rw [Emit.run_finish_missing hs hopen hl, Emit.run_finish_missing hs' hopen' hl']
      exact .error le_rfl hended (.labelNotMarked hll')

end Tandem

end Stackwright
