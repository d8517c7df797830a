import Stackwright.Proofs.Tracing.Structured

/-! # With and without a transcript

Writing a transcript while building changes nothing else: the same calls take a session that is not traced
and one that logs to sessions that differ in the transcript alone. -/

namespace Stackwright

namespace Session

/-- The session with **another transcript**. -/
def retold (s : Session) (line : Nat) (notices : Array Notice) : Session :=
  { s with nextLine := line, notices := notices }

/-- A line is written in the transcript and nowhere else, unless everything is traced. -/
theorem written_log (s : Session) (x : String) :
    s.written (.ofLevel .log) x = s.retold (s.nextLine + 1) (s.notices.push (.line s.nextLine x)) := by
  have hreport : (Tracer.ofLevel .log).report s x = [] := rfl
  rw [written, if_neg (by simp [Tracer.ofLevel]), hreport]
  simp [recorded, retold]

end Session

namespace Tandem

/-- A session that is not traced, **besides one that logs**: they have all but the transcript in common. -/
def logged : Tandem where
  left := .ofLevel .off
  right := .ofLevel .log
  texts _ _ _ := True
  sessions g s s' := g = .same ∧ ∃ n ns, s' = s.retold n ns

variable {g : Pairing} {s s' : Session}

theorem logged_written (h : logged.sessions g s s') (x x' : String) :
    logged.sessions g (s.written logged.left x) (s'.written logged.right x') := by
  obtain ⟨rfl, n, ns, rfl⟩ := h
  exact ⟨rfl, _, _, Session.written_log _ x'⟩

theorem logged_declared (h : logged.sessions g s s') (t : Ty) (name : String) :
    ∃ g', g ≤ g' ∧ g'.slots s.locals.size s'.locals.size ∧
      logged.sessions g' (s.declared t name) (s'.declared t name) := by
  obtain ⟨rfl, n, ns, rfl⟩ := h
  exact ⟨_, le_rfl, rfl, rfl, n, ns, rfl⟩

theorem straight_logged : logged.Straight where
  signature := by
    rintro _ s _ ⟨rfl, n, ns, rfl⟩
    rfl
  recorded := by
    rintro _ s _ ⟨rfl, n, ns, rfl⟩ o o' ho
    rw [ho.eq]
    exact ⟨rfl, n, ns, rfl⟩
  returned := by
    rintro _ s _ ⟨rfl, n, ns, rfl⟩
    exact ⟨rfl, n, ns, rfl⟩
  same _ _ := trivial
  later _ _ := trivial
  named _ _ _ _ _ := trivial
  written h _ _ _ := logged_written h _ _
  shown _ _ _ _ _ _ hs := .ok le_rfl hs trivial
  declared := logged_declared
  formatted := by
    refine inStep_formatArray
      (fun _ => inStep_newLocal logged_declared (fun h _ => logged_written h _ _) _ _) ?_ ?_
    · rintro _ s _ ⟨rfl, n, ns, rfl⟩
      show Option.Rel _ s.formatArray s.formatArray
      cases s.formatArray with
      | none => exact .none
      | some l => exact .some l.paired_same
    · rintro _ s _ ⟨rfl, n, ns, rfl⟩ l l' hl
      rw [hl.eq]
      exact ⟨rfl, n, ns, rfl⟩

/-- Sessions that differ in the transcript alone **stay** so. -/
theorem structured_logged : logged.Structured where
  toStraight := straight_logged
  session := by
    rintro _ s _ ⟨rfl, n, ns, rfl⟩
    rfl
  labels := by
    rintro _ s _ ⟨rfl, n, ns, rfl⟩ l l' m m' hl hm
    rw [hl.eq, hm.eq]
  loops := by
    rintro _ s _ ⟨rfl, n, ns, rfl⟩ h h' k k' hh hk
    rw [hh.eq, hk.eq]
  known := by
    rintro _ s _ ⟨rfl, n, ns, rfl⟩ l l' hl
    rw [hl.eq]
    rfl
  marked := by
    rintro _ s _ ⟨rfl, n, ns, rfl⟩ l l' hl
    rw [hl.eq]
    rfl
  labelled _ _ _ := trivial
  defined := by
    rintro _ s _ ⟨rfl, n, ns, rfl⟩
    exact ⟨_, le_rfl, rfl, rfl, n, ns, rfl⟩
  jumped := by
    rintro _ s _ ⟨rfl, n, ns, rfl⟩ j j' hj _ _
    rw [hj.eq]
    exact ⟨rfl, n, ns, rfl⟩
  markedHere := by
    rintro _ s _ ⟨rfl, n, ns, rfl⟩ l l' hl _ _
    rw [hl.eq]
    exact ⟨rfl, n, ns, rfl⟩
  constructs := by
    rintro _ s _ ⟨rfl, n, ns, rfl⟩
    exact List.forall₂_same.2 fun c _ => c.paired_same
  withConstructs := by
    rintro _ s _ ⟨rfl, n, ns, rfl⟩ cs cs' hcs
    rw [eq_of_forall₂ (fun _ _ => Construct.Paired.eq) hcs]
    exact ⟨rfl, n, ns, rfl⟩
  numbered := by
    rintro _ s _ ⟨rfl, n, ns, rfl⟩
    exact ⟨_, le_rfl, rfl, rfl, n, ns, rfl⟩

end Tandem

end Stackwright
