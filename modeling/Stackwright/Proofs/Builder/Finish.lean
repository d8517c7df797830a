import Mathlib.Data.Nat.Find
import Stackwright.Proofs.Code.Linking
import Stackwright.Proofs.Emission.Lines
import Stackwright.Proofs.Session.Sound

/-! # Finishing a session

What finishing does to a sound session: it is refused for an open construct, or else for the first label
that is jumped to and not marked, and for nothing else; otherwise the procedure is the linked code, with
a return at its end and every target inside.

* **`Session.Complete s`** — every label that a recorded jump goes to is marked.
* **`Session.FirstMissing s l`** — the first label for which it is not.
* **`Procedure.Closed p`** — no jump leaves the code, which ends with a return. -/

namespace Stackwright

/-- A procedure is **closed**: no jump leaves its code, and its last instruction is the return. -/
structure Procedure.Closed (p : Procedure) : Prop where
  /-- Every target is the position of an instruction. -/
  targets : ∀ i ∈ p.code, ∀ t ∈ i.targets, t < p.code.size
  /-- The last instruction is the return. -/
  last : p.code.back? = some .ret

namespace Session

variable {s : Session} {t : Tracer} {l : Label}

/-- Every label that a recorded jump goes to is marked. -/
def Complete (s : Session) : Prop := ∀ l, s.JumpsTo l → s.labels.Marked l

/-- The label with the **lowest** number among those that are jumped to and not marked. -/
structure FirstMissing (s : Session) (l : Label) : Prop where
  /-- A recorded jump goes to it. -/
  jumps : s.JumpsTo l
  /-- It is not marked. -/
  missing : ¬ s.labels.Marked l
  /-- No other such label has a lower number. -/
  lowest : ∀ m, s.JumpsTo m → ¬ s.labels.Marked m → l.id ≤ m.id

/-- The session once its end label is marked. -/
def marked (s : Session) : Session :=
  { s with labels := s.labels.mark s.finish s.code.size }

/-- The session **behind its end**: the end label is marked, and a return is recorded. -/
def ended (s : Session) (t : Tracer) : Session :=
  let behind := ((s.marked.written t (s.finish.text ++ ":")).written t "\x7d End method").written t
    ("    " ++ "Ret")
  { behind with code := behind.code.push .ret }

/-- The session once its procedure, of some number of instructions, is **handed over**. -/
def delivered (s : Session) (t : Tracer) (size : Nat) : Session :=
  { s.ended t with
    notices := (s.ended t).notices.push (.message .debug
      ("end procedure `" ++ s.name ++ "`: " ++ toString size ++ " steps, " ++
        toString (s.locals.toList.map (·.1)).length ++ " locals")) }

theorem labels_ended : (s.ended t).labels = s.labels.mark s.finish s.code.size := by
  simp [ended, marked]

/-- The end adds operations and a return to the code. -/
theorem code_ended :
    ∃ ops : List Op, (s.ended t).code = (s.code ++ (ops.map Instruction.op).toArray).push .ret := by
  let s₁ := s.marked.written t (s.finish.text ++ ":")
  let s₂ := s₁.written t "\x7d End method"
  refine ⟨t.report s.marked (s.finish.text ++ ":") ++ t.report s₁ "\x7d End method" ++
    t.report s₂ ("    " ++ "Ret"), ?_⟩
  have hcode : (s.ended t).code = (s₂.written t ("    " ++ "Ret")).code.push .ret := rfl
  rw [hcode, code_written, code_written, code_written, List.map_append, List.map_append,
    ← List.append_toArray, ← List.append_toArray, ← Array.append_assoc, ← Array.append_assoc]
  rfl

/-- The end leaves the recorded instructions where they are. -/
theorem getElem?_ended {n : Nat} {i : Instruction Label} (h : s.code[n]? = some i) :
    (s.ended t).code[n]? = some i := by
  obtain ⟨ops, hops⟩ := code_ended (s := s) (t := t)
  have hn : n < s.code.size := (Array.getElem?_eq_some_iff.1 h).1
  rw [hops]
  refine getElem?_push_of_some ?_
  rw [Array.getElem?_append_left hn, h]

/-- The end jumps nowhere. -/
theorem jumpsTo_ended : (s.ended t).JumpsTo l ↔ s.JumpsTo l := by
  obtain ⟨ops, hops⟩ := code_ended (s := s) (t := t)
  simp only [JumpsTo, hops, Array.mem_push, Array.mem_append, List.mem_toArray, List.mem_map]
  constructor
  · rintro ⟨i, (hi | ⟨o, -, rfl⟩) | rfl, hl⟩
    · exact ⟨i, hi, hl⟩
    · exact absurd hl List.not_mem_nil
    · exact absurd hl List.not_mem_nil
  · rintro ⟨i, hi, hl⟩
    exact ⟨i, .inl (.inl hi), hl⟩

/-- Marking the end label marks no label that is jumped to. -/
theorem Sound.marked_ended (hs : s.Sound) (hl : s.JumpsTo l) :
    (s.ended t).labels.Marked l ↔ s.labels.Marked l := by
  have hne : l ≠ s.finish := (hs.ne_finish (hs.inside l hl)).symm
  rw [labels_ended]
  simp only [Marks.Marked, Marks.markedAt_mark hs.finish_known]
  simp [hne]

/-- What is dangling at the end is what is jumped to and not marked. -/
theorem Sound.dangling_ended (hs : s.Sound) {n : Nat} :
    (s.ended t).labels.Dangling n ↔
      s.JumpsTo ⟨s.labels.session, n⟩ ∧ ¬ s.labels.Marked ⟨s.labels.session, n⟩ := by
  have hsession : (s.ended t).labels.session = s.labels.session := by rw [labels_ended]; rfl
  have htargeted : (s.ended t).labels.Targeted ⟨s.labels.session, n⟩ ↔
      s.JumpsTo ⟨s.labels.session, n⟩ := by
    rw [labels_ended, Marks.targeted_mark]
    exact hs.noted _
  rw [Marks.dangling_iff_label, hsession, htargeted]
  exact and_congr_right fun hj => not_congr (hs.marked_ended hj)

/-- A label that is jumped to belongs to the session. -/
theorem Sound.session_of_jumpsTo (hs : s.Sound) (hl : s.JumpsTo l) : l.session = s.labels.session :=
  ((hs.noted l).2 hl).known.1

/-- The final check passes a complete session. -/
theorem Sound.check_ended (hs : s.Sound) (hc : s.Complete) : (s.ended t).labels.check = .ok () := by
  rw [Marks.check_eq_ok]
  intro n hn
  obtain ⟨hj, hm⟩ := hs.dangling_ended.1 hn
  exact hm (hc _ hj)

/-- The final check reports the first missing label. -/
theorem Sound.check_ended_missing (hs : s.Sound) (hl : s.FirstMissing l) :
    (s.ended t).labels.check = .error (.labelNotMarked l) := by
  have hsession : (s.ended t).labels.session = s.labels.session := by rw [labels_ended]; rfl
  have heq : (⟨s.labels.session, l.id⟩ : Label) = l := by rw [← hs.session_of_jumpsTo hl.jumps]
  have hdangling : (s.ended t).labels.Dangling l.id := by
    rw [hs.dangling_ended, heq]
    exact ⟨hl.jumps, hl.missing⟩
  have hfirst : ∀ m < l.id, ¬ (s.ended t).labels.Dangling m := by
    intro m hm hd
    obtain ⟨hj, hm'⟩ := hs.dangling_ended.1 hd
    exact Nat.not_lt.2 (hl.lowest _ hj hm') hm
  rw [Marks.check_of_dangling hdangling hfirst, hsession, heq]

/-- Where a session is not complete, some label is the first one missing. -/
theorem exists_firstMissing (hs : s.Sound) (h : ¬ s.Complete) : ∃ l, s.FirstMissing l := by
  classical
  have hex : ∃ n, s.JumpsTo ⟨s.labels.session, n⟩ ∧ ¬ s.labels.Marked ⟨s.labels.session, n⟩ := by
    obtain ⟨l, hl⟩ := not_forall.1 h
    obtain ⟨hj, hm⟩ := Classical.not_imp.1 hl
    have hsession := hs.session_of_jumpsTo hj
    exact ⟨l.id, hsession ▸ hj, hsession ▸ hm⟩
  obtain ⟨hj, hm⟩ := Nat.find_spec hex
  refine ⟨_, hj, hm, fun m hjm hmm => Nat.find_min' hex ?_⟩
  have hsession := hs.session_of_jumpsTo hjm
  exact ⟨hsession ▸ hjm, hsession ▸ hmm⟩

/-- Complete code is linked, and what it links to is closed. -/
theorem Sound.linked_ended (hs : s.Sound) (hc : s.Complete) :
    ∃ code, Linked (s.ended t).labels (s.ended t).code code ∧
      ∀ name signature locals, (Procedure.mk name signature locals code).Closed := by
  -- the end marks the only label that a complete session may still miss
  have hmarked : ∀ i ∈ (s.ended t).code, ∀ l ∈ i.targets, (s.ended t).labels.Marked l := by
    intro i hi l hl
    have hj := jumpsTo_ended.1 ⟨i, hi, hl⟩
    exact (hs.marked_ended hj).2 (hc l hj)
  obtain ⟨code, hcode⟩ := exists_linked hmarked
  obtain ⟨ops, hops⟩ := code_ended (s := s) (t := t)
  have hsize : (s.ended t).code.size = s.code.size + ops.length + 1 := by
    simp [hops, Nat.add_assoc]
  refine ⟨code, hcode, fun name signature locals => ⟨?_, ?_⟩⟩
  · intro i' hi' p hp
    obtain ⟨n, hn, rfl⟩ := Array.getElem_of_mem hi'
    obtain ⟨i, hi, hlink⟩ := hcode.getElem? (Array.getElem?_eq_getElem hn)
    obtain ⟨l, hl, hlp⟩ := Instruction.markedAt_of_link hlink hp
    have hj := jumpsTo_ended.1 ⟨i, Array.mem_of_getElem? hi, hl⟩
    rw [labels_ended, Marks.markedAt_mark hs.finish_known] at hlp
    -- a label was marked at the end, or before it and then inside of the code
    have hwithin : p ≤ s.code.size := by
      rcases hlp with ⟨-, rfl⟩ | ⟨-, hlp⟩
      · exact Nat.le_refl _
      · exact hs.within l p hlp
    show p < code.size
    rw [hcode.size, hsize]
    omega
  · show code.back? = some .ret
    have hlast : (s.ended t).code[code.size - 1]? = some .ret := by
      rw [hcode.size, hops]
      simp
    obtain ⟨i', hi', hlink⟩ := hcode.getElem?_of hlast
    cases hlink
    rw [Array.back?_eq_getElem?]
    exact hi'

end Session

/-! ## Running the end -/

namespace Emit

variable {s : Session} {t : Tracer}

/-- An open construct is refused. -/
theorem run_finish_open {b : Construct} {bs : List Construct} (h : s.constructs = b :: bs) :
    (finish.run t).run s = .error (.unclosedBlock s.constructs.length b.kind) s := by
  simp only [finish, run_bind, run_get, h]
  rfl

/-- What is left to do once the return is recorded. -/
def assemble (s : Session) : Emit Procedure := do
  ofExcept (← get).labels.check
  let code ← link
  let locals := (← get).locals.toList.map (·.1)
  notify (.message .debug
    ("end procedure `" ++ s.name ++ "`: " ++ toString code.size ++ " steps, " ++
      toString locals.length ++ " locals"))
  pure ⟨s.name, s.signature, locals, code⟩

/-- With nothing open, the end is recorded, and then the labels are checked. -/
theorem run_finish_closed (hs : s.Sound) (h : s.constructs = []) :
    (finish.run t).run s = ((assemble s).run t).run (s.ended t) := by
  have hfree : s.labels.checkUnmarked s.finish = .ok () :=
    Marks.checkUnmarked_eq_ok.2 ⟨hs.finish_known, hs.ahead⟩
  have hclose : (finish.run t).run s =
      ((do markHere s.finish; line "\x7d End method"; ret; assemble s : Emit Procedure).run t).run s := by
    rw [finish, run_bind, run_get]
    dsimp only
    rw [h]
    rfl
  rw [hclose]
  simp only [run_bind, run_markHere t s hfree, run_line, ret, run_note, run_record]
  rfl

/-- A complete session is accepted, and its procedure is the linked code. -/
theorem run_finish_complete (hs : s.Sound) (h : s.constructs = []) (hc : s.Complete) :
    ∃ code, (finish.run t).run s =
        .ok ⟨s.name, s.signature, s.locals.toList.map (·.1), code⟩ (s.delivered t code.size) ∧
      Linked (s.ended t).labels (s.ended t).code code ∧
      ∀ name signature locals, (Procedure.mk name signature locals code).Closed := by
  obtain ⟨code, hlinked, hclosed⟩ := hs.linked_ended (t := t) hc
  have hcheck : ((ofExcept (s.ended t).labels.check).run t).run (s.ended t) = .ok () (s.ended t) := by
    rw [hs.check_ended hc]
    rfl
  have hlink : (link.run t).run (s.ended t) = .ok code (s.ended t) := by
    rw [link, run_bind, run_get]
    dsimp only
    rw [hlinked]
    rfl
  have hlocals : (s.ended t).locals = s.locals := by simp [Session.ended, Session.marked]
  refine ⟨code, ?_, hlinked, hclosed⟩
  rw [run_finish_closed hs h]
  simp only [assemble, run_bind, run_get, hcheck, hlink, notify, run_modify, run_pure, hlocals,
    Session.delivered]

/-- A session that is not complete is refused for the first label missing. -/
theorem run_finish_missing (hs : s.Sound) (h : s.constructs = []) {l : Label}
    (hl : s.FirstMissing l) :
    (finish.run t).run s = .error (.labelNotMarked l) (s.ended t) := by
  have hcheck : ((ofExcept (s.ended t).labels.check).run t).run (s.ended t) =
      .error (.labelNotMarked l) (s.ended t) := by
    rw [hs.check_ended_missing hl]
    rfl
  rw [run_finish_closed hs h, assemble, run_bind, run_get]
  dsimp only
  rw [run_bind, hcheck]

end Emit

end Stackwright
