import Stackwright.Proofs.Builder.Ending
import Stackwright.Proofs.Builder.Scripts
import Stackwright.Proofs.Emission.Interludes

/-! # Where the code of a call stands

The code that one emission call recorded stands in the finished procedure where the session of the builder
was when the call was made, whatever the calls before it and behind it.

* **`Builder.Stands level o p s s'`** — an accepted operation, the sessions around it, and a procedure that
  has its code.
* **`Builder.stands_of_after`** — every procedure has the code of each operation it was built by. -/

namespace Stackwright

namespace Builder

variable {b : Builder} {s s' : Session} {o : Operation} {cs : List Call} {p : Procedure}

/-- The code of an accepted operation **stands** in a procedure where the sessions before it and behind it
say. -/
structure Stands (level : TraceDetail) (o : Operation) (p : Procedure) (s s' : Session) : Prop where
  /-- The session has begun. -/
  begun : 0 < s.labels.entries.size
  /-- The operation is accepted. -/
  accepted : ∃ a, (o.perform.run (.ofLevel level)).run s = .ok a s'
  /-- The procedure has the locals that were declared. -/
  locals : s'.locals.size ≤ p.locals.length
  /-- The procedure has what was recorded. -/
  has : ∀ {s₀ : Session} {n : Nat} {is : List (Instruction Nat)}, s₀.Grows s' → s₀.Spells n is → p.Has n is

theorem level_after (b : Builder) (cs : List Call) : (b.after cs).level = b.level := by
  induction cs generalizing b with
  | nil => rfl
  | cons c cs ih =>
    rw [after, ih]
    cases c with
    | perform o => exact level_submit
    | finish => exact level_finish

/-- What a session spells is what an accepted end makes of it. -/
theorem has_of_finish (h : b.state = .building s) (hs : s.Sound) (hp : b.finish.result = .ok p)
    {n : Nat} {is : List (Instruction Nat)} (hspells : s.Spells n is) : p.Has n is := by
  intro j i' hj
  obtain ⟨i, hi, hlink⟩ := hspells j i' hj
  obtain ⟨i'', hi'', hlink'⟩ := (linked_of_finish h hs hp).getElem?_of (Session.getElem?_ended hi)
  -- the end marks one more label, which was not marked before, so no older position moves
  have hmarks : ∀ l q, s.labels.position l = .ok q →
      (s.ended (.ofLevel b.level)).labels.position l = .ok q := by
    intro l q hq
    have hmarked := Marks.position_eq_ok.1 hq
    rw [Marks.position_eq_ok, Session.labels_ended, Marks.markedAt_mark hs.finish_known]
    refine .inr ⟨?_, hmarked⟩
    rintro rfl
    exact hs.ahead ⟨q, hmarked⟩
  have hlinked : i.link (s.ended (.ofLevel b.level)).labels = .ok i' := by
    cases i with
    | op o => exact hlink
    | ret => exact hlink
    | jump j =>
      cases hjump : j.mapTargets s.labels.position with
      | error e =>
        rw [Instruction.link, hjump] at hlink
        cases hlink
      | ok j' =>
        rw [Instruction.link, hjump] at hlink
        rw [Instruction.link, Jump.mapTargets_of_imp hmarks hjump]
        exact hlink
  rw [hlinked] at hlink'
  cases hlink'
  exact hi''

/-- A procedure has the locals of the session that it was built by. -/
theorem locals_of_finish (h : b.state = .building s) (hs : s.Sound) (hp : b.finish.result = .ok p) :
    p.locals.length = s.locals.size := by
  cases hopen : s.constructs with
  | cons c rest =>
    rw [(finish_error h (Emit.run_finish_open hopen)).1] at hp
    cases hp
  | nil =>
    by_cases hc : s.Complete
    · obtain ⟨code, hrun, -, -⟩ := Emit.run_finish_complete hs hopen hc
      rw [(finish_ok h hrun).1] at hp
      cases hp
      simp
    · obtain ⟨l, hl⟩ := Session.exists_firstMissing hs hc
      rw [(finish_error h (Emit.run_finish_missing hs hopen hl)).1] at hp
      cases hp

/-- Whatever the calls before and behind an operation, the procedure that they build has its code **where it
was recorded**. -/
theorem stands_of_after {number : Nat} {name : String} {signature : Signature} {sink : Sink}
    {level : TraceDetail} {cs cs' : List Call}
    (hissued : ∀ call ∈ cs ++ .perform o :: cs', ∀ l ∈ call.handed, l.Issued)
    (hp : ((begin number name signature sink level).builder.after
      (cs ++ .perform o :: cs')).finish.result = .ok p) :
    ∃ s s', ((begin number name signature sink level).builder.after cs).state = .building s ∧
      ((begin number name signature sink level).builder.after (cs ++ [.perform o])).state =
        .building { s' with notices := #[] } ∧ Stands level o p s s' := by
  obtain ⟨s₀, hs₀, hsound₀⟩ := begin_building number name signature sink level
  have hinside : ∀ call ∈ cs ++ .perform o :: cs', Emit.Inside call.handed :=
    fun call hcall l hl => (hissued call hcall l hl).inside
  obtain ⟨hcs, hrest⟩ := List.forall_mem_append.1 hinside
  obtain ⟨hop, hcs'⟩ := List.forall_mem_cons.1 hrest
  obtain ⟨s₃, hs₃⟩ := building_of_finish hp
  have hsplit := hs₃
  rw [after_append] at hsplit
  obtain ⟨s, hs⟩ := building_of_after hsplit
  have hsound : s.Sound := (grows_after hs₀ hsound₀.inner hcs hs).sound hsound₀
  -- the operation is accepted, since the builder goes on
  let b := (begin number name signature sink level).builder.after cs
  have hlevel : b.level = level := by
    rw [show b.level = _ from level_after _ cs]
    exact level_submit
  have hafter : (b.after [.perform o]).after cs' = b.after (.perform o :: cs') := rfl
  have hlater : ((b.after [.perform o]).after cs').state = .building s₃ := by
    rw [hafter]
    exact hsplit
  obtain ⟨s₂, hs₂⟩ := building_of_after hlater
  cases hrun : (o.perform.run (.ofLevel b.level)).run s with
  | error e s' =>
    have habort : (b.perform o).builder.state = .aborted := (perform_error hs hrun).2
    rw [show (b.after [.perform o]).state = (b.perform o).builder.state from rfl, habort] at hs₂
    cases hs₂
  | ok a s' =>
    have hstate : (b.after [.perform o]).state = .building { s' with notices := #[] } := by
      show (b.perform o).builder.state = _
      rw [perform_ok hs hrun]
      rfl
    have hgrows' : s.Grows s' :=
      (o.gives_perform hop _ (Tracer.moves_ofLevel b.level) s s' a hsound.inner hrun).1
    have hdeliver : s'.Grows { s' with notices := #[] } := Session.Change.deliver.grows
    have hsound' : ({ s' with notices := #[] } : Session).Sound :=
      (hgrows'.trans hdeliver).sound hsound
    have hlast : ({ s' with notices := #[] } : Session).Grows s₃ :=
      grows_after hstate hsound'.inner hcs' (by rw [hafter]; exact hsplit)
    have hsound₃ := hlast.sound hsound'
    refine ⟨s, s', hs, by rw [after_append]; exact hstate, ?_, ⟨a, hlevel ▸ hrun⟩, ?_, ?_⟩
    · exact Nat.lt_of_le_of_lt (Nat.zero_le _) hsound.finish_known.2
    · rw [locals_of_finish hs₃ hsound₃ hp]
      exact hlast.locals_size
    · intro s₁ n is hgrows hspells
      exact has_of_finish hs₃ hsound₃ hp
        (hspells.extends (hgrows.trans (hdeliver.trans hlast)).extends)

namespace Stands

variable {level : TraceDetail} {e : Emit Unit} {P : List Op → Prop} {last : Op}

/-- An operation that has nothing to answer is accepted when its emission call is. -/
theorem emitted (h : Stands level o p s s') (ho : o.perform = Operation.perform.done e) :
    (e.run (.ofLevel level)).run s = .ok () s' := by
  obtain ⟨a, hrun⟩ := h.accepted
  rw [ho, Operation.perform.done, Emit.run_bind] at hrun
  split at hrun
  · rename_i u s₁ hone
    cases hrun
    exact hone
  · cases hrun

/-- Behind the operations that are recorded, which a run **plays**, stands the last one. -/
theorem leadsThen (h : Stands level o p s s') (ho : o.perform = Operation.perform.done e)
    (he : e.RecordsThen P last) : ∃ os n, P os ∧ s.code.size ≤ n ∧ s'.code.size = n + 1 ∧
      p.code[n]? = some (.op last) ∧ ∀ m, p.Leads s.code.size n (fun e m' => Op.Played s.locals.size os m (.error e m'))
        (fun m' => Op.Played s.locals.size os m (.ok () m')) s.code.size m := by
  obtain ⟨os, is, hos, hwent, hamong⟩ := he level s s' h.begun (h.emitted ho)
  obtain ⟨hfront, hlast⟩ := Procedure.has_append.1 (h.has (.refl s') hwent.spells)
  refine ⟨os, s.code.size + is.length, hos, Nat.le_add_right _ _, ?_, (Procedure.has_cons.1 hlast).1,
    Procedure.leads_among hamong hfront⟩
  rw [hwent.size]
  simp [Nat.add_assoc]

end Stands

end Builder

end Stackwright
