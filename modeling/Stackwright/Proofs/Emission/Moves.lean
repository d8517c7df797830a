import Stackwright.Proofs.Session.Changes

/-! # Emission calls grow sessions

An accepted emission call takes its session to one that it grows into, whatever the tracer, and what it
answers has a property that the next call can rely on. The statement composes along the calls that a
call is made of, so each call needs one line for each part. Labels that a client hands in are the
only assumption: none of them is the label at the end of the procedure.

* **`Emit.Gives e Q`** — an accepted `e` grows the session and answers with `Q`.
* **`Emit.Moves e`** — the same, when nothing is said about the answer. -/

namespace Stackwright

/-- Showing a value grows the session. -/
def Tracer.Moves (t : Tracer) : Prop :=
  ∀ (T : Ty) (s s' : Session), s.Inner → (t.probe T).run s = .ok () s' → s.Grows s'

namespace Emit

variable {α β : Type} {e : Emit α} {f : α → Emit β} {Q : α → Prop} {R : β → Prop}

/-- An accepted call **grows** the session and answers with `Q`. -/
def Gives (e : Emit α) (Q : α → Prop) : Prop :=
  ∀ t : Tracer, t.Moves → ∀ (s s' : Session) (a : α), s.Inner →
    (e.run t).run s = .ok a s' → s.Grows s' ∧ Q a

/-- An accepted call grows the session. -/
def Moves (e : Emit α) : Prop := e.Gives fun _ => True

/-! ## Composition -/

/-- A call after another one runs where that one ended. -/
theorem run_bind (e : Emit α) (f : α → Emit β) (t : Tracer) (s : Session) :
    ((e >>= f).run t).run s =
      match (e.run t).run s with
      | .ok a s => ((f a).run t).run s
      | .error r s => .error r s := by
  have h : (e.run t).run s = e t s := rfl
  rw [h]
  show EStateM.bind (e t) (fun a => f a t) s = _
  unfold EStateM.bind
  cases e t s <;> rfl

/-- What comes first was accepted, so the rest runs. -/
theorem run_bind_ok {t : Tracer} {s s' : Session} {a : α} (h : (e.run t).run s = .ok a s') :
    ((e >>= f).run t).run s = ((f a).run t).run s' := by
  rw [run_bind, h]

theorem gives_pure {a : α} (h : Q a) : (pure a : Emit α).Gives Q := by
  intro t ht s s' b hs hrun
  cases hrun
  exact ⟨.refl s, h⟩

theorem moves_pure (a : α) : (pure a : Emit α).Moves := gives_pure trivial

theorem Gives.bind (he : e.Gives Q) (hf : ∀ a, Q a → (f a).Gives R) : (e >>= f).Gives R := by
  intro t ht s s' b hs hrun
  rw [run_bind] at hrun
  split at hrun
  · rename_i a s₁ h₁
    obtain ⟨hgrow, ha⟩ := he t ht s s₁ a hs h₁
    obtain ⟨hgrow', hb⟩ := hf a ha t ht s₁ s' b (hgrow.inner hs) hrun
    exact ⟨hgrow.trans hgrow', hb⟩
  · cases hrun

/-- Where nothing is known of the answer, nothing is needed of it. -/
theorem Moves.bind (he : e.Moves) (hf : ∀ a, (f a).Gives R) : (e >>= f).Gives R :=
  Gives.bind he fun a _ => hf a

theorem Gives.ite {c : Prop} [Decidable c] {e e' : Emit α} (h : e.Gives Q) (h' : e'.Gives Q) :
    (if c then e else e').Gives Q := by
  split
  · exact h
  · exact h'

/-- A call that is always refused. -/
theorem gives_refuse (r : BuildError) : (refuse r : Emit α).Gives Q := by
  intro t ht s s' a hs hrun
  cases hrun

theorem gives_ofExcept {r : Except BuildError α} (h : ∀ a, r = .ok a → Q a) :
    (ofExcept r).Gives Q := by
  cases r with
  | ok a => exact gives_pure (h a rfl)
  | error e => exact gives_refuse e

/-- One change. -/
theorem gives_modify {c : Session → Session} (h : ∀ s : Session, s.Change (c s)) :
    (modify c : Emit PUnit).Moves := by
  intro t ht s s' a hs hrun
  cases hrun
  exact ⟨(h s).grows, trivial⟩

theorem moves_get : (get : Emit Session).Moves := by
  intro t ht s s' a hs hrun
  cases hrun
  exact ⟨.refl s, trivial⟩

/-- A call that looks at the tracer is the call that it then makes. -/
theorem gives_read {g : Tracer → Emit α} (h : ∀ t, (g t).Gives Q) : (read >>= g : Emit α).Gives Q := by
  intro t ht s s' a hs hrun
  exact h t t ht s s' a hs hrun

/-! ## Recording and tracing -/

/-- Labels **inside** the procedure: none of them is the label at its end. -/
def Inside (ls : List Label) : Prop := ∀ l ∈ ls, l.id ≠ 0

theorem inside_one {l : Label} (h : l.id ≠ 0) : Inside [l] := by
  intro m hm
  rw [List.mem_singleton.1 hm]
  exact h

theorem moves_record {i : Instruction Label} (h : i.targets = []) : (record i).Moves :=
  gives_modify fun _ => .record i h

theorem moves_op (o : Op) : (op o).Moves := moves_record rfl

/-- A jump is recorded and its targets are noted in one change. -/
theorem moves_jump {j : Jump Label} (hj : Inside j.targets) : (jump j).Moves := by
  intro t ht s s' a hs hrun
  cases hc : s.labels.checkKnown j.targets with
  | ok u =>
    have hend : (((jump j).run t).run s) =
        .ok () { s with labels := s.labels.target j.targets, code := s.code.push (.jump j) } := by
      simp only [jump, run_bind]
      have hget : ((get : Emit Session).run t).run s = .ok s s := rfl
      simp only [hget, hc]
      rfl
    rw [hend] at hrun
    cases hrun
    exact ⟨(Session.Change.jump j hc hj).grows, trivial⟩
  | error r =>
    have hend : (((jump j).run t).run s) = .error r s := by
      simp only [jump, run_bind]
      have hget : ((get : Emit Session).run t).run s = .ok s s := rfl
      simp only [hget, hc]
      rfl
    rw [hend] at hrun
    cases hrun

theorem moves_notify (n : Notice) : (notify n).Moves := gives_modify fun _ => .notify n

/-- A transcript line, with its report where everything is traced. -/
theorem moves_line (text : String) : (line text).Moves := by
  refine gives_read fun t => ?_
  have hreport : ∀ level : TraceDetail, Moves (do
      let number := (← get).nextLine
      notify (.line number text)
      modify fun s => { s with nextLine := number + 1 }
      if level = .full then
        op (.push (.text (numberedLine number text)))
        op (.call (Builtin.report (← get).sink))) := by
    intro level
    refine moves_get.bind fun s => (moves_notify _).bind fun _ => ?_
    refine Moves.bind (gives_modify fun s => .line _) fun _ => ?_
    refine Gives.ite ?_ (moves_pure ())
    exact (moves_op _).bind fun _ => moves_get.bind fun s => moves_op _
  cases t.level with
  | off => exact moves_pure ()
  | log => exact hreport .log
  | full => exact hreport .full

theorem moves_note (text : String) : (note text).Moves := moves_line _

theorem moves_probe (T : Ty) : (probe T).Moves := by
  intro t ht s s' a hs hrun
  exact ⟨ht T s s' hs hrun, trivial⟩

theorem moves_traced (text : String) (o : Op) : (traced text o).Moves :=
  (moves_note text).bind fun _ => moves_op o

/-! ## Labels -/

/-- A new label is not the label at the end. -/
theorem gives_newLabel : newLabel.Gives fun l => l.id ≠ 0 := by
  intro t ht s s' l hs hrun
  cases hrun
  exact ⟨Session.Change.define.grows, Nat.pos_iff_ne_zero.1 hs.labels⟩

theorem moves_markHere {l : Label} (hl : l.id ≠ 0) : (markHere l).Moves := by
  intro t ht s s' a hs hrun
  have hget : ((get : Emit Session).run t).run s = .ok s s := rfl
  simp only [markHere, run_bind, hget] at hrun
  cases hc : s.labels.checkUnmarked l with
  | ok u =>
    rw [hc] at hrun
    obtain ⟨hgrow, -⟩ := moves_line (l.text ++ ":") t ht _ s' a
      ((Session.Change.mark l hc hl).inner hs) hrun
    exact ⟨(Session.Change.mark l hc hl).grows.trans hgrow, trivial⟩
  | error r =>
    rw [hc] at hrun
    cases hrun

/-! ## Constructs -/

theorem moves_openConstruct {c : Construct} (h : Inside c.labels) : (openConstruct c).Moves :=
  gives_modify fun _ => .opened c h

theorem gives_takeInnermost :
    takeInnermost.Gives fun found => ∀ c, found = some c → Inside c.labels := by
  intro t ht s s' a hs hrun
  cases hrun
  refine ⟨Session.Change.closed.grows, fun c hc => hs.constructs c ?_⟩
  exact List.mem_of_mem_head? (Option.mem_def.2 hc)

theorem gives_refuseInnermost (k : ConstructKind) (found : Option Construct) :
    (refuseInnermost k found : Emit α).Gives Q := gives_refuse _

theorem gives_takeConditional : takeConditional.Gives fun p => Inside [p.1, p.2] := by
  refine Gives.bind gives_takeInnermost fun found hfound => ?_
  split
  · exact gives_pure (hfound _ rfl)
  · exact gives_refuseInnermost _ _

theorem gives_takeCounted : takeCounted.Gives fun loop => Inside loop.labels := by
  refine Gives.bind gives_takeInnermost fun found hfound => ?_
  split
  · exact gives_pure (hfound _ rfl)
  · exact gives_refuseInnermost _ _

theorem gives_takeEnumerated : takeEnumerated.Gives fun loop => Inside loop.labels := by
  refine Gives.bind gives_takeInnermost fun found hfound => ?_
  split
  · exact gives_pure (hfound _ rfl)
  · exact gives_refuseInnermost _ _

theorem gives_takeSwitch : takeSwitch.Gives fun p => Inside [p.1, p.2.1] := by
  refine Gives.bind gives_takeInnermost fun found hfound => ?_
  split
  · exact gives_pure (hfound _ rfl)
  · exact gives_refuseInnermost _ _

theorem gives_takeWhileHead : takeWhileHead.Gives fun head => head.id ≠ 0 := by
  refine Gives.bind gives_takeInnermost fun found hfound => ?_
  split
  · exact gives_pure (hfound _ rfl _ List.mem_cons_self)
  · exact gives_refuseInnermost _ _

theorem gives_currentSwitch : currentSwitch.Gives fun p => Inside [p.1, p.2.1] := by
  intro t ht s s' a hs hrun
  have hget : ((get : Emit Session).run t).run s = .ok s s := rfl
  simp only [currentSwitch, run_bind, hget] at hrun
  split at hrun
  · rename_i hc
    cases hrun
    have hmem := hc ▸ List.mem_cons_self
    exact ⟨.refl s, fun l hl => hs.constructs _ hmem l hl⟩
  · cases hrun

end Emit

end Stackwright
