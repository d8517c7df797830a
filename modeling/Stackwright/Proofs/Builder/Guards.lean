import Stackwright.Proofs.Builder.Ending
import Stackwright.Proofs.Machine.Comparing
import Stackwright.Proofs.Machine.Paths

/-! # Guarded bodies

A body guarded by a comparison is skipped by a jump on the inverse, to a label that is marked behind the
body. So the body is entered where the comparison holds, and also where neither the comparison nor its
inverse does: when it needs an order and the operands have none.

* **`Operation.guard? o`** — the comparison that guards the body that an operation opens.
* **`Session.GuardedBy s c l`** — the session has just opened such a body; its label behind is `l`. -/

namespace Stackwright

/-- The comparison that **guards** the body that an operation opens. -/
def Operation.guard? : Operation → Option Comparison
  | .openIf c | .openIfCompared _ c _ | .openElseIf _ c _ | .openWhileBody c => some c
  | _ => none

/-- The innermost conditional of a session, or the one around its innermost while loop, goes to a label
when its guard fails. -/
def Session.SkipsTo (s : Session) (l : Label) : Prop :=
  ∃ finish rest, s.constructs = .conditional l finish :: rest ∨
    ∃ head, s.constructs = .whileLoop head :: .conditional l finish :: rest

/-- The session has just opened a body **guarded** by a comparison. -/
structure Session.GuardedBy (s : Session) (c : Comparison) (l : Label) : Prop where
  /-- The last instruction jumps on the inverse. -/
  last : s.code.back? = some (.jump (.compare c.negated l))
  /-- It goes to the label behind the body. -/
  skips : s.SkipsTo l
  /-- The label is yet to be marked. -/
  ahead : ¬ s.labels.Marked l

namespace Emit

/-! ## What calls leave behind -/

section Leaves

variable {α β : Type} {e : Emit α} {f : α → Emit β} {Q : Session → Prop}

/-- An accepted call **leaves** a session with a property. -/
def Leaves (e : Emit α) (Q : Session → Prop) : Prop :=
  ∀ (t : Tracer) (s s' : Session) (a : α), (e.run t).run s = .ok a s' → Q s'

/-- What comes before does not matter. -/
theorem leaves_bind (h : ∀ a, (f a).Leaves Q) : (e >>= f).Leaves Q := by
  intro t s s' b hrun
  rw [run_bind] at hrun
  split at hrun
  · exact h _ t _ s' b hrun
  · cases hrun

end Leaves

/-! ## Guards -/

section Guards

variable (t : Tracer) (s : Session)

/-- The session behind the jump over a body. -/
def guarded (c : Comparison) : Session :=
  let l := s.labels.next
  let behind := ({ s with labels := s.labels.define } : Session).written t
    ("    " ++ ("Branch if " ++ c.negated.name ++ " to " ++ l.text))
  { behind with labels := behind.labels.target [l], code := behind.code.push (.jump (.compare c.negated l)) }

/-- The jump over a body is always accepted; it goes to a new label. -/
theorem run_jumpUnless (c : Comparison) :
    ((jumpUnless c).run t).run s = .ok s.labels.next (guarded t s c) := by
  have hknown : ∀ s' : Session, s'.labels = s.labels.define →
      ((ofExcept (s'.labels.checkKnown [s.labels.next])).run t).run s' = .ok () s' := by
    intro s' hs'
    have hcheck : s'.labels.checkKnown [s.labels.next] = .ok () := by
      rw [Marks.checkKnown_eq_ok, hs']
      intro l hl
      obtain rfl := List.mem_singleton.1 hl
      exact ⟨rfl, by simp [Marks.next]⟩
    rw [hcheck]
    rfl
  have hnew : ((newLabel).run t).run s = .ok s.labels.next { s with labels := s.labels.define } := rfl
  rw [jumpUnless, run_bind, hnew]
  dsimp only
  rw [run_bind, run_note]
  dsimp only
  rw [run_bind, jump, run_bind, run_get]
  dsimp only
  rw [run_bind, show (Jump.compare c.negated s.labels.next).targets = [s.labels.next] from rfl,
    hknown _ (by simp)]
  rfl

/-- The jump over a body is the last instruction, and its label is yet to be marked. -/
theorem guarded_ahead (c : Comparison) :
    (guarded t s c).code.back? = some (.jump (.compare c.negated s.labels.next)) ∧
      ¬ (guarded t s c).labels.Marked s.labels.next := by
  refine ⟨Array.back?_push, ?_⟩
  rintro ⟨p, hp⟩
  have hp := Marks.markedAt_target.1 hp
  rw [Session.labels_written] at hp
  -- the label has just been defined, so it has no position
  obtain ⟨-, e, he, -⟩ := Marks.markedAt_define.1 hp
  exact absurd (Array.getElem?_eq_some_iff.1 he).1 (Nat.lt_irrefl _)

end Guards

section Openers

variable {c : Comparison}

/-- A conditional that is opened on a comparison is guarded. -/
theorem leaves_conditional (finish : Label) :
    (do
      let l ← jumpUnless c
      openConstruct (.conditional l finish) : Emit Unit).Leaves fun s =>
        ∃ l finish rest, s.GuardedBy c l ∧ s.constructs = .conditional l finish :: rest := by
  intro t s s' a hrun
  rw [run_bind, run_jumpUnless] at hrun
  cases hrun
  obtain ⟨hlast, hahead⟩ := guarded_ahead t s c
  exact ⟨_, finish, _, ⟨hlast, ⟨finish, _, .inl rfl⟩, hahead⟩, rfl⟩

theorem leaves_openIf (c : Comparison) :
    (openIf c).Leaves fun s =>
      ∃ l finish rest, s.GuardedBy c l ∧ s.constructs = .conditional l finish :: rest :=
  leaves_bind fun finish => leaves_conditional finish

/-- The body of a while loop is guarded like that of a conditional. -/
theorem leaves_openWhileBody (c : Comparison) :
    (openWhileBody c).Leaves fun s => ∃ l, s.GuardedBy c l := by
  refine leaves_bind fun head => ?_
  intro t s s' a hrun
  rw [run_bind] at hrun
  split at hrun
  · rename_i u s₁ h₁
    cases hrun
    obtain ⟨l, finish, rest, hguard, hopen⟩ := leaves_openIf c t s s₁ u h₁
    refine ⟨l, hguard.last, ⟨finish, rest, .inr ⟨head, ?_⟩⟩, hguard.ahead⟩
    show _ :: s₁.constructs = _
    rw [hopen]
  · cases hrun

end Openers

end Emit

/-- An accepted operation that opens a guarded body leaves the session guarded. -/
theorem Operation.leaves_guarded {o : Operation} {c : Comparison} (h : o.guard? = some c) :
    o.perform.Leaves fun s => ∃ l, s.GuardedBy c l := by
  have hdone : ∀ {e : Emit Unit} {Q : Session → Prop}, e.Leaves Q → (perform.done e).Leaves Q := by
    intro e Q he t s s' a hrun
    rw [perform.done, Emit.run_bind] at hrun
    split at hrun
    · rename_i u s₁ h₁
      cases hrun
      exact he t s _ u h₁
    · cases hrun
  -- an opened conditional says more than is asked of each call
  have hweak : ∀ {e : Emit Unit}, e.Leaves (fun s => ∃ l finish rest, s.GuardedBy c l ∧
      s.constructs = .conditional l finish :: rest) → e.Leaves fun s => ∃ l, s.GuardedBy c l := by
    intro e he t s s' a hrun
    obtain ⟨l, -, -, hguard, -⟩ := he t s s' a hrun
    exact ⟨l, hguard⟩
  cases o with
  | openIf c' =>
    cases h
    exact hdone (hweak (Emit.leaves_openIf c))
  | openIfCompared x c' y =>
    cases h
    exact hdone (hweak (Emit.leaves_bind fun _ => Emit.leaves_bind fun _ => Emit.leaves_openIf c))
  | openElseIf x c' y =>
    cases h
    exact hdone (hweak (Emit.leaves_bind fun finish => Emit.leaves_bind fun _ =>
      Emit.leaves_bind fun _ => Emit.leaves_conditional finish))
  | openWhileBody c' =>
    cases h
    exact hdone (Emit.leaves_openWhileBody c)
  | _ => cases h

/-! ## Running a guard -/

/-- How a run goes on after a jump on a comparison. -/
theorem Instruction.run_compare {m : Machine} {x y : Value} {rest : List Value} {c : Comparison}
    {target : Nat} {ret : Option Ty} {r : Bool} (hstack : m.frame.stack = y :: x :: rest)
    (hholds : (Host.holds c x y).run m.world = .ok r m.world) :
    ((Instruction.jump (.compare c target)).execute ret).run m =
      .ok (if r then .goto target else .next) (m.withStack rest) := by
  rw [Instruction.execute, Exec.run_bind_ok (Jump.run_compare hstack hholds)]
  cases r <;> rfl

/-! ## Guards of a procedure -/

/-- A guarded body of a procedure: the guard is the instruction at a position, the body begins at the
next one, and what is behind the body begins at the target. -/
structure Procedure.Guard (p : Procedure) (c : Comparison) (n target : Nat) : Prop where
  /-- The body lies behind its guard. -/
  behind : n < target
  /-- The guard is an instruction that jumps on the inverse. -/
  jump : p.code[n]? = some (.jump (.compare c.negated target))

/-- A guard **enters** its body, without its two operands, where the comparison holds, and where it needs
an order that the operands do not have; otherwise it goes to what is behind the body. -/
theorem Instruction.run_guard {c : Comparison} {target : Nat} {ret : Option Ty} {m : Machine}
    {x y : Value} {rest : List Value} {r : Bool} {w : World} (hstack : m.frame.stack = y :: x :: rest)
    (hholds : (Host.holds c x y).run m.world = .ok r w) :
    (r = true ∨ (c.Orders ∧ x.Unordered y) →
        ((Instruction.jump (.compare c.negated target)).execute ret).run m =
          .ok .next (m.withStack rest)) ∧
      (¬ (r = true ∨ (c.Orders ∧ x.Unordered y)) →
        ((Instruction.jump (.compare c.negated target)).execute ret).run m =
          .ok (.goto target) (m.withStack rest)) := by
  obtain ⟨-, hopposite, hneither⟩ := Host.holds_inverse hholds
  by_cases hu : c.Orders ∧ x.Unordered y
  · obtain ⟨-, hnot⟩ := hneither hu
    exact ⟨fun _ => Instruction.run_compare hstack hnot, fun hn => absurd (.inr hu) hn⟩
  · have hrun : ((Instruction.jump (.compare c.negated target)).execute ret).run m =
        .ok (if !r then .goto target else .next) (m.withStack rest) :=
      Instruction.run_compare hstack (hopposite hu)
    refine ⟨fun h => ?_, fun hn => ?_⟩
    · obtain rfl := h.resolve_right hu
      exact hrun
    · obtain rfl : r = false := Bool.eq_false_iff.2 fun hr => hn (.inl hr)
      exact hrun

namespace Builder

variable {b : Builder} {s : Session} {cs cs' : List Call} {o : Operation} {c : Comparison}
  {p : Procedure}

/-- Behind an accepted operation that opens a guarded body, the session is guarded. -/
theorem guardedBy_after (h : b.state = .building s) (ho : o.guard? = some c)
    (h' : ∃ s', (b.take (.perform o)).1.state = .building s') :
    ∃ s' l, (b.take (.perform o)).1.state = .building s' ∧ s'.GuardedBy c l := by
  cases hrun : (o.perform.run (.ofLevel b.level)).run s with
  | error e s' =>
    obtain ⟨s', hs'⟩ := h'
    rw [take, (perform_error h hrun).2] at hs'
    cases hs'
  | ok a s' =>
    obtain ⟨l, hguard⟩ := Operation.leaves_guarded ho _ s s' a hrun
    refine ⟨{ s' with notices := #[] }, l, ?_, ⟨hguard.last, hguard.skips, hguard.ahead⟩⟩
    rw [take, perform_ok h hrun]
    rfl

/-- The guard of a body is where its session recorded it, and what is behind the body is where the label
that the open construct remembers is marked. -/
theorem guard_of_guardedBy {s' : Session} {l : Label} (hs : s.Sound) (hguard : s.GuardedBy c l)
    (hgrows : s.Grows s') (h' : b.state = .building s') (hp : b.finish.result = .ok p) :
    ∃ n target, s.code.size = n + 1 ∧ s'.labels.MarkedAt l target ∧ p.Guard c n target := by
  have hsound : s'.Sound := hgrows.sound hs
  have hlast := hguard.last
  rw [Array.back?_eq_getElem?] at hlast
  have hsize : 0 < s.code.size := by
    have := (Array.getElem?_eq_some_iff.1 hlast).1
    omega
  have hcode := hgrows.extends.code _ _ hlast
  obtain ⟨i, hi, hlink⟩ := (linked_of_finish h' hsound hp).getElem?_of (Session.getElem?_ended hcode)
  -- the target of the linked jump is where the label was marked
  cases hpos : (s'.ended (.ofLevel b.level)).labels.position l with
  | error e =>
    simp only [Instruction.link, Jump.mapTargets, hpos] at hlink
    cases hlink
  | ok target =>
    simp only [Instruction.link, Jump.mapTargets, hpos] at hlink
    cases hlink
    have hjumps : s'.JumpsTo l := ⟨_, Array.mem_of_getElem? hcode, List.mem_singleton.2 rfl⟩
    have hmarked := Marks.position_eq_ok.1 hpos
    rw [Session.labels_ended, Marks.markedAt_mark hsound.finish_known] at hmarked
    have hne : l ≠ s'.finish := (hsound.ne_finish (hsound.inside l hjumps)).symm
    have hmarked : s'.labels.MarkedAt l target := (hmarked.resolve_left fun h => hne h.1).2
    refine ⟨s.code.size - 1, target, (Nat.sub_add_cancel hsize).symm, hmarked, ⟨?_, hi⟩⟩
    rcases hgrows.extends.later l target hmarked with hbefore | hlater
    · exact absurd ⟨target, hbefore⟩ hguard.ahead
    · omega

/-- **Comparisons that guard bodies.** In every procedure that a client builds, whatever the calls around
it, a body that is guarded by a comparison is entered, its two operands taken, exactly where the comparison
holds, or where it needs an order and one operand is not a number. For it is skipped by the inverse, and
the inverse gives the opposite answer of every comparison that gives one, except in that case, where
neither holds. -/
theorem body_entered (number : Nat) (name : String) (signature : Signature) (sink : Sink)
    (level : TraceDetail) (cs cs' : List Call) (o : Operation) (c : Comparison) (p : Procedure)
    (hissued : ∀ call ∈ cs ++ .perform o :: cs', ∀ l ∈ call.handed, l.Issued)
    (ho : o.guard? = some c)
    (hp : ((begin number name signature sink level).builder.after
      (cs ++ .perform o :: cs')).finish.result = .ok p) :
    (∃ s s' l n target,
      ((begin number name signature sink level).builder.after (cs ++ [.perform o])).state =
        .building s ∧
      ((begin number name signature sink level).builder.after (cs ++ .perform o :: cs')).state =
        .building s' ∧
      s.code.size = n + 1 ∧ s.SkipsTo l ∧ s'.labels.MarkedAt l target ∧ n < target ∧
      ∃ guard, p.code[n]? = some guard ∧
        ∀ (m : Machine) (x y : Value) (rest : List Value) (r : Bool) (w : World),
          m.frame.stack = y :: x :: rest → (Host.holds c x y).run m.world = .ok r w →
            (r = true ∨ (c.Orders ∧ x.Unordered y) →
              (guard.execute p.signature.ret).run m = .ok .next (m.withStack rest)) ∧
            (¬ (r = true ∨ (c.Orders ∧ x.Unordered y)) →
              (guard.execute p.signature.ret).run m = .ok (.goto target) (m.withStack rest))) ∧
    ∀ (d : Comparison) (x y : Value) (w w' : World) (r : Bool),
      (Host.holds d x y).run w = .ok r w' → w' = w ∧
        (¬ (d.Orders ∧ x.Unordered y) → (Host.holds d.negated x y).run w = .ok (!r) w) ∧
        (d.Orders ∧ x.Unordered y → r = false ∧ (Host.holds d.negated x y).run w = .ok false w) := by
  refine ⟨?_, fun d x y w w' r h => Host.holds_inverse h⟩
  obtain ⟨s₀, hs₀, hsound⟩ := begin_building number name signature sink level
  have hinside : ∀ call ∈ cs ++ .perform o :: cs', Emit.Inside call.handed :=
    fun call hcall l hl => (hissued call hcall l hl).inside
  obtain ⟨hcs, hrest⟩ := List.forall_mem_append.1 hinside
  obtain ⟨hop, hcs'⟩ := List.forall_mem_cons.1 hrest
  obtain ⟨s', hs'⟩ := building_of_finish hp
  have hsplit := hs'
  rw [after_append] at hsplit
  -- the builder takes calls before the operation and behind it
  obtain ⟨s₁, hs₁⟩ := building_of_after hsplit
  obtain ⟨s, l, hs, hguard⟩ := guardedBy_after hs₁ ho (building_of_after hsplit)
  have hsound₁ : s₁.Sound := (grows_after hs₀ hsound.inner hcs hs₁).sound hsound
  have hbehind : ((begin number name signature sink level).builder.after
      (cs ++ [.perform o])).state = .building s := by
    rw [after_append]
    exact hs
  have hgrown : s.Sound := by
    have hone : ∀ call ∈ [Call.perform o], Emit.Inside call.handed :=
      List.forall_mem_singleton.2 hop
    exact (grows_after hs₁ hsound₁.inner hone hs).sound hsound₁
  have hgrows : s.Grows s' := grows_after hs hgrown.inner hcs' hsplit
  obtain ⟨n, target, hsize, hmarked, hjump⟩ := guard_of_guardedBy hgrown hguard hgrows hs' hp
  refine ⟨s, s', l, n, target, hbehind, hs', hsize, hguard.skips, hmarked, hjump.behind, _,
    hjump.jump, ?_⟩
  intro m x y rest r w hstack hholds
  exact Instruction.run_guard hstack hholds

/-- A double that is not a number. -/
def notANumber : Scalar := .float .double 0x7ff8000000000000#64

/-- The double one. -/
def doubleOne : Scalar := .float .double 0x3ff0000000000000#64

/-- A builder for a procedure without arguments. -/
def plain : Builder := (begin 1 "f" ⟨[], none⟩ .log .off).builder

/-- The session behind an empty body that is guarded by asking what is less. -/
def emptyBody : Session where
  name := "f"
  signature := ⟨[], none⟩
  sink := .log
  labels := ⟨1, #[⟨none, false⟩, ⟨some 1, false⟩, ⟨some 1, true⟩]⟩
  code := #[.jump (.compare .greaterThanOrEqualTo ⟨1, 2⟩)]
  finish := ⟨1, 0⟩

/-- Such a body is built: its only jump goes to a marked label. -/
theorem ready_emptyBody :
    plain.Ready ([] ++ .perform (.openIf .lessThan) :: [.perform .closeIf]) := by
  let opened : Session := { emptyBody with
    constructs := [.conditional ⟨1, 2⟩ ⟨1, 1⟩]
    labels := ⟨1, #[⟨none, false⟩, ⟨none, false⟩, ⟨none, true⟩]⟩ }
  have hopen : (plain.take (.perform (.openIf .lessThan))).1 = taking .log .off opened := rfl
  have hclose : ((taking .log .off opened).take (.perform .closeIf)).1 =
      taking .log .off emptyBody := rfl
  refine ⟨emptyBody, ?_, rfl, ?_⟩
  · rw [List.nil_append, after, hopen, after, hclose]
    rfl
  · rintro l ⟨i, hi, hl⟩
    obtain rfl := List.mem_singleton.1 (Array.mem_def.1 hi)
    obtain rfl := List.mem_singleton.1 hl
    exact ⟨1, rfl, _, rfl, rfl⟩

/-- The comparison does not hold, and yet the body is entered. -/
theorem body_entered_notANumber :
    (Host.holds .lessThan (.scalar notANumber) (.scalar doubleOne)).run {} = .ok false {} ∧
      ∃ (p : Procedure) (n : Nat) (guard : Instruction Nat),
        (plain.after ([] ++ .perform (.openIf .lessThan) :: [.perform .closeIf])).finish.result =
          .ok p ∧
        p.code[n]? = some guard ∧
        (guard.execute p.signature.ret).run
            ⟨⟨#[], #[], [.scalar doubleOne, .scalar notANumber]⟩, {}⟩ =
          .ok .next ⟨⟨#[], #[], []⟩, {}⟩ := by
  have hholds : (Host.holds .lessThan (.scalar notANumber) (.scalar doubleOne)).run {} =
      .ok false {} := rfl
  have hunordered : (Value.scalar notANumber).Unordered (.scalar doubleOne) := by
    refine ⟨_, _, rfl, rfl, .inl ?_⟩
    show FloatKind.double.decode _ = .nan
    decide
  have hissued : ∀ c ∈ [] ++ Call.perform (.openIf .lessThan) :: [.perform .closeIf],
      ∀ l ∈ c.handed, l.Issued := by
    simp [Call.handed, Operation.handed]
  obtain ⟨s₀, hs₀, hsound⟩ := begin_building 1 "f" ⟨[], none⟩ .log .off
  rcases finish_cases hs₀ hsound fun c hc l hl => (hissued c hc l hl).inside with
    ⟨-, -, p, hp, -⟩ | ⟨hready, -⟩
  · obtain ⟨⟨s, s', l, n, target, -, -, -, -, -, -, guard, hcode, hrun⟩, -⟩ :=
      body_entered 1 "f" ⟨[], none⟩ .log .off [] [.perform .closeIf] (.openIf .lessThan) .lessThan p
        hissued rfl hp
    obtain ⟨henters, -⟩ := hrun ⟨⟨#[], #[], [.scalar doubleOne, .scalar notANumber]⟩, {}⟩ _ _ _ _ _
      rfl hholds
    exact ⟨hholds, p, n, guard, hp, hcode, henters (.inr ⟨by simp [Comparison.Orders], hunordered⟩)⟩
  · exact absurd ready_emptyBody hready

end Builder

end Stackwright
