import Stackwright.Proofs.Structure.Discipline

/-! # The last alternative

Behind the last alternative of a conditional there is no other one. The call that opens another
alternative is accepted, but it marks the end of the conditional, and closing the conditional would mark
it again. So the conditional is **stuck**: it stays open whatever calls follow, and no procedure comes of
it.

* **`Session.Stuck s`** — an open conditional whose end is marked.
* **`Builder.finish_ne_of_alternative`** — no alternative follows the last one in a procedure. -/

namespace Stackwright

namespace Session

variable {s s' : Session} {b : Bracket} {inner rest : List Construct} {ks : List ConstructKind}

/-! ## What calls inside a construct leave alone -/

/-- A bracket that matches records in front leaves the constructs behind them alone. -/
theorem Turned.frame (h : s.Turned b s') (hs : s.outline = inner ++ rest)
    (hshift : b.shift (inner.map Construct.kind) = some ks) :
    ∃ inner', s'.outline = inner' ++ rest ∧ inner'.map Construct.kind = ks := by
  have hturns := h.outline
  rw [hs] at hturns
  cases b with
  | plain =>
    cases hshift
    exact ⟨inner, hturns, rfl⟩
  | opens k =>
    obtain ⟨c, rfl, hcs⟩ := hturns
    cases hshift
    exact ⟨c :: inner, hcs, rfl⟩
  | alternative =>
    obtain ⟨o, o', f, rest', hcs, hcs', -⟩ := hturns
    cases inner with
    | nil => cases hshift
    | cons c inner =>
      obtain ⟨rfl, rfl⟩ := List.cons.inj hcs
      cases hshift
      exact ⟨.conditional o' f :: inner, hcs', rfl⟩
  | part =>
    obtain ⟨d, f, given, given', rest', hcs, hcs'⟩ := hturns
    cases inner with
    | nil => cases hshift
    | cons c inner =>
      obtain ⟨rfl, rfl⟩ := List.cons.inj hcs
      cases hshift
      exact ⟨.switch d f given' :: inner, hcs', rfl⟩
  | body =>
    obtain ⟨head, o, f, rest', hcs, hcs'⟩ := hturns
    cases inner with
    | nil => cases hshift
    | cons c inner =>
      obtain ⟨rfl, rfl⟩ := List.cons.inj hcs
      cases hshift
      exact ⟨.whileLoop head :: .conditional o f :: inner, hcs', rfl⟩
  | closes k =>
    rw [Bracket.shift, Option.ite_none_right_eq_some] at hshift
    obtain ⟨hbefore, hks⟩ := hshift
    -- an end takes one construct off, or two for a while loop
    obtain ⟨front, hfront, hcs⟩ : ∃ front : List Construct, front.length = k.closing.length ∧
        inner ++ rest = front ++ s'.outline := by
      cases k with
      | conditional =>
        obtain ⟨o, f, hcs, -⟩ := hturns
        exact ⟨[.conditional o f], rfl, hcs⟩
      | whileLoop =>
        obtain ⟨head, o, f, hcs, -⟩ := hturns
        exact ⟨[.whileLoop head, .conditional o f], rfl, hcs⟩
      | _ =>
        obtain ⟨c, -, hcs⟩ := hturns
        exact ⟨[c], rfl, hcs⟩
    have hle : front.length ≤ inner.length := by
      have hlen := hbefore.length_le
      rwa [List.length_map, ← hfront] at hlen
    refine ⟨inner.drop front.length, ?_, ?_⟩
    · have hdrop := congrArg (List.drop front.length) hcs
      rw [List.drop_left, List.drop_append_of_le_length hle] at hdrop
      exact hdrop.symm
    · rw [List.map_drop, hfront]
      exact Option.some.inj hks

/-! ## Stuck conditionals -/

/-- A conditional is open although its end is marked, so it cannot be closed. -/
def Stuck (s : Session) : Prop := ∃ o f, .conditional o f ∈ s.outline ∧ s.labels.Marked f

/-- A conditional that is stuck stays so: only its other label may change. -/
theorem Turned.stuck (h : s.Turned b s') (hs : s.Stuck) : s'.Stuck := by
  obtain ⟨o, f, hmem, hf⟩ := hs
  have hf' := h.marked f hf
  have hturns := h.outline
  cases b with
  | plain =>
    have heq : s'.outline = s.outline := hturns
    exact ⟨o, f, heq ▸ hmem, hf'⟩
  | opens k =>
    obtain ⟨c, -, hcs⟩ := hturns
    exact ⟨o, f, hcs ▸ List.mem_cons_of_mem _ hmem, hf'⟩
  | alternative =>
    obtain ⟨o₁, o', f₁, rest, hcs, hcs', -⟩ := hturns
    rw [hcs] at hmem
    rcases List.mem_cons.1 hmem with heq | hmem
    · obtain ⟨-, rfl⟩ := Construct.conditional.inj heq
      exact ⟨o', f, hcs' ▸ List.mem_cons_self, hf'⟩
    · exact ⟨o, f, hcs' ▸ List.mem_cons_of_mem _ hmem, hf'⟩
  | part =>
    obtain ⟨d, f₁, given, given', rest, hcs, hcs'⟩ := hturns
    rw [hcs] at hmem
    rcases List.mem_cons.1 hmem with heq | hmem
    · cases heq
    · exact ⟨o, f, hcs' ▸ List.mem_cons_of_mem _ hmem, hf'⟩
  | body =>
    obtain ⟨head, o₁, f₁, rest, hcs, hcs'⟩ := hturns
    rw [hcs] at hmem
    rcases List.mem_cons.1 hmem with heq | hmem
    · cases heq
    · exact ⟨o, f, hcs' ▸ List.mem_cons_of_mem _ (List.mem_cons_of_mem _ hmem), hf'⟩
  | closes k =>
    cases k with
    | conditional =>
      -- the end of the conditional that is closed was not marked
      obtain ⟨o₁, f₁, hcs, hfree⟩ := hturns
      rw [hcs] at hmem
      rcases List.mem_cons.1 hmem with heq | hmem
      · obtain ⟨-, rfl⟩ := Construct.conditional.inj heq
        exact absurd hf hfree
      · exact ⟨o, f, hmem, hf'⟩
    | whileLoop =>
      obtain ⟨head, o₁, f₁, hcs, hfree⟩ := hturns
      rw [hcs] at hmem
      rcases List.mem_cons.1 hmem with heq | hmem
      · cases heq
      rcases List.mem_cons.1 hmem with heq | hmem
      · obtain ⟨-, rfl⟩ := Construct.conditional.inj heq
        exact absurd hf hfree
      · exact ⟨o, f, hmem, hf'⟩
    | _ =>
      obtain ⟨c, hc, hcs⟩ := hturns
      rw [hcs] at hmem
      rcases List.mem_cons.1 hmem with rfl | hmem
      · cases hc
      · exact ⟨o, f, hmem, hf'⟩

/-- Another alternative where there is none to come: the conditional is stuck. -/
theorem Turned.stuck_of_alternative {f : Label} (h : s.Turned .alternative s')
    (hs : s.outline = .conditional f f :: rest) : s'.Stuck := by
  obtain ⟨o, o', f', rest', hcs, hcs', ho⟩ := h.outline
  rw [hs] at hcs
  obtain ⟨hfront, -⟩ := List.cons.inj hcs
  obtain ⟨rfl, rfl⟩ := Construct.conditional.inj hfront
  exact ⟨o', f, hcs' ▸ List.mem_cons_self, ho⟩

end Session

/-- In its last alternative a conditional has one label only. -/
theorem Emit.outline_of_openElse {level : TraceDetail} {s s' : Session} (hs : s.Fit)
    (h : (openElse.run (.ofLevel level)).run s = .ok () s') :
    ∃ o f rest, s.outline = .conditional o f :: rest ∧ s'.outline = .conditional f f :: rest := by
  obtain ⟨f, s₁, hnext, hopen⟩ := run_bind_eq_ok.1 h
  obtain ⟨-, o, houtline, -⟩ := onward_of_nextAlternative hs hnext
  rw [run_openConstruct] at hopen
  cases hopen
  exact ⟨o, f, s₁.outline, houtline, rfl⟩

namespace Builder

variable {b : Builder} {s s' : Session} {o : Operation} {os : List Operation}

/-- What every accepted operation keeps is kept by a row of them. -/
theorem keeps_after {I : Session → Prop}
    (hI : ∀ (o : Operation) {s s' : Session}, s.Turned o.bracket s' → I s → I s')
    (h : b.state = .building s) (hs : s.Fit) (hi : I s) (h' : (b.after (os.map .perform)).state = .building s') :
    s'.Fit ∧ I s' := by
  induction os generalizing b s with
  | nil =>
    rw [List.map_nil, after, h] at h'
    cases h'
    exact ⟨hs, hi⟩
  | cons o os ih =>
    obtain ⟨s₁, hs₁⟩ : ∃ s₁, (b.perform o).builder.state = .building s₁ := building_of_after h'
    have hturned : s.Turned o.bracket s₁ := turned_perform h hs hs₁
    exact ih hs₁ hturned.fit (hI o hturned hi) h'

/-- Calls whose records are gone again leave the constructs as they found them. -/
theorem outline_after {inner rest : List Construct} {ks : List ConstructKind} (h : b.state = .building s)
    (hs : s.Fit) (hin : s.outline = inner ++ rest) (hos : records os (inner.map Construct.kind) = some ks)
    (h' : (b.after (os.map .perform)).state = .building s') :
    ∃ inner', s'.outline = inner' ++ rest ∧ inner'.map Construct.kind = ks := by
  induction os generalizing b s inner with
  | nil =>
    rw [List.map_nil, after, h] at h'
    cases h'
    exact ⟨inner, hin, Option.some.inj hos⟩
  | cons o os ih =>
    obtain ⟨s₁, hs₁⟩ : ∃ s₁, (b.perform o).builder.state = .building s₁ := building_of_after h'
    have hturned : s.Turned o.bracket s₁ := turned_perform h hs hs₁
    rw [records, Option.bind_eq_some_iff] at hos
    obtain ⟨ks₁, hshift, hrest⟩ := hos
    obtain ⟨inner₁, hin₁, rfl⟩ := hturned.frame hin hshift
    exact ih hs₁ hturned.fit hin₁ hrest h'

/-- Behind the call that opens the last alternative, the conditional has one label only. -/
theorem outline_openElse (h : b.state = .building s) (hs : s.Fit)
    (h' : (b.perform .openElse).builder.state = .building s') :
    ∃ f rest, s'.outline = .conditional f f :: rest := by
  cases hrun : ((Operation.openElse).perform.run (.ofLevel b.level)).run s with
  | ok a s₁ =>
    rw [perform_ok h hrun] at h'
    cases h'
    obtain ⟨_, s₂, helse, hpure⟩ := Emit.run_bind_eq_ok.1 hrun
    cases hpure
    obtain ⟨-, f, rest, -, houtline⟩ := Emit.outline_of_openElse hs helse
    exact ⟨f, rest, houtline⟩
  | error e s₁ =>
    rw [(perform_error h hrun).2] at h'
    cases h'

/-- A builder with a stuck conditional never finishes. -/
theorem finish_ne_of_stuck (h : b.state = .building s) (hs : s.Fit) (hstuck : s.Stuck) (cs : List Call)
    (p : Procedure) : (b.after cs).finish.result ≠ .ok p := by
  intro hp
  obtain ⟨s', hs'⟩ := building_of_finish hp
  obtain ⟨os, rfl⟩ := operations_of_after hs'
  obtain ⟨-, o, f, hmem, -⟩ := keeps_after (fun _ => Session.Turned.stuck) h hs hstuck hs'
  rw [Session.outline, constructs_of_finish hs' hp] at hmem
  exact absurd hmem List.not_mem_nil

/-- **No alternative follows the last one**: once the last alternative of a conditional was opened, a call
that opens another alternative of the same conditional, behind calls that left the constructs as they
were, never leads to a procedure, whatever calls come before and behind. -/
theorem finish_ne_of_alternative (h : b.state = .building s) (hs : s.Fit) (before : List Call)
    {mid : List Operation} (hmid : records mid [] = some []) (ho : o.bracket = .alternative)
    (behind : List Call) (p : Procedure) :
    (b.after (before ++ .perform .openElse :: (mid.map .perform ++ .perform o :: behind))).finish.result ≠
      .ok p := by
  intro hp
  obtain ⟨s₅, hs₅⟩ := building_of_finish hp
  rw [after_append] at hp hs₅
  obtain ⟨s₁, hs₁⟩ := building_of_after hs₅
  obtain ⟨os, rfl⟩ := operations_of_after hs₁
  have hfit₁ := (keeps_after (I := fun _ => True) (fun _ _ _ _ _ => trivial) h hs trivial hs₁).1
  let b₂ := ((b.after (os.map .perform)).perform .openElse).builder
  obtain ⟨s₂, hs₂⟩ : ∃ s₂, b₂.state = .building s₂ := building_of_after hs₅
  have hfit₂ := (turned_perform hs₁ hfit₁ hs₂).fit
  obtain ⟨f, rest, houtline⟩ := outline_openElse hs₁ hfit₁ hs₂
  have hrest : ∀ cs, (b.after (os.map .perform)).after (.perform .openElse :: (mid.map .perform ++ cs)) =
      (b₂.after (mid.map .perform)).after cs := fun cs => after_append b₂ _ cs
  rw [hrest] at hp hs₅
  -- what is in between leaves the conditional in its last alternative
  obtain ⟨s₃, hs₃⟩ := building_of_after hs₅
  have hfit₃ := (keeps_after (I := fun _ => True) (fun _ _ _ _ _ => trivial) hs₂ hfit₂ trivial hs₃).1
  have hfront : s₂.outline = [] ++ .conditional f f :: rest := houtline
  obtain ⟨inner, houtline₃, hnone⟩ := outline_after hs₂ hfit₂ hfront hmid hs₃
  obtain rfl := List.map_eq_nil_iff.1 hnone
  -- and there the next alternative leaves it stuck
  obtain ⟨s₄, hs₄⟩ : ∃ s₄, ((b₂.after (mid.map .perform)).perform o).builder.state = .building s₄ :=
    building_of_after hs₅
  have hturned := turned_perform hs₃ hfit₃ hs₄
  rw [ho] at hturned
  exact finish_ne_of_stuck hs₄ hturned.fit (hturned.stuck_of_alternative houtline₃) behind p hp

end Builder

end Stackwright
