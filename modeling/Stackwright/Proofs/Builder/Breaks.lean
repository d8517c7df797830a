import Mathlib.Data.List.Nodup
import Stackwright.Proofs.Builder.Exits
import Stackwright.Proofs.Builder.Parts
import Stackwright.Proofs.Tracing.Showing

/-! # Breaks

A break names the loop that it leaves. Its label is defined by the first break of the loop, from wherever inside of
the loop that comes, and marked by the call that closes the loop, which may be many calls later and behind other
loops with labels of their own. That both are about the same loop follows from the constructs around it, which stay
as they are until the loop is closed, and from the handles, of which no two are the same.

* **`Session.Distinct s`** — the open loops have different handles.
* **`Builder.Takes.exit`** — the label behind a loop stays as long as the loop is open.
* **`Builder.Takes.closed`** — what is open and not at the end of the calls is closed by one of them.
* **`Builder.breaks_leave`** — every break goes on directly behind the loop that it names. -/

namespace Stackwright

/-! ## The loops of a session -/

namespace Session

variable {s s' : Session} {o : Operation} {a : Answer} {h : LoopHandle}

/-- No two open loops have the same handle, and the numbers of their handles were given. -/
structure Distinct (s : Session) : Prop where
  /-- The handles are different. -/
  nodup : s.openLoops.Nodup
  /-- Their numbers were given. -/
  given : ∀ h ∈ s.openLoops, h.id < s.nextLoop

/-- A loop that is open behind an operation was open before, or it is what the operation answers. -/
theorem mem_openLoops_of_answers (ho : o.Answers a s s') (hh : h ∈ s'.openLoops) :
    h ∈ s.openLoops ∨ a = .loop h := by
  rw [ho.openLoops, Operation.turnLoops] at hh
  split at hh
  · exact .inl (List.mem_of_mem_tail hh)
  · rcases List.mem_append.1 hh with hh | hh
    · refine .inr ?_
      cases a <;> simp_all [Answer.loop?]
    · exact .inl hh

/-- Operations keep the handles apart. -/
theorem Distinct.answers (hs : s.Distinct) (ho : o.Answers a s s') : s'.Distinct where
  nodup := by
    rw [ho.openLoops, Operation.turnLoops]
    split
    · exact hs.nodup.sublist (List.tail_sublist _)
    · cases ha : a.loop? with
      | none => exact hs.nodup
      | some k =>
        -- the number of a new loop is greater than all that were given
        refine List.nodup_cons.2 ⟨fun hk => ?_, hs.nodup⟩
        exact absurd (hs.given k hk) (Nat.not_lt.2 (ho.fresh k ha).2.1)
  given h hh := by
    rcases mem_openLoops_of_answers ho hh with hh | rfl
    · exact Nat.lt_of_lt_of_le (hs.given h hh) ho.loops
    · exact (ho.fresh h rfl).2.2

/-- An open loop has one label behind it at most. -/
theorem Distinct.exits_unique (hs : s.Distinct) {x y : Option Label} (hx : (h, x) ∈ s.exits)
    (hy : (h, y) ∈ s.exits) : x = y := by
  have hnodup := hs.nodup
  rw [openLoops_eq_exits] at hnodup
  exact congrArg Prod.snd (List.inj_on_of_nodup_map hnodup hx hy rfl)

/-- A construct that can be broken out of **stays** where it is, or it is innermost and closed. -/
theorem Turned.encloses {b : Bracket} {c : Construct} {os : List Construct} (h : s.Turned b s')
    (hc : c.handle?.isSome) (hs : c :: os <:+ s.outline) :
    c :: os <:+ s'.outline ∨ b = .closes c.kind ∧ s.outline = c :: os ∧ s'.outline = os := by
  -- no other construct is mistaken for it
  have hother : ∀ {d : Construct} {rest : List Construct}, d.handle? = none → c :: os <:+ d :: rest →
      c :: os <:+ rest := by
    intro d rest hd hsuffix
    rcases List.suffix_cons_iff.1 hsuffix with heq | hsuffix
    · cases heq
      rw [hd] at hc
      cases hc
    · exact hsuffix
  have hinnermost : ∀ {d : Construct}, s.outline = d :: s'.outline → b = .closes d.kind →
      c :: os <:+ s'.outline ∨ b = .closes c.kind ∧ s.outline = c :: os ∧ s'.outline = os := by
    intro d hd hb
    rw [hd] at hs
    rcases List.suffix_cons_iff.1 hs with heq | hsuffix
    · cases heq
      exact .inr ⟨hb, hd, rfl⟩
    · exact .inl hsuffix
  have hturns := h.outline
  cases b with
  | plain => exact .inl (hturns ▸ hs)
  | opens k =>
    obtain ⟨d, -, hcs⟩ := hturns
    exact .inl (hcs ▸ List.suffix_cons_iff.2 (.inr hs))
  | alternative =>
    obtain ⟨o, o', f, rest, hcs, hcs', -⟩ := hturns
    rw [hcs] at hs
    exact .inl (hcs' ▸ List.suffix_cons_iff.2 (.inr (hother rfl hs)))
  | part =>
    obtain ⟨d, f, given, given', rest, hcs, hcs'⟩ := hturns
    rw [hcs] at hs
    exact .inl (hcs' ▸ List.suffix_cons_iff.2 (.inr (hother rfl hs)))
  | body =>
    obtain ⟨head, o, f, rest, hcs, hcs'⟩ := hturns
    rw [hcs] at hs
    have hrest := hother rfl hs
    exact .inl (hcs' ▸ List.suffix_cons_iff.2 (.inr (List.suffix_cons_iff.2 (.inr hrest))))
  | closes k =>
    cases k with
    | conditional =>
      obtain ⟨o, f, hcs, -⟩ := hturns
      exact hinnermost hcs rfl
    | whileLoop =>
      obtain ⟨head, o, f, hcs, -⟩ := hturns
      rw [hcs] at hs
      exact .inl (hother rfl (hother rfl hs))
    | _ =>
      obtain ⟨d, hd, hcs⟩ := hturns
      exact hinnermost hcs (congrArg _ hd.symm)

end Session

/-- The label behind an open loop **stays**, and only a break out of the loop defines it. -/
theorem Operation.exit_perform {o : Operation} {a : Answer} {level : TraceDetail} {s s' : Session} {h : LoopHandle}
    {x : Option Label} (hs : s.Fit) (hd : s.Distinct) (hrun : (o.perform.run (.ofLevel level)).run s = .ok a s')
    (hx : (h, x) ∈ s.exits) (hh : h ∈ s'.openLoops) :
    ∃ x', (h, x') ∈ s'.exits ∧ (h ∉ o.loops → x' = x) ∧ (x ≠ none → x' = x) := by
  have hd' := hd.answers (answers_perform hs hrun)
  rcases exits_perform hs hrun with ⟨-, hloops, e, hexits⟩ | ⟨-, new, -, hexits⟩ |
    ⟨k, l, front, y, back, hk, hexits, hexits', hy⟩
  · have hmem := hx
    rw [hexits] at hmem
    rcases List.mem_cons.1 hmem with rfl | hmem
    · -- the loop would be open twice
      have hnodup := hd.nodup
      rw [Session.openLoops_eq_exits, hexits, List.map_cons, ← Session.openLoops_eq_exits] at hnodup
      exact absurd hh (List.nodup_cons.1 hnodup).1
    · exact ⟨x, hmem, fun _ => rfl, fun _ => rfl⟩
  · exact ⟨x, by rw [hexits]; exact List.mem_append_right _ hx, fun _ => rfl, fun _ => rfl⟩
  · by_cases heq : k = h
    · subst heq
      obtain rfl := hd.exits_unique hx (hexits ▸ List.mem_append_right _ List.mem_cons_self)
      refine ⟨some l, hexits' ▸ List.mem_append_right _ List.mem_cons_self, fun hnot => absurd hk hnot, fun hne => ?_⟩
      exact (hy.resolve_left hne).symm
    · refine ⟨x, ?_, fun _ => rfl, fun _ => rfl⟩
      rw [hexits] at hx
      rw [hexits']
      rcases List.mem_append.1 hx with hx | hx
      · exact List.mem_append_left _ hx
      · rcases List.mem_cons.1 hx with hx | hx
        · exact absurd (congrArg Prod.fst hx).symm heq
        · exact List.mem_append_right _ (List.mem_cons_of_mem _ hx)

namespace Builder

/-! ## Runs of calls -/

variable {level : TraceDetail} {cs : List Call} {s s' f : Session} {h : LoopHandle} {o : Operation}

/-- One accepted call **answers** and turns the session, and what was made known is handed over. -/
theorem Takes.answered {a : Answer} {s₁ : Session} (hs : s.Fit)
    (hrun : (o.perform.run (.ofLevel level)).run s = .ok a s₁) :
    o.Answers a s { s₁ with notices := #[] } ∧ s.Turned o.bracket { s₁ with notices := #[] } := by
  have hturned := o.turns_perform level s s₁ a hs hrun
  have hanswers := Operation.answers_perform hs hrun
  have hbehind := hturned.behind (Session.spares_delivered hturned.fit).turned
  exact ⟨⟨hbehind.toOnward, hanswers.issued, hanswers.fresh, hanswers.openLoops⟩, hbehind⟩

/-- Accepted calls lead **onward**. -/
theorem Takes.onward (ht : Takes level cs s s') (hs : s.Fit) : s.Onward s' := by
  induction ht with
  | nil => exact (Session.Turned.refl hs).toOnward
  | cons hrun _ ih =>
    have hone := (Takes.answered hs hrun).1.toOnward
    exact hone.trans (ih hone.fit)

theorem Takes.distinct (ht : Takes level cs s s') (hs : s.Fit) (hd : s.Distinct) : s'.Distinct := by
  induction ht with
  | nil => exact hd
  | cons hrun _ ih =>
    have hone := (Takes.answered hs hrun).1
    exact ih hone.fit (hd.answers hone)

/-- A loop that is closed is never open again. -/
theorem Takes.openLoops_of_mem (ht : Takes level cs s s') (hs : s.Fit) (hold : h.id < s.nextLoop)
    (hh : h ∈ s'.openLoops) : h ∈ s.openLoops := by
  induction ht with
  | nil => exact hh
  | cons hrun _ ih =>
    have hone := (Takes.answered hs hrun).1
    rcases Session.mem_openLoops_of_answers hone (ih hone.fit (Nat.lt_of_lt_of_le hold hone.loops) hh) with hh | rfl
    · exact hh
    · exact absurd hold (Nat.not_lt.2 (hone.fresh h rfl).2.1)

/-- As long as a loop is open, the label behind it **stays**, and only breaks out of the loop define it. -/
theorem Takes.exit {x : Option Label} (ht : Takes level cs s s') (hs : s.Fit) (hd : s.Distinct)
    (hx : (h, x) ∈ s.exits) (hh : h ∈ s'.openLoops) :
    ∃ x', (h, x') ∈ s'.exits ∧ ((∀ o, .perform o ∈ cs → h ∉ o.loops) → x' = x) ∧ (x ≠ none → x' = x) := by
  induction ht generalizing x with
  | nil => exact ⟨x, hx, fun _ => rfl, fun _ => rfl⟩
  | @cons o a s s₁ s' cs hrun hrest ih =>
    have hone := (Takes.answered hs hrun).1
    have hgiven : h.id < s.nextLoop :=
      hd.given h (by rw [Session.openLoops_eq_exits]; exact List.mem_map_of_mem hx)
    have hstill := hrest.openLoops_of_mem hone.fit (Nat.lt_of_lt_of_le hgiven hone.loops) hh
    obtain ⟨y, hy, hnone, hkept⟩ := Operation.exit_perform hs hd hrun hx hstill
    obtain ⟨x', hx', hnone', hkept'⟩ := ih hone.fit (hd.answers hone) hy hh
    refine ⟨x', hx', fun hcs => ?_, fun hne => ?_⟩
    · rw [hnone' fun o ho => hcs o (List.mem_cons_of_mem _ ho), hnone (hcs o List.mem_cons_self)]
    · have hsame := hkept hne
      rw [hkept' (hsame ▸ hne), hsame]

/-- A loop that is open behind calls was **opened** by one of them, or it was open before. -/
theorem Takes.opened (ht : Takes level cs s s') (hs : s.Fit) (hh : h ∈ s'.openLoops) (hnot : h ∉ s.openLoops) :
    ∃ before opening inside x y, cs = before ++ .perform opening :: inside ∧ Takes level before s x ∧
      (opening.perform.run (.ofLevel level)).run x = .ok (.loop h) y := by
  induction ht with
  | nil => exact absurd hh hnot
  | @cons o a s s₁ s' cs hrun hrest ih =>
    have hone := (Takes.answered hs hrun).1
    by_cases hfirst : h ∈ ({ s₁ with notices := #[] } : Session).openLoops
    · obtain rfl := (Session.mem_openLoops_of_answers hone hfirst).resolve_left hnot
      exact ⟨[], o, cs, s, s₁, rfl, .nil s, hrun⟩
    · obtain ⟨before, opening, inside, x, y, rfl, hbefore, hopen⟩ := ih hone.fit hh hfirst
      exact ⟨.perform o :: before, opening, inside, x, y, rfl, .cons hrun hbefore, hopen⟩

/-- What can be broken out of and is not open any more at the end of calls was **closed** by one of them, and until
then nothing around it changed. -/
theorem Takes.closed {c : Construct} {os : List Construct} (ht : Takes level cs s f) (hs : s.Fit)
    (hc : c.handle?.isSome) (hopen : c :: os <:+ s.outline) (hf : f.outline = []) :
    ∃ inside closing behind y z, cs = inside ++ .perform closing :: behind ∧ Takes level inside s y ∧
      Takes level [.perform closing] y z ∧ Takes level behind z f ∧ closing.bracket = .closes c.kind ∧
      y.outline = c :: os ∧ z.outline = os := by
  induction ht with
  | nil =>
    rw [hf] at hopen
    cases List.suffix_nil.1 hopen
  | @cons o a s s₁ f cs hrun hrest ih =>
    have hone := (Takes.answered hs hrun).2
    rcases hone.encloses hc hopen with hstays | ⟨hbracket, hbefore, hbehind⟩
    · obtain ⟨inside, closing, behind, y, z, rfl, hin, hclosing, hout⟩ := ih hone.fit hstays hf
      exact ⟨.perform o :: inside, closing, behind, y, z, rfl, .cons hrun hin, hclosing, hout⟩
    · exact ⟨[], o, cs, s, _, rfl, .nil s, .cons hrun (.nil _), hrest, hbracket, hbefore, hbehind⟩

end Builder

/-! ## What the calls of a loop record -/

namespace Emit

variable {level : TraceDetail} {s s' : Session} {h : LoopHandle} {loop : LoopState}

/-- A loop that is opened begins with its body somewhere in what is recorded. -/
theorem body_of_opens (level : TraceDetail) (slot : Option Local) (bound : Operand) (e f : LoopState → Emit Unit)
    {c : LoopState → Construct} (he : ∀ k : LoopState, Inside k.labels → (e k).Moves)
    (hf : ∀ k : LoopState, (f k).Moves) (hs : s.Inner)
    (hrun : ((do
      let k ← newLoop slot bound
      e k
      markHere k.body
      f k
      openConstruct (c k)
      pure k.handle).run (.ofLevel level)).run s = .ok h s') :
    ∃ k cs n, s'.constructs = c k :: cs ∧ k.handle = h ∧ k.exit = none ∧ s.code.size ≤ n ∧ n ≤ s'.code.size ∧
      s'.labels.MarkedAt k.body n := by
  have ht := Tracer.moves_ofLevel level
  obtain ⟨k, s₁, hnew, hrun⟩ := run_bind_eq_ok.1 hrun
  have hexit : k.exit = none := by
    rw [run_newLoop] at hnew
    cases hnew
    rfl
  obtain ⟨hgrows₁, hlabels⟩ := gives_newLoop slot bound _ ht s s₁ k hs hnew
  obtain ⟨_, s₂, hfront, hrun⟩ := run_bind_eq_ok.1 hrun
  have hgrows₂ := (he k hlabels _ ht s₁ s₂ _ (hgrows₁.inner hs) hfront).1
  obtain ⟨_, s₃, hmark, hrun⟩ := run_bind_eq_ok.1 hrun
  have hgrows₃ := (moves_markHere (hlabels _ List.mem_cons_self) _ ht s₂ s₃ _
    (hgrows₂.inner (hgrows₁.inner hs)) hmark).1
  obtain ⟨_, s₄, hbehind, hrun⟩ := run_bind_eq_ok.1 hrun
  have hgrows₄ := (hf k _ ht s₃ s₄ _ (hgrows₃.inner (hgrows₂.inner (hgrows₁.inner hs))) hbehind).1
  cases hrun
  have hbefore := (hgrows₁.trans hgrows₂).extends.size
  have hafter := (hgrows₃.trans hgrows₄).extends.size
  exact ⟨k, s₄.constructs, s₂.code.size, rfl, rfl, hexit, hbefore, hafter,
    hgrows₄.extends.marks _ _ (tells_markHere hmark).2⟩

/-- The label of the test is inside the procedure. -/
theorem inside_test {k : LoopState} (hk : Inside k.labels) : k.test.id ≠ 0 :=
  hk _ (List.mem_cons_of_mem _ List.mem_cons_self)

theorem body_of_openFor {index : Option Local} {start bound : Operand} (hs : s.Inner)
    (hrun : ((openFor index start bound).run (.ofLevel level)).run s = .ok h s') :
    ∃ k cs n, s'.constructs = .counted k :: cs ∧ k.handle = h ∧ k.exit = none ∧ s.code.size ≤ n ∧
      n ≤ s'.code.size ∧ s'.labels.MarkedAt k.body n := by
  cases index with
  | none =>
    refine body_of_opens level none bound (fun _ => pure ()) (fun _ => pure ()) (fun _ _ => moves_pure _)
      (fun _ => moves_pure _) hs ?_
    simp only [pure_bind]
    exact hrun
  | some l =>
    refine body_of_opens level (some l) bound (fun k => do load start; storeLocal l; jumpTo k.test)
      (fun _ => pure ()) (fun k hk => (moves_load _).bind fun _ => (moves_storeLocal _).bind fun _ =>
        moves_jumpTo (inside_test hk)) (fun _ => moves_pure _) hs ?_
    simp only [bind_assoc, pure_bind]
    exact hrun

theorem body_of_openEach {l : Local} {element : Ty} {enumerator : Local} {getCurrent : Method} (hs : s.Inner)
    (hrun : ((openEach l element enumerator getCurrent).run (.ofLevel level)).run s = .ok h s') :
    ∃ k cs n, s'.constructs = .enumerated k :: cs ∧ k.handle = h ∧ k.exit = none ∧ s.code.size ≤ n ∧
      n ≤ s'.code.size ∧ s'.labels.MarkedAt k.body n := by
  refine body_of_opens level (some l) (.variable enumerator) (fun k => jumpTo k.test)
    (fun k => do callWith (some k.bound) getCurrent []; convertTop element l.type; storeLocal l)
    (fun k hk => moves_jumpTo (inside_test hk))
    (fun k => (moves_callWith _ _ _).bind fun _ => (moves_convertTop _ _).bind fun _ => moves_storeLocal _) hs ?_
  simp only [bind_assoc]
  exact hrun

/-- A loop **goes back** to its body, and nothing is behind that but a line, where the label behind the loop is
marked if there is one. -/
def GoesBack (loop : LoopState) (s s' : Session) : Prop :=
  ∃ (s₁ : Session) (j : Jump Label), s.Extends s₁ ∧ j.targets = [loop.body] ∧ (s₁.jumped j).Tells s' ∧
    (∀ l, loop.exit = some l → s'.labels.MarkedAt l (s₁.code.size + 1)) ∧
    (loop.exit = none → s'.code.size = s₁.code.size + 1)

theorem goesBack_of (level : TraceDetail) (e : Emit Unit) (text : String) (j : Jump Label) (he : e.Moves) (hs : s.Inner)
    (hj : j.targets = [loop.body])
    (hrun : ((do e; note text; jump j; markExit loop : Emit Unit).run (.ofLevel level)).run s = .ok () s') :
    GoesBack loop s s' := by
  obtain ⟨_, s₁, hfront, hrun⟩ := run_bind_eq_ok.1 hrun
  have hgrows := (he _ (Tracer.moves_ofLevel level) s s₁ _ hs hfront).1
  obtain ⟨_, s₂, hnote, hrun⟩ := run_bind_eq_ok.1 hrun
  obtain ⟨_, s₃, hjump, hexit⟩ := run_bind_eq_ok.1 hrun
  have hline := tells_note hnote
  obtain ⟨-, rfl⟩ := jumped_of_jump hjump
  have hsize : (s₂.jumped j).code.size = s₂.code.size + 1 := by simp
  refine ⟨s₂, j, hgrows.extends.trans hline.further, hj, tells_markExit hexit, fun l hl => ?_, fun hnone => ?_⟩
  · rw [markExit, hl] at hexit
    exact hsize ▸ (tells_markHere hexit).2
  · rw [markExit, hnone] at hexit
    cases hexit
    exact hsize

/-- What the innermost construct and those around it remember is inside the procedure. -/
theorem inner_of_cons {c : Construct} {cs : List Construct} (hs : s.Inner) (hcs : s.constructs = c :: cs) :
    Inside c.labels ∧ (s.withConstructs cs).Inner :=
  ⟨hs.constructs c (hcs ▸ List.mem_cons_self),
    fun d hd => hs.constructs d (hcs ▸ List.mem_cons_of_mem _ hd), hs.labels⟩

theorem goesBack_of_closeFor {cs : List Construct} (hs : s.Inner) (hcs : s.constructs = .counted loop :: cs)
    (hrun : (closeFor.run (.ofLevel level)).run s = .ok () s') : GoesBack loop (s.withConstructs cs) s' := by
  obtain ⟨found, s₀, htake, hrun⟩ := run_bind_eq_ok.1 hrun
  rw [run_takeCounted _ s hcs] at htake
  cases htake
  obtain ⟨hlabels, hinner⟩ := inner_of_cons hs hcs
  cases hslot : loop.slot with
  | none =>
    rw [hslot] at hrun
    refine goesBack_of level (pure ()) ("Br " ++ loop.body.text) (.always loop.body) (moves_pure _) hinner rfl ?_
    simpa only [pure_bind, jumpTo, bind_assoc] using hrun
  | some l =>
    rw [hslot] at hrun
    refine goesBack_of level
      (do
        loadLocal l
        loadInt 1
        traced "Add" .add
        storeLocal l
        markHere loop.test
        loadLocal l
        load loop.bound
        if loop.bound.type.isArray then loadLength)
      ("Blt " ++ loop.body.text) (.compare .lessThan loop.body)
      ((moves_loadLocal l).bind fun _ => (moves_loadInt 1).bind fun _ => (moves_traced _ _).bind fun _ =>
        (moves_storeLocal l).bind fun _ => (moves_markHere (inside_test hlabels)).bind fun _ =>
          (moves_loadLocal l).bind fun _ => (moves_load _).bind fun _ => Gives.ite moves_loadLength (moves_pure _))
      hinner rfl ?_
    by_cases ht : loop.bound.type.isArray
    · simpa only [if_pos ht, bind_assoc, jumpIfLess] using hrun
    · simpa only [if_neg ht, bind_assoc, pure_bind, jumpIfLess] using hrun

theorem goesBack_of_closeEach {cs : List Construct} {moveNext : Method} (hs : s.Inner)
    (hcs : s.constructs = .enumerated loop :: cs)
    (hrun : ((closeEach moveNext).run (.ofLevel level)).run s = .ok () s') :
    GoesBack loop (s.withConstructs cs) s' := by
  obtain ⟨found, s₀, htake, hrun⟩ := run_bind_eq_ok.1 hrun
  rw [run_takeEnumerated hcs] at htake
  cases htake
  obtain ⟨hlabels, hinner⟩ := inner_of_cons hs hcs
  refine goesBack_of level (do markHere loop.test; callWith (some loop.bound) moveNext [])
    ("Brtrue " ++ loop.body.text) (.ifTrue loop.body)
    ((moves_markHere (inside_test hlabels)).bind fun _ => moves_callWith _ _ _) hinner rfl ?_
  simpa only [bind_assoc, jumpIfTrue] using hrun

end Emit

namespace Operation

variable {o : Operation} {level : TraceDetail} {s s' : Session} {h : LoopHandle} {m : Machine} {rest : List Value}

/-- What answers a loop **opens** it: a loop with that handle is innermost, and its body begins somewhere in what
is recorded. -/
theorem opening_of_loop (hs : s.Inner) (hrun : (o.perform.run (.ofLevel level)).run s = .ok (.loop h) s') :
    ∃ c k cs n, s'.constructs = c :: cs ∧ c.loop? = some k ∧ o.bracket = .opens c.kind ∧ k.handle = h ∧
      k.exit = none ∧ s.code.size ≤ n ∧ n ≤ s'.code.size ∧ s'.labels.MarkedAt k.body n := by
  cases o with
  | openFor index start bound =>
    obtain ⟨h', heq, hopen⟩ := eq_map hrun
    cases heq
    obtain ⟨k, cs, n, hcs, hbody⟩ := Emit.body_of_openFor hs hopen
    exact ⟨_, k, cs, n, hcs, rfl, rfl, hbody⟩
  | openEach l element enumerator m =>
    obtain ⟨h', heq, hopen⟩ := eq_map hrun
    cases heq
    obtain ⟨k, cs, n, hcs, hbody⟩ := Emit.body_of_openEach hs hopen
    exact ⟨_, k, cs, n, hcs, rfl, rfl, hbody⟩
  | newLabel => obtain ⟨_, heq, -⟩ := eq_map hrun; cases heq
  | openSwitch n => obtain ⟨_, heq, -⟩ := eq_map hrun; cases heq
  | arg i => obtain ⟨_, heq, -⟩ := eq_map hrun; cases heq
  | newLocal T name => obtain ⟨_, heq, -⟩ := eq_map hrun; cases heq
  | newLocalWith T name init => obtain ⟨_, heq, -⟩ := eq_map hrun; cases heq
  | getMember m => obtain ⟨_, heq, -⟩ := eq_map hrun; cases heq
  | _ => cases eq_done hrun

/-- A break is **taken**, and it leaves a stack. -/
def Taken (o : Operation) (m : Machine) (rest : List Value) : Prop :=
  match o with
  | .leaveIfTrue _ => ∃ v, m.frame.stack = v :: rest ∧ v.condition? = some true
  | .leaveIfFalse _ => ∃ v, m.frame.stack = v :: rest ∧ v.condition? = some false
  | _ => m.frame.stack = rest

/-- Reports do not matter. -/
theorem Taken.alike {m' : Machine} (h : o.Taken m rest) (hm : m.Alike m') : o.Taken m' rest := by
  cases o <;> simpa only [Taken, hm.frame] using h

/-- The jump of a break that is taken goes to its label. -/
theorem Taken.follow (ho : h ∈ o.loops) (ht : o.Taken m rest) (q : Nat) :
    (o.breakTo q).follow.run m = .ok (some q) (m.withStack rest) := by
  obtain ⟨⟨args, locals, stack⟩, world⟩ := m
  cases o with
  | leave k =>
    obtain rfl := ht
    rfl
  | leaveIfTrue k =>
    obtain ⟨v, hstack, hv⟩ := ht
    obtain rfl : stack = v :: rest := hstack
    show (do
      return if ← (Host.expect "branch condition" v v.condition? : Host Bool) then some q else none :
        Exec (Option Nat)).run ⟨⟨args, locals, rest⟩, world⟩ = _
    rw [hv]
    rfl
  | leaveIfFalse k =>
    obtain ⟨v, hstack, hv⟩ := ht
    obtain rfl : stack = v :: rest := hstack
    show (do
      return if ← (Host.expect "branch condition" v v.condition? : Host Bool) then none else some q :
        Exec (Option Nat)).run ⟨⟨args, locals, rest⟩, world⟩ = _
    rw [hv]
    rfl
  | _ => cases ho

/-- An operation that closes a loop **goes back** to its body, and marks the label behind it. -/
theorem goesBack_of_perform {a : Answer} {c : Construct} {k : LoopState} {os : List Construct} (hs : s.Inner)
    (hc : c.loop? = some k) (hopen : s.outline = c.bare :: os) (ho : o.bracket = .closes c.kind)
    (hrun : (o.perform.run (.ofLevel level)).run s = .ok a s') :
    ∃ k' cs, k'.body = k.body ∧ (k.handle, k'.exit) ∈ s.exits ∧ Emit.GoesBack k' (s.withConstructs cs) s' := by
  obtain ⟨d, cs, hcs, hd, -⟩ := List.map_eq_cons_iff.1 hopen
  cases c with
  | counted loop =>
    cases hc
    obtain ⟨exit, rfl⟩ := Construct.bare_eq_counted hd
    obtain rfl : o = .closeFor := by cases o <;> first | rfl | cases ho
    obtain ⟨_, s₁, hclose, hdone⟩ := Emit.run_bind_eq_ok.1 hrun
    cases hdone
    have hexit : (k.handle, exit) ∈ s.exits := by
      rw [Session.exits, hcs]
      exact List.mem_cons_self
    exact ⟨{ k with exit }, cs, rfl, hexit, Emit.goesBack_of_closeFor hs hcs hclose⟩
  | enumerated loop =>
    cases hc
    obtain ⟨exit, rfl⟩ := Construct.bare_eq_enumerated hd
    obtain ⟨moveNext, rfl⟩ : ∃ moveNext, o = .closeEach moveNext := by
      cases o <;> first | exact ⟨_, rfl⟩ | cases ho
    obtain ⟨_, s₁, hclose, hdone⟩ := Emit.run_bind_eq_ok.1 hrun
    cases hdone
    have hexit : (k.handle, exit) ∈ s.exits := by
      rw [Session.exits, hcs]
      exact List.mem_cons_self
    exact ⟨{ k with exit }, cs, rfl, hexit, Emit.goesBack_of_closeEach hs hcs hclose⟩
  | _ => cases hc

end Operation

/-- The label behind an open loop is the one that a break out of it finds. -/
theorem Session.Distinct.exit?_eq {s : Session} {h : LoopHandle} {x : Option Label} (hs : s.Distinct)
    (hx : (h, x) ∈ s.exits) : s.exit? h = x := by
  have hopen : h ∈ s.constructs.filterMap Construct.handle? := by
    have hmem : h ∈ s.openLoops := by
      rw [openLoops_eq_exits]
      exact List.mem_map_of_mem hx
    exact hmem
  obtain ⟨-, -, k, -, hk⟩ := Construct.findLoop?_of_mem hopen
  obtain ⟨front, c, back, hcs, hc, rfl, -⟩ := Construct.split_of_findLoop? hk
  have hfound : (k.handle, k.exit) ∈ s.exits :=
    List.mem_filterMap.2 ⟨c, hcs ▸ List.mem_append_right _ List.mem_cons_self, by rw [Construct.exit?, hc]; rfl⟩
  rw [exit?, hk]
  exact hs.exits_unique hfound hx

namespace Builder

/-! ## Loops and their breaks -/

open Procedure (Stretch)

/-- The label behind an open loop, if something broke out of it. -/
def exit? (b : Builder) (h : LoopHandle) : Option Label :=
  match b.state with
  | .building s => s.exit? h
  | .aborted | .finalized => none

/-- How many labels were defined. -/
def labelCount (b : Builder) : Nat :=
  match b.state with
  | .building s => s.labels.entries.size
  | .aborted | .finalized => 0

/-- A **loop** of a procedure: the call that opens it behind a builder, the calls inside of it, and the call that
closes it and ends at a position. Its **closing branch** is the last thing that it does. -/
structure IsLoop (p : Procedure) (b : Builder) (h : LoopHandle) (opening : Operation) (inside : List Call)
    (closing : Operation) (branch last : Nat) : Prop where
  /-- The call that opens it answers its handle. -/
  opens : (b.perform opening).result = .ok (.loop h)
  /-- The construct that is closed is the one that was opened. -/
  closes : ∃ c : Construct, c.handle? = some h ∧ (b.after [.perform opening]).outline = c :: b.outline ∧
    (b.after (.perform opening :: inside)).outline = c :: b.outline ∧ closing.bracket = .closes c.kind
  /-- The call that closes it ends there. -/
  ends : (b.after (.perform opening :: (inside ++ [.perform closing]))).position = last
  /-- The closing branch goes back to where the body begins. -/
  goesBack : (b.after (.perform opening :: inside)).position ≤ branch ∧ ∃ j start, p.code[branch]? = some (.jump j) ∧
    j.targets = [start] ∧ b.position ≤ start ∧ start ≤ (b.after [.perform opening]).position
  /-- Nothing but reports is behind it. -/
  behind : branch < last ∧ p.Slides (branch + 1) last

/-- A call **leaves** a loop for a position, from where a run gets to the end of what closes the loop. -/
structure Leaves (p : Procedure) (b : Builder) (o : Operation) (h : LoopHandle) (target last : Nat) : Prop where
  /-- Behind reports, it is a jump to the position. -/
  jump : ∃ n, b.position ≤ n ∧ (b.after [.perform o]).position = n + 1 ∧ p.Slides b.position n ∧
    p.code[n]? = some (.jump (o.breakTo target))
  /-- Where it is taken, a run goes on at that position, and all else is as it was. -/
  taken : ∀ (m : Machine) (rest : List Value), o.Taken m rest → ∃ m', p.Along
    (fun i => Stretch b.position (b.after [.perform o]).position i ∨ Stretch target last i) b.position m last m' ∧
      (m.withStack rest).Alike m'
  /-- The first break of a loop, and no other, defines a label. -/
  defines : (b.after [.perform o]).labelCount = b.labelCount + if (b.exit? h).isSome then 0 else 1
  /-- From then on there is a label behind the loop. -/
  labels : ((b.after [.perform o]).exit? h).isSome

variable {number : Nat} {name : String} {signature : Signature} {sink : Sink} {level : TraceDetail}
  {s s' x y z f : Session} {p : Procedure} {h : LoopHandle} {o opening closing : Operation} {inside : List Call}

/-- An accepted break is out of a loop that is open. -/
theorem Takes.mem_openLoops (ht : Takes level [.perform o] s s') (ho : h ∈ o.loops) : h ∈ s.openLoops := by
  obtain ⟨a, s₀, hrun, -⟩ := ht.one
  obtain ⟨l, s₁, line, hexit, -⟩ := Operation.broken_of_perform ho hrun
  obtain ⟨front, x, back, hbefore, -⟩ := Emit.exit_of_exitOf hexit
  rw [Session.openLoops_eq_exits, hbefore]
  exact List.mem_map_of_mem (List.mem_append_right _ List.mem_cons_self)

/-- What a break records is a jump to the label behind its loop. -/
theorem left_of_takes (hp : p.Fits f) (ho : h ∈ o.loops) (ht : Takes level [.perform o] s s') (hf : s'.Extends f) :
    ∃ l n q, (h, some l) ∈ s'.exits ∧ f.labels.MarkedAt l q ∧ s.code.size ≤ n ∧
      s'.code.size = n + 1 ∧ p.Slides s.code.size n ∧ p.code[n]? = some (.jump (o.breakTo q)) ∧
      s'.labels.entries.size = s.labels.entries.size + if (s.exit? h).isSome then 0 else 1 := by
  obtain ⟨a, s₀, hrun, rfl⟩ := ht.one
  obtain ⟨l, s₁, line, hexit, rfl⟩ := Operation.broken_of_perform ho hrun
  obtain ⟨front, x, back, -, hbehind, hfound, hx⟩ := Emit.exit_of_exitOf hexit
  have hlast : ((s₁.written (.ofLevel level) line).jumped (o.breakTo l)).Extends f :=
    (Session.tells_delivered _).further.trans hf
  have hline := s₁.tells_written (.ofLevel level) line
  have hslides := hline.slides hp ((Session.extends_jumped _ _).trans hlast)
  have hle := hline.further.size
  -- a new label records nothing
  have hcode : s₁.code = s.code := by
    rcases hx with ⟨-, rfl⟩ | ⟨-, -, rfl⟩ <;> rfl
  rw [hcode] at hslides hle
  have hmap : (o.breakTo l).mapTargets f.labels.position = o.breakTo <$> f.labels.position l := by
    cases o <;> rfl
  obtain ⟨q, hq, hjump⟩ := hp.goes hmap hlast
  have hexits : ((s₁.written (.ofLevel level) line).jumped (o.breakTo l)).exits = s₁.exits := by
    simp [Session.exits]
  refine ⟨l, _, q, ?_, hq, hle, by simp, hslides, hjump, ?_⟩
  · show (h, some l) ∈ ((s₁.written (.ofLevel level) line).jumped (o.breakTo l)).exits
    rw [hexits, hbehind]
    exact List.mem_append_right _ List.mem_cons_self
  · show ((s₁.written (.ofLevel level) line).jumped (o.breakTo l)).labels.entries.size = _
    rw [hfound]
    rcases hx with ⟨rfl, rfl⟩ | ⟨rfl, -, rfl⟩ <;> simp

/-- A break whose label is marked at a position **leaves** the loop for it. -/
theorem leaves_of_takes {target last : Nat} {l : Label} (hp : p.Fits f) (hd : s'.Distinct) (ho : h ∈ o.loops)
    (ht : Takes level [.perform o] s s') (hf : s'.Extends f) (hl : (h, some l) ∈ s'.exits)
    (htarget : f.labels.MarkedAt l target) (hslides : p.Slides target last) (sink : Sink) :
    Leaves p (taking sink level s) o h target last := by
  obtain ⟨l', n, q, hl', hq, hn, hsize, hlines, hjump, hcount⟩ := left_of_takes hp ho ht hf
  cases hd.exits_unique hl hl'
  cases htarget.unique hq
  have hafter := ht.taking sink
  refine ⟨⟨n, hn, ?_, hlines, hjump⟩, fun m rest htaken => ?_, ?_, ?_⟩
  · rw [hafter]
    exact hsize
  · rw [hafter]
    show ∃ m', p.Along (fun i => Stretch s.code.size s'.code.size i ∨ Stretch target last i) s.code.size m last m' ∧ _
    obtain ⟨m₁, hreports, halike⟩ := hlines.along
      (P := fun i => Stretch s.code.size s'.code.size i ∨ Stretch target last i)
      (fun i hi hi' => .inl ⟨hi, by omega⟩) m
    obtain ⟨m₂, hreports', halike'⟩ := hslides.along
      (P := fun i => Stretch s.code.size s'.code.size i ∨ Stretch target last i)
      (fun i hi hi' => .inr ⟨hi, hi'⟩) (m₁.withStack rest)
    exact ⟨m₂, hreports.trans (.jump (.inl ⟨hn, by omega⟩) hjump ((htaken.alike halike).follow ho target) hreports'),
      (halike.withStack rest).trans halike'⟩
  · rw [hafter]
    exact hcount
  · rw [hafter]
    show (s'.exit? h).isSome
    rw [hd.exit?_eq hl]
    rfl

/-- **A loop that is opened is closed**, and the label behind it is marked directly behind the closing branch. -/
theorem isLoop_of_takes {rest : List Call} (hp : p.Fits f) (hs : s.Fit) (hinner : s.Inner)
    (hinside : ∀ call ∈ .perform opening :: rest, Emit.Inside call.handed) (hf : f.outline = [])
    (hopen : Takes level [.perform opening] s x) (hrest : Takes level rest x f) (sink : Sink)
    (hanswer : ((taking sink level s).perform opening).result = .ok (.loop h)) :
    ∃ inside closing behind y z branch e, rest = inside ++ .perform closing :: behind ∧ Takes level inside x y ∧
      Takes level [.perform closing] y z ∧ Takes level behind z f ∧ s.nextLoop ≤ h.id ∧ h.id < x.nextLoop ∧
      (h, none) ∈ x.exits ∧ (h, e) ∈ y.exits ∧ z.openLoops = s.openLoops ∧
      (∀ l, e = some l → f.labels.MarkedAt l (branch + 1)) ∧ (e = none → z.code.size = branch + 1) ∧
      IsLoop p (taking sink level s) h opening inside closing branch z.code.size := by
  obtain ⟨a, s₁, hrun, rfl⟩ := hopen.one
  have hresult := congrArg Outcome.result (perform_ok (b := taking sink level s) rfl hrun)
  obtain rfl : a = .loop h := Except.ok.inj (hresult.symm.trans hanswer)
  obtain ⟨c, k, cs, n, hcs, hk, hbracket, rfl, hnone, hfirst, hbegins, hbody⟩ := Operation.opening_of_loop hinner hrun
  obtain ⟨hanswers, hturned⟩ := Takes.answered hs hrun
  obtain ⟨-, hold, hnew⟩ := hanswers.fresh k.handle rfl
  have hhandle : c.bare.handle? = some k.handle := by rw [Construct.handle?_bare, Construct.handle?, hk]; rfl
  -- the construct that was opened is innermost
  have hx : ({ s₁ with notices := #[] } : Session).outline = c.bare :: s.outline := by
    have hopens := hturned.outline
    rw [hbracket] at hopens
    obtain ⟨d, -, hd⟩ := hopens
    have houtline : ({ s₁ with notices := #[] } : Session).outline = c.bare :: cs.map Construct.bare :=
      congrArg (List.map Construct.bare) hcs
    rw [hd] at houtline
    rw [hd, (List.cons.inj houtline).1]
  have hexit : (k.handle, none) ∈ ({ s₁ with notices := #[] } : Session).exits := by
    have hfound : c.exit? = some (k.handle, none) := by rw [Construct.exit?, hk, Option.map_some, hnone]
    exact List.mem_filterMap.2 ⟨c, by rw [show _ = c :: cs from hcs]; exact List.mem_cons_self, hfound⟩
  obtain ⟨inside, closing, behind, y, z, rfl, hin, hclosing, hout, hcloses, hy, hz⟩ :=
    hrest.closed hturned.fit (c := c.bare) (by rw [hhandle]; rfl) ⟨[], hx.symm⟩ hf
  obtain ⟨hcall, hcalls⟩ := List.forall_mem_cons.1 hinside
  obtain ⟨hcalls, hlater⟩ := List.forall_mem_append.1 hcalls
  obtain ⟨hend, hlater⟩ := List.forall_mem_cons.1 hlater
  have hsx := hopen.grows hinner (List.forall_mem_singleton.2 hcall)
  have hxy := hin.grows (hsx.inner hinner) hcalls
  have hyinner := hxy.inner (hsx.inner hinner)
  have hyz := hclosing.grows hyinner (List.forall_mem_singleton.2 hend)
  have hzf := (hout.grows (hyz.inner hyinner) hlater).extends
  obtain ⟨a', z₀, hrun', rfl⟩ := hclosing.one
  rw [Construct.kind_bare] at hcloses
  obtain ⟨k', cs', hsame, hlabel, s₂, j, hback, hj, htells, hmarked, hbare⟩ :=
    Operation.goesBack_of_perform hyinner hk hy hcloses hrun'
  have hz₀ : z₀.Extends f := z₀.tells_delivered.further.trans hzf
  have hjumped : (s₂.jumped j).Extends f := htells.further.trans hz₀
  have hsize : (s₂.jumped j).code.size = s₂.code.size + 1 := by simp
  have hlast := htells.further.size
  have hslides := htells.slides hp hz₀
  rw [hsize] at hlast hslides
  -- the closing branch goes to where the label of the body is marked
  obtain ⟨j', hcode, hmap⟩ := hp.jump (n := s₂.code.size) hjumped (j := j) (by simp)
  obtain ⟨q, hq, hgoal⟩ := Jump.mapTargets_goal hmap hj
  have hstart : f.labels.MarkedAt k.body n := by
    have hxf : ({ s₁ with notices := #[] } : Session).Extends f := hxy.extends.trans (hyz.extends.trans hzf)
    exact hxf.marks _ _ hbody
  rw [hsame] at hq
  cases hstart.unique hq
  have hopened := hopen.taking sink
  have hdone : (taking sink level s).after (.perform opening :: inside) = taking sink level y :=
    (hopen.trans hin).taking sink
  have hclosed : (taking sink level s).after (.perform opening :: (inside ++ [.perform closing])) =
      taking sink level { z₀ with notices := #[] } := (hopen.trans (hin.trans hclosing)).taking sink
  refine ⟨inside, closing, behind, y, _, s₂.code.size, k'.exit, rfl, hin, hclosing, hout, hold, hnew, hexit, hlabel,
    ?_, fun l hl => hz₀.marks _ _ (hmarked l hl), hbare, hanswer, ⟨c.bare, hhandle, ?_, ?_, ?_⟩, ?_, ⟨?_, j', n, hcode,
    hgoal, hfirst, ?_⟩, hlast, hslides⟩
  · rw [Session.openLoops_eq, hz, ← Session.openLoops_eq]
  · rw [hopened]
    exact hx
  · rw [hdone]
    exact hy
  · rw [Construct.kind_bare]
    exact hcloses
  · rw [hclosed]
    rfl
  · rw [hdone]
    exact hback.size
  · rw [hopened]
    exact hbegins

/-- Where a call is in a row that was put together. -/
theorem eq_append_cons {α : Type} {front back A B : List α} {a : α} (heq : A ++ B = front ++ a :: back) :
    (∃ rest, A = front ++ a :: rest) ∨ ∃ rest, front = A ++ rest ∧ B = rest ++ a :: back := by
  rcases List.append_eq_append_iff.1 heq with ⟨rest, hfront, hB⟩ | ⟨rest, hA, hback⟩
  · exact .inr ⟨rest, hfront, hB⟩
  · cases rest with
    | nil => exact .inr ⟨[], by simpa using hA.symm, hback.symm⟩
    | cons c rest =>
      rw [List.cons_append, List.cons.injEq] at hback
      obtain ⟨rfl, -⟩ := hback
      exact .inl ⟨rest, hA⟩

/-- A break out of a loop is among the calls **inside** of it: before them the number of the loop is not given yet,
and behind them it is not open any more. -/
theorem Takes.break_inside {s₀ : Session} {before behind front back : List Call} (hs : s₀.Fit) (hd : s₀.Distinct)
    (hbefore : Takes level before s₀ s) (hopen : Takes level [.perform opening] s x) (hbody : Takes level inside x y)
    (hclosing : Takes level [.perform closing] y z) (hbehind : Takes level behind z f) (hold : s.nextLoop ≤ h.id)
    (hnew : h.id < x.nextLoop) (hloops : z.openLoops = s.openLoops) (hcloses : closing.loops = []) (ho : h ∈ o.loops)
    (hcs : before ++ .perform opening :: (inside ++ .perform closing :: behind) = front ++ .perform o :: back) :
    ∃ between later, front = before ++ .perform opening :: between ∧ inside = between ++ .perform o :: later := by
  have hfit := hbefore.fit hs
  have hdistinct := hbefore.distinct hs hd
  have hnot : h ∉ s.openLoops := fun hh => Nat.not_le.2 (hdistinct.given h hh) hold
  rcases eq_append_cons hcs with ⟨r, rfl⟩ | ⟨r, rfl, hr⟩
  · obtain ⟨c, hfirst, hlast⟩ := hbefore.split
    obtain ⟨c', hbreak, hlast⟩ := hlast.uncons
    have hfitc := hfirst.fit hs
    have hgiven := (hfirst.distinct hs hd).given h (hbreak.mem_openLoops ho)
    have hthen := (hbreak.onward hfitc).loops
    have hlater := (hlast.onward (hbreak.fit hfitc)).loops
    omega
  cases r with
  | nil =>
    cases hr
    exact absurd (hopen.mem_openLoops ho) hnot
  | cons call between =>
    obtain ⟨rfl, htail⟩ := List.cons.inj hr
    rcases eq_append_cons htail with ⟨later, hinside⟩ | ⟨r, rfl, hbehind'⟩
    · exact ⟨between, later, rfl, hinside⟩
    cases r with
    | nil =>
      cases hbehind'
      rw [hcloses] at ho
      exact absurd ho List.not_mem_nil
    | cons call r =>
      obtain ⟨rfl, rfl⟩ := List.cons.inj hbehind'
      obtain ⟨c, hfirst, hlast⟩ := hbehind.split
      obtain ⟨c', hbreak, -⟩ := hlast.uncons
      have hfitx := hopen.fit hfit
      have hfity := hbody.fit hfitx
      have hgrown := Nat.le_trans (hbody.onward hfitx).loops (hclosing.onward hfity).loops
      have hagain := hfirst.openLoops_of_mem (hclosing.fit hfity) (Nat.lt_of_lt_of_le hnew hgrown)
        (hbreak.mem_openLoops ho)
      rw [hloops] at hagain
      exact absurd hagain hnot

/-- **Breaks leave the loop that they name**, and no other. Every break of a finished procedure is out of a loop that
a call before it opened; every loop that is opened is closed by a later call, and all breaks out of it are in between.
Each of them goes to the position directly behind the closing branch, and a run in which it is taken gets from there
to the end of the closing call through nothing but reports. The first break defines the label behind the loop, and
without a break there is none, and nothing behind the closing branch. -/
theorem breaks_leave (number : Nat) (name : String) (signature : Signature) (sink : Sink) (level : TraceDetail)
    (cs : List Call) (p : Procedure) (hissued : ∀ call ∈ cs, ∀ l ∈ call.handed, l.Issued)
    (hp : ((begin number name signature sink level).builder.after cs).finish.result = .ok p) :
    let b := (begin number name signature sink level).builder
    (∀ front o back h, cs = front ++ .perform o :: back → h ∈ o.loops → ∃ before opening inside,
      front = before ++ .perform opening :: inside ∧ ((b.after before).perform opening).result = .ok (.loop h)) ∧
    ∀ before opening rest h, cs = before ++ .perform opening :: rest →
      ((b.after before).perform opening).result = .ok (.loop h) →
      ∃ inside closing behind branch last, rest = inside ++ .perform closing :: behind ∧
        IsLoop p (b.after before) h opening inside closing branch last ∧
        (∀ front o back, cs = front ++ .perform o :: back → h ∈ o.loops → ∃ between later,
          front = before ++ .perform opening :: between ∧ inside = between ++ .perform o :: later ∧
          Leaves p (b.after front) o h (branch + 1) last) ∧
        ((∀ o, .perform o ∈ inside → h ∉ o.loops) →
          (b.after (before ++ .perform opening :: inside)).exit? h = none ∧ last = branch + 1) := by
  intro b
  obtain ⟨s₀, f, hs₀, hsound, htakes, hfits⟩ := takes_of_finish hissued hp
  have hclosed : f.outline = [] := by
    rw [Session.outline, constructs_of_finish (htakes.state hs₀) hp]
    rfl
  have hfresh : s₀.Fit ∧ s₀.openLoops = [] := by
    obtain ⟨s₁, hs₁, hspares⟩ := begin_spares number name signature sink level
    cases hs₀.symm.trans hs₁
    exact ⟨hspares.fit, congrArg (List.filterMap Construct.handle?) hspares.constructs⟩
  obtain ⟨hfit₀, hnone⟩ := hfresh
  have hdistinct₀ : s₀.Distinct := ⟨hnone ▸ List.nodup_nil, by simp [hnone]⟩
  have hinside : ∀ call ∈ cs, Emit.Inside call.handed := fun call hcall l hl => (hissued call hcall l hl).inside
  have hbuilder : b = taking b.sink level s₀ := by
    have hlevel : b.level = level := level_submit
    have htaking := eq_taking hs₀
    rwa [hlevel] at htaking
  have hafter : ∀ {calls : List Call} {s : Session}, Takes level calls s₀ s →
      b.after calls = taking b.sink level s := by
    intro calls s ht
    rw [hbuilder]
    exact ht.taking _
  refine ⟨fun front o back h hcs ho => ?_, fun before opening rest h hcs hanswer => ?_⟩
  · subst hcs
    obtain ⟨c, hfront, hbehind⟩ := htakes.split
    obtain ⟨c', hbreak, -⟩ := hbehind.uncons
    obtain ⟨before, opening, inside, x, y, rfl, hbefore, hrun⟩ :=
      hfront.opened hfit₀ (hbreak.mem_openLoops ho) (by rw [hnone]; exact List.not_mem_nil)
    refine ⟨before, opening, inside, rfl, ?_⟩
    rw [hafter hbefore]
    exact congrArg Outcome.result (perform_ok (b := taking b.sink level x) rfl hrun)
  · subst hcs
    obtain ⟨s, hbefore, hmore⟩ := htakes.split
    obtain ⟨x, hopen, hrest⟩ := hmore.uncons
    obtain ⟨hin₀, hin⟩ := List.forall_mem_append.1 hinside
    have hinner : s.Inner := (hbefore.grows hsound.inner hin₀).inner hsound.inner
    have hfit := hbefore.fit hfit₀
    have hdistinct := hbefore.distinct hfit₀ hdistinct₀
    rw [hafter hbefore] at hanswer ⊢
    obtain ⟨inside, closing, behind, y, z, branch, e, rfl, hbody, hclosing, hbehind, hold, hnew, hopened, hexit, hloops,
      hmarked, hbare, hloop⟩ := isLoop_of_takes hfits hfit hinner hin hclosed hopen hrest b.sink hanswer
    have hfitx := hopen.fit hfit
    have hfity := hbody.fit hfitx
    have hdistinctx := hopen.distinct hfit hdistinct
    have hdistincty := hbody.distinct hfitx hdistinctx
    have hstill : h ∈ y.openLoops := by
      rw [Session.openLoops_eq_exits]
      exact List.mem_map_of_mem hexit
    have hnocloses : closing.loops = [] := by
      obtain ⟨c, -, -, -, hbracket⟩ := hloop.closes
      cases closing <;> first | rfl | cases hbracket
    refine ⟨inside, closing, behind, branch, z.code.size, rfl, hloop, fun front o back hcs ho => ?_, fun hfree => ?_⟩
    · obtain ⟨between, later, rfl, rfl⟩ := Takes.break_inside hfit₀ hdistinct₀ hbefore hopen hbody hclosing hbehind
        hold hnew hloops hnocloses ho hcs
      refine ⟨between, later, rfl, rfl, ?_⟩
      obtain ⟨c, hfirst, hlast⟩ := hbody.split
      obtain ⟨c', hbreak, hlast⟩ := hlast.uncons
      have hfitc := hfirst.fit hfitx
      have hfitc' := hbreak.fit hfitc
      have hdistinctc' := hbreak.distinct hfitc (hfirst.distinct hfitx hdistinctx)
      have hc'f : c'.Extends f := by
        have hsplit : before ++ .perform opening :: ((between ++ .perform o :: later) ++ .perform closing :: behind) =
            (before ++ .perform opening :: (between ++ [.perform o])) ++ (later ++ .perform closing :: behind) := by simp
        rw [hsplit] at hinside
        obtain ⟨hcalls, hrest⟩ := List.forall_mem_append.1 hinside
        have hto : Takes level (before ++ .perform opening :: (between ++ [.perform o])) s₀ c' :=
          hbefore.trans (hopen.trans (hfirst.trans hbreak))
        exact ((hlast.trans (hclosing.trans hbehind)).grows
          ((hto.grows hsound.inner hcalls).inner hsound.inner) hrest).extends
      obtain ⟨l, -, -, hl, -⟩ := left_of_takes hfits ho hbreak hc'f
      -- the label stays until the loop is closed
      obtain ⟨e', he', -, hkept⟩ := hlast.exit hfitc' hdistinctc' hl hstill
      obtain rfl := hdistincty.exits_unique he' hexit
      have hpath : b.after (before ++ .perform opening :: between) = taking b.sink level c :=
        hafter (hbefore.trans (hopen.trans hfirst))
      rw [hpath]
      exact leaves_of_takes hfits hdistinctc' ho hbreak hc'f hl (hmarked l (hkept (Option.some_ne_none l))) hloop.behind.2 b.sink
    · obtain ⟨e', he', hnever, -⟩ := hbody.exit hfitx hdistinctx hopened hstill
      obtain rfl := hdistincty.exits_unique he' hexit
      have hpath : b.after (before ++ .perform opening :: inside) = taking b.sink level y :=
        hafter (hbefore.trans (hopen.trans hbody))
      rw [hpath]
      exact ⟨(hdistincty.exit?_eq hexit).trans (hnever hfree), hbare (hnever hfree)⟩

/-- A loop without an index, and so without an end of its own. -/
def endless : Operation := .openFor none (.constant (.scalar (.i32 0))) (.constant (.scalar (.i32 0)))

/-- Two such loops, one in the other. The outer one is left from inside the inner one, which is left itself behind
that. -/
def leftTwice : List Call := [.perform endless, .perform endless, .perform (.loadConstant (.scalar (.bool true))),
  .perform (.leaveIfTrue ⟨1, 0⟩), .perform (.leave ⟨1, 1⟩), .perform .closeFor, .perform .closeFor]

/-- The procedure of the two loops. -/
def leavesTwice : Procedure where
  name := "f"
  signature := ⟨[], none⟩
  locals := []
  code := #[.op (.push (.scalar (.bool true))), .jump (.ifTrue 5), .jump (.always 4), .jump (.always 0),
    .jump (.always 0), .ret]

theorem finish_leftTwice :
    ((begin 1 "f" ⟨[], none⟩ .log .off).builder.after leftTwice).finish.result = .ok leavesTwice := by
  with_unfolding_all rfl

/-- Each of the two breaks goes directly behind the loop that it names. -/
theorem breaks_leave_nested :
    ((begin 1 "f" ⟨[], none⟩ .log .off).builder.after leftTwice).finish.result = .ok leavesTwice ∧
      (∃ last, Leaves leavesTwice ((begin 1 "f" ⟨[], none⟩ .log .off).builder.after (leftTwice.take 3))
        (.leaveIfTrue ⟨1, 0⟩) ⟨1, 0⟩ 5 last) ∧
      ∃ last, Leaves leavesTwice ((begin 1 "f" ⟨[], none⟩ .log .off).builder.after (leftTwice.take 4))
        (.leave ⟨1, 1⟩) ⟨1, 1⟩ 4 last := by
  have hissued : ∀ call ∈ leftTwice, ∀ l ∈ call.handed, l.Issued := by
    simp [leftTwice, endless, Call.handed, Operation.handed]
  obtain ⟨-, hloops⟩ := breaks_leave 1 "f" ⟨[], none⟩ .log .off leftTwice leavesTwice hissued finish_leftTwice
  refine ⟨finish_leftTwice, ?_, ?_⟩
  · obtain ⟨_, _, _, branch, last, -, -, hbreaks, -⟩ := hloops [] endless (leftTwice.drop 1) ⟨1, 0⟩ rfl
      (by with_unfolding_all rfl)
    obtain ⟨-, -, -, -, hleaves⟩ := hbreaks (leftTwice.take 3) (.leaveIfTrue ⟨1, 0⟩) (leftTwice.drop 4) rfl
      List.mem_cons_self
    obtain ⟨n, -, hn, -, hjump⟩ := hleaves.jump
    obtain rfl : n = 1 := (Nat.succ.inj hn).symm
    cases hjump
    exact ⟨last, hleaves⟩
  · obtain ⟨_, _, _, branch, last, -, -, hbreaks, -⟩ := hloops (leftTwice.take 1) endless (leftTwice.drop 2) ⟨1, 1⟩ rfl
      (by with_unfolding_all rfl)
    obtain ⟨-, -, -, -, hleaves⟩ := hbreaks (leftTwice.take 4) (.leave ⟨1, 1⟩) (leftTwice.drop 5) rfl
      List.mem_cons_self
    obtain ⟨n, -, hn, -, hjump⟩ := hleaves.jump
    obtain rfl : n = 2 := (Nat.succ.inj hn).symm
    cases hjump
    exact ⟨last, hleaves⟩

end Builder

end Stackwright
