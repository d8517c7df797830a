import Stackwright.Proofs.Builder.Fitting
import Stackwright.Proofs.Process.Tokens
import Stackwright.Proofs.Structure.Balance

/-! # Labels behind loops

The first break out of a loop defines the label behind it, which the loop then keeps until it is closed. All
other calls leave the labels behind the loops that stay open as they are.

* **`Session.exits`** — the open loops with the labels behind them, innermost first.
* **`Emit.Keeps e`** — an accepted call changes none of them.
* **`Operation.keeps_perform`**, **`Operation.exits_perform`** — what each emission call does to them. -/

namespace Stackwright

namespace Construct

variable {c : Construct} {cs : List Construct} {h : LoopHandle} {k : LoopState}

/-- The handle of a loop that can be broken out of, and the label behind it. -/
def exit? (c : Construct) : Option (LoopHandle × Option Label) := c.loop?.map fun k => (k.handle, k.exit)

/-- The loop that is found for a handle is the innermost one that has it, and it is the one that gets the
label behind it. -/
theorem split_of_findLoop? (hk : findLoop? cs h = some k) :
    ∃ front c back, cs = front ++ c :: back ∧ c.loop? = some k ∧ k.handle = h ∧
      ∀ l, setExit h l cs = front ++ c.withExit l :: back := by
  induction cs with
  | nil => cases hk
  | cons c cs ih =>
    rw [findLoop?_cons] at hk
    by_cases hc : c.isLoop h
    · rw [if_pos hc] at hk
      refine ⟨[], c, cs, rfl, hk, ?_, fun l => by rw [setExit, if_pos hc]; rfl⟩
      rw [isLoop, hk] at hc
      exact eq_of_beq hc
    · rw [if_neg hc] at hk
      obtain ⟨front, c', back, rfl, hloop, hhandle, hset⟩ := ih hk
      exact ⟨c :: front, c', back, rfl, hloop, hhandle, fun l => by rw [setExit, if_neg hc, hset]; rfl⟩

/-- The label behind a loop is all of it that is set. -/
theorem exit?_withExit (hc : c.loop? = some k) (l : Label) : (c.withExit l).exit? = some (k.handle, some l) := by
  cases c <;> cases hc <;> rfl

end Construct

namespace Session

variable {s s' : Session}

/-- The **open loops with the labels behind them**, innermost first. -/
def exits (s : Session) : List (LoopHandle × Option Label) := s.constructs.filterMap Construct.exit?

theorem openLoops_eq_exits (s : Session) : s.openLoops = s.exits.map Prod.fst := by
  rw [openLoops, exits, List.map_filterMap]
  congr 1
  funext c
  rw [Construct.handle?, Construct.exit?, Option.map_map]
  rfl

/-- The label behind an open loop, once something breaks out of it. -/
def exit? (s : Session) (h : LoopHandle) : Option Label :=
  (Construct.findLoop? s.constructs h).bind LoopState.exit

end Session

namespace Emit

variable {α β : Type} {e : Emit α} {f : α → Emit β} {b : Bracket} {level : TraceDetail} {s s' : Session}

/-! ## Calls that keep them -/

/-- An accepted call **keeps** the open loops and the labels behind them. -/
def Keeps (e : Emit α) : Prop :=
  ∀ (level : TraceDetail) (s s' : Session) (a : α), s.Fit →
    (e.run (.ofLevel level)).run s = .ok a s' → s'.Fit ∧ s'.exits = s.exits

theorem Sparing.keeps (h : e.Sparing) : e.Keeps := fun _ _ _ _ hs hrun =>
  have hspared := h.spares hs hrun
  ⟨hspared.fit, congrArg (List.filterMap Construct.exit?) hspared.constructs⟩

theorem Turns.keeps (h : e.Turns b)
    (hc : ∀ (t : Tracer) (s s' : Session) (a : α), (e.run t).run s = .ok a s' → s'.exits = s.exits) : e.Keeps :=
  fun level s s' a hs hrun => ⟨(h level s s' a hs hrun).fit, hc _ s s' a hrun⟩

theorem Keeps.bind (h : e.Keeps) (hf : ∀ a, (f a).Keeps) : (e >>= f).Keeps := by
  intro level s s' x hs hrun
  obtain ⟨a, s₁, he, hrun⟩ := run_bind_eq_ok.1 hrun
  obtain ⟨hfit, hfirst⟩ := h level s s₁ a hs he
  obtain ⟨hfit', hlast⟩ := hf a level s₁ s' x hfit hrun
  exact ⟨hfit', hlast.trans hfirst⟩

theorem keeps_pure (a : α) : (pure a : Emit α).Keeps := (sparing_pure a).keeps

theorem Keeps.ite {c : Prop} [Decidable c] {e e' : Emit α} (h : e.Keeps) (h' : e'.Keeps) :
    (if c then e else e').Keeps := by
  split
  · exact h
  · exact h'

/-! ### Labels and jumps -/

theorem keeps_newLabel : newLabel.Keeps := turns_newLabel.keeps fun _ _ _ _ h => by
  cases h
  rfl

theorem keeps_jump (j : Jump Label) : (jump j).Keeps := (turns_jump j).keeps fun _ _ _ _ h => by
  obtain ⟨-, rfl⟩ := jumped_of_jump h
  rfl

theorem keeps_markHere (l : Label) : (markHere l).Keeps := (turns_markHere l).keeps fun _ s _ _ h => by
  obtain ⟨-, rfl⟩ := marks_of_markHere h
  rw [Session.exits, Session.constructs_written]
  rfl

theorem keeps_note (text : String) : (note text).Keeps := (sparing_note text).keeps

theorem keeps_noted (text : String) (j : Jump Label) : (do note text; jump j : Emit Unit).Keeps :=
  (keeps_note text).bind fun _ => keeps_jump j

theorem keeps_jumpUnless (c : Comparison) : (jumpUnless c).Keeps :=
  keeps_newLabel.bind fun _ => (keeps_note _).bind fun _ => (keeps_jump _).bind fun _ => keeps_pure _

theorem keeps_newLoop (slot : Option Local) (bound : Operand) : (newLoop slot bound).Keeps :=
  (turns_newLoop slot bound).keeps fun t s _ _ h => by
    rw [run_newLoop] at h
    cases h
    rfl

theorem keeps_newLabels (n : Nat) : (newLabels n).Keeps := by
  induction n with
  | zero => exact keeps_pure _
  | succ n ih => exact keeps_newLabel.bind fun _ => ih.bind fun _ => keeps_pure _

theorem keeps_noteLabels (ls : List Label) : (noteLabels ls).Keeps := by
  induction ls with
  | nil => exact keeps_pure _
  | cons l ls ih => exact (keeps_note _).bind fun _ => ih

theorem keeps_markExit (loop : LoopState) : (markExit loop).Keeps := by
  unfold markExit
  split
  · exact keeps_markHere _
  · exact keeps_pure _

/-! ### Constructs that are no such loops -/

theorem keeps_openConstruct {c : Construct} (hc : c.exit? = none) (hgoals : c.goals = []) :
    (openConstruct c).Keeps := (turns_openConstruct hgoals).keeps fun t s s' u h => by
  rw [run_openConstruct] at h
  cases h
  exact List.filterMap_cons_none hc

/-- Such a construct is taken. -/
theorem keeps_taken {c : Construct} {cs : List Construct} (hs : s.Fit) (hcs : s.constructs = c :: cs)
    (hc : c.exit? = none) : (s.withConstructs cs).Fit ∧ (s.withConstructs cs).exits = s.exits := by
  refine ⟨(Session.onward_taken hs hcs).fit, ?_⟩
  rw [Session.exits, Session.exits, hcs, List.filterMap_cons_none hc]
  rfl

theorem keeps_takeConditional : takeConditional.Keeps := by
  intro level s s' p hs hrun
  obtain ⟨cs, hcs, rfl⟩ := constructs_of_takeConditional hrun
  exact keeps_taken hs hcs rfl

theorem keeps_takeWhileHead : takeWhileHead.Keeps := by
  intro level s s' head hs hrun
  obtain ⟨cs, hcs, rfl⟩ := constructs_of_takeWhileHead hrun
  exact keeps_taken hs hcs rfl

theorem keeps_takeSwitch : takeSwitch.Keeps := by
  intro level s s' p hs hrun
  have hrest := run_take hrun
  split at hrest
  · rename_i hfound
    cases hrest
    obtain ⟨cs, hcs⟩ := List.head?_eq_some_iff.1 hfound
    rw [hcs, List.drop_one, List.tail_cons]
    exact keeps_taken hs hcs rfl
  · cases hrest

theorem keeps_openIfTrue : openIfTrue.Keeps :=
  keeps_newLabel.bind fun _ => keeps_newLabel.bind fun _ => (keeps_noted _ _).bind fun _ =>
    keeps_openConstruct rfl rfl

theorem keeps_openIfFalse : openIfFalse.Keeps :=
  keeps_newLabel.bind fun _ => keeps_newLabel.bind fun _ => (keeps_noted _ _).bind fun _ =>
    keeps_openConstruct rfl rfl

theorem keeps_openIf (c : Comparison) : (openIf c).Keeps :=
  keeps_newLabel.bind fun _ => (keeps_jumpUnless c).bind fun _ => keeps_openConstruct rfl rfl

theorem keeps_openIfCompared (a : Operand) (c : Comparison) (b : Operand) : (openIfCompared a c b).Keeps :=
  (sparing_load a).keeps.bind fun _ => (sparing_load b).keeps.bind fun _ => keeps_openIf c

theorem keeps_openIfNotZero (o : Operand) : (openIfNotZero o).Keeps := by
  unfold openIfNotZero
  refine Keeps.ite ?_ ?_
  · exact (sparing_loadZero _).keeps.bind fun _ => (sparing_convertTop _ _).keeps.bind fun _ =>
      (sparing_load _).keeps.bind fun _ => (sparing_convertTop _ _).keeps.bind fun _ =>
        (sparing_call _).keeps.bind fun _ => keeps_openIfFalse
  · exact (sparing_loadZero _).keeps.bind fun _ => (sparing_load _).keeps.bind fun _ => keeps_openIf _

theorem keeps_nextAlternative : nextAlternative.Keeps :=
  keeps_takeConditional.bind fun _ => (keeps_noted _ _).bind fun _ => (keeps_markHere _).bind fun _ => keeps_pure _

theorem keeps_openElse : openElse.Keeps :=
  Keeps.bind keeps_nextAlternative fun _ => keeps_openConstruct rfl rfl

theorem keeps_openElseIf (a : Operand) (c : Comparison) (b : Operand) : (openElseIf a c b).Keeps :=
  Keeps.bind keeps_nextAlternative fun _ => (sparing_load a).keeps.bind fun _ => (sparing_load b).keeps.bind fun _ =>
    (keeps_jumpUnless c).bind fun _ => keeps_openConstruct rfl rfl

theorem keeps_openElseIfEmpty (l : Local) : (openElseIfEmpty l).Keeps :=
  Keeps.bind keeps_nextAlternative fun _ => (sparing_loadTextLength l).keeps.bind fun _ =>
    (keeps_jumpUnless _).bind fun _ => keeps_openConstruct rfl rfl

theorem keeps_closeIf : closeIf.Keeps :=
  keeps_takeConditional.bind fun _ =>
    Keeps.ite (keeps_markHere _) ((keeps_markHere _).bind fun _ => keeps_markHere _)

/-! ### While loops and switches -/

theorem keeps_openWhile : openWhile.Keeps := turns_openWhile.keeps fun t s s' u h => by
  obtain ⟨head, s₁, hnew, hrest⟩ := run_bind_eq_ok.1 h
  obtain ⟨_, s₂, hmark, hopen⟩ := run_bind_eq_ok.1 hrest
  have hsame := (tells_newLabel hnew).trans (tells_markHere hmark).1
  cases hopen
  exact (List.filterMap_cons_none rfl).trans (congrArg (List.filterMap Construct.exit?) hsame.constructs)

/-- The loop goes back on the constructs, around the conditional of its body. -/
theorem keeps_openWhileBody (c : Comparison) : (openWhileBody c).Keeps := by
  intro level s s' u hs hrun
  refine ⟨(turns_openWhileBody c level s s' u hs hrun).fit, ?_⟩
  obtain ⟨head, s₁, htake, hrun⟩ := run_bind_eq_ok.1 hrun
  obtain ⟨hfit₁, htaken⟩ := keeps_takeWhileHead level s s₁ head hs htake
  obtain ⟨_, s₂, hopen, hrun⟩ := run_bind_eq_ok.1 hrun
  obtain ⟨-, hopened⟩ := keeps_openIf c level s₁ s₂ _ hfit₁ hopen
  cases hrun
  exact (List.filterMap_cons_none rfl).trans (hopened.trans htaken)

theorem keeps_closeWhile : closeWhile.Keeps :=
  keeps_takeWhileHead.bind fun _ => (keeps_noted _ _).bind fun _ => keeps_closeIf

theorem keeps_openSwitch (cases : Nat) : (openSwitch cases).Keeps :=
  keeps_newLabel.bind fun _ => keeps_newLabel.bind fun _ => (keeps_newLabels _).bind fun _ =>
    (keeps_note _).bind fun _ => (keeps_noteLabels _).bind fun _ => (keeps_note _).bind fun _ =>
      (keeps_jump _).bind fun _ => (keeps_noted _ _).bind fun _ =>
        (keeps_openConstruct rfl rfl).bind fun _ => keeps_pure _

theorem keeps_closeCase : closeCase.Keeps := turns_closeCase.keeps fun t s s' u h => by
  obtain ⟨⟨d, f, given⟩, s₁, hlook, hend⟩ := run_bind_eq_ok.1 h
  obtain ⟨-, rfl⟩ := constructs_of_currentSwitch hlook
  obtain ⟨_, s₂, hjump, hlast⟩ := run_bind_eq_ok.1 hend
  obtain ⟨s₂, hline, -, rfl⟩ := tells_jump hjump
  have hnote := tells_note hlast
  exact congrArg (List.filterMap Construct.exit?) (hnote.constructs.trans hline.constructs)

theorem keeps_openDefault : openDefault.Keeps := turns_openDefault.keeps fun t s s' u h => by
  obtain ⟨⟨d, f, given⟩, s₁, hlook, hend⟩ := run_bind_eq_ok.1 h
  obtain ⟨⟨cs, hcs⟩, rfl⟩ := constructs_of_currentSwitch hlook
  obtain ⟨_, s₂, hgiven, hmark⟩ := run_bind_eq_ok.1 hend
  cases hgiven
  have hsame := (tells_markHere hmark).1.constructs
  rw [Session.exits, hsame, Session.exits]
  show (Construct.switch d f true :: s₁.constructs.drop 1).filterMap Construct.exit? = _
  rw [hcs]
  rfl

theorem keeps_closeSwitch : closeSwitch.Keeps :=
  keeps_takeSwitch.bind fun _ => (keeps_note _).bind fun _ =>
    Keeps.ite (keeps_markHere _) ((keeps_markHere _).bind fun _ => keeps_markHere _)

/-! ## Loops are opened and closed -/

/-- An accepted call **opens** a loop, and no label is behind it yet. -/
def OpensExit (e : Emit LoopHandle) : Prop :=
  ∀ (level : TraceDetail) (s s' : Session) (h : LoopHandle), s.Fit →
    (e.run (.ofLevel level)).run s = .ok h s' → s'.Fit ∧ s'.exits = (h, none) :: s.exits

/-- An accepted call **closes** the innermost loop. -/
def ClosesExit (e : Emit α) : Prop :=
  ∀ (level : TraceDetail) (s s' : Session) (a : α), s.Fit →
    (e.run (.ofLevel level)).run s = .ok a s' → s'.Fit ∧ ∃ x, s.exits = x :: s'.exits

theorem opensExit_of (slot : Option Local) (bound : Operand) {e : LoopState → Emit Unit}
    (he : ∀ k, (e k).Keeps) {c : LoopState → Construct} (hc : ∀ k, (c k).loop? = some k) :
    (do
      let k ← newLoop slot bound
      e k
      openConstruct (c k)
      pure k.handle).OpensExit := by
  intro level s s' h hs hrun
  obtain ⟨k, s₁, hnew, hrun⟩ := run_bind_eq_ok.1 hrun
  obtain ⟨hfit₁, hnumbered⟩ := keeps_newLoop slot bound level s s₁ k hs hnew
  have hexit : k.exit = none := by
    rw [run_newLoop] at hnew
    cases hnew
    rfl
  obtain ⟨_, s₂, hentry, hrun⟩ := run_bind_eq_ok.1 hrun
  obtain ⟨hfit₂, hentered⟩ := he k level s₁ s₂ _ hfit₁ hentry
  obtain ⟨_, s₃, hopen, hrun⟩ := run_bind_eq_ok.1 hrun
  have hgoals : (c k).goals = [] := by rw [Construct.goals_of_loop? (hc k), hexit]; rfl
  have hfit₃ := (turns_openConstruct hgoals level s₂ s₃ _ hfit₂ hopen).fit
  cases hopen
  cases hrun
  have hfound : (c k).exit? = some (k.handle, none) := by rw [Construct.exit?, hc, Option.map_some, hexit]
  refine ⟨hfit₃, (List.filterMap_cons_some hfound).trans (congrArg (_ :: ·) (hentered.trans hnumbered))⟩

theorem opensExit_openFor (index : Option Local) (start bound : Operand) :
    (openFor index start bound).OpensExit := by
  cases index with
  | none => exact opensExit_of none bound (c := .counted) (fun k => keeps_markHere k.body) fun _ => rfl
  | some l =>
    have h := opensExit_of (some l) bound (c := .counted)
      (e := fun k => do load start; storeLocal l; jumpTo k.test; markHere k.body)
      (fun k => (sparing_load _).keeps.bind fun _ => (sparing_storeLocal _).keeps.bind fun _ =>
        (keeps_noted _ _).bind fun _ => keeps_markHere _) fun _ => rfl
    simp only [bind_assoc] at h
    exact h

theorem opensExit_openEach (l : Local) (element : Ty) (enumerator : Local) (getCurrent : Method) :
    (openEach l element enumerator getCurrent).OpensExit := by
  have h := opensExit_of (some l) (.variable enumerator) (c := .enumerated)
    (e := fun k => do
      jumpTo k.test
      markHere k.body
      callWith (some k.bound) getCurrent []
      convertTop element l.type
      storeLocal l)
    (fun k => (keeps_noted _ _).bind fun _ => (keeps_markHere _).bind fun _ =>
      (sparing_callWith _ _ _).keeps.bind fun _ => (sparing_convertTop _ _).keeps.bind fun _ =>
        (sparing_storeLocal _).keeps) fun _ => rfl
  simp only [bind_assoc] at h
  exact h

theorem ClosesExit.seq (h : e.ClosesExit) (hf : ∀ a, (f a).Keeps) : (e >>= f).ClosesExit := by
  intro level s s' y hs hrun
  obtain ⟨a, s₁, he, hrun⟩ := run_bind_eq_ok.1 hrun
  obtain ⟨hfit, x, hclosed⟩ := h level s s₁ a hs he
  obtain ⟨hfit', hlast⟩ := hf a level s₁ s' y hfit hrun
  exact ⟨hfit', x, hlast ▸ hclosed⟩

/-- A loop that was taken was innermost. -/
theorem constructs_of_takeCounted {t : Tracer} {loop : LoopState} (h : (takeCounted.run t).run s = .ok loop s') :
    ∃ cs, s.constructs = .counted loop :: cs ∧ s' = s.withConstructs cs := by
  have hrest := run_take h
  split at hrest
  · rename_i hfound
    cases hrest
    obtain ⟨cs, hcs⟩ := List.head?_eq_some_iff.1 hfound
    exact ⟨cs, hcs, by rw [hcs]; rfl⟩
  · cases hrest

theorem constructs_of_takeEnumerated {t : Tracer} {loop : LoopState}
    (h : (takeEnumerated.run t).run s = .ok loop s') :
    ∃ cs, s.constructs = .enumerated loop :: cs ∧ s' = s.withConstructs cs := by
  have hrest := run_take h
  split at hrest
  · rename_i hfound
    cases hrest
    obtain ⟨cs, hcs⟩ := List.head?_eq_some_iff.1 hfound
    exact ⟨cs, hcs, by rw [hcs]; rfl⟩
  · cases hrest

theorem closesExit_takeCounted : takeCounted.ClosesExit := by
  intro level s s' loop hs hrun
  obtain ⟨cs, hcs, rfl⟩ := constructs_of_takeCounted hrun
  exact ⟨(Session.onward_taken hs hcs).fit, _, by rw [Session.exits, hcs]; exact List.filterMap_cons_some rfl⟩

theorem closesExit_takeEnumerated : takeEnumerated.ClosesExit := by
  intro level s s' loop hs hrun
  obtain ⟨cs, hcs, rfl⟩ := constructs_of_takeEnumerated hrun
  exact ⟨(Session.onward_taken hs hcs).fit, _, by rw [Session.exits, hcs]; exact List.filterMap_cons_some rfl⟩

theorem closesExit_closeFor : closeFor.ClosesExit := by
  refine closesExit_takeCounted.seq fun loop => ?_
  cases hslot : loop.slot with
  | none => exact (keeps_noted _ _).bind fun _ => keeps_markExit loop
  | some l =>
    have hback : (do jumpIfLess loop.body; markExit loop).Keeps :=
      (keeps_noted _ _).bind fun _ => keeps_markExit loop
    refine (sparing_loadLocal l).keeps.bind fun _ => (sparing_loadInt 1).keeps.bind fun _ =>
      (sparing_traced "Add" .add rfl).keeps.bind fun _ => (sparing_storeLocal l).keeps.bind fun _ =>
        (keeps_markHere _).bind fun _ => (sparing_loadLocal l).keeps.bind fun _ =>
          (sparing_load _).keeps.bind fun _ => ?_
    exact Keeps.ite (sparing_loadLength.keeps.bind fun _ => hback) hback

theorem closesExit_closeEach (moveNext : Method) : (closeEach moveNext).ClosesExit :=
  closesExit_takeEnumerated.seq fun loop => (keeps_markHere _).bind fun _ =>
    (sparing_callWith _ _ _).keeps.bind fun _ => (keeps_noted _ _).bind fun _ => keeps_markExit loop

/-! ### Full text -/

theorem keeps_referenceText {text : Emit Unit} (h : text.Keeps) : (referenceText text).Keeps :=
  (sparing_traced "Dup" .dup rfl).keeps.bind fun _ => sparing_loadNull.keeps.bind fun _ =>
    (keeps_openIf _).bind fun _ => (sparing_traced "Pop" .pop rfl).keeps.bind fun _ =>
      (sparing_loadText _).keeps.bind fun _ => keeps_openElse.bind fun _ => h.bind fun _ => keeps_closeIf

/-- A loop that is opened and closed leaves the others. -/
theorem OpensExit.close {e : Emit LoopHandle} {f : LoopHandle → Emit β} (h : e.OpensExit)
    (hf : ∀ a, (f a).ClosesExit) : (e >>= f).Keeps := by
  intro level s s' y hs hrun
  obtain ⟨a, s₁, he, hrun⟩ := run_bind_eq_ok.1 hrun
  obtain ⟨hfit, hopened⟩ := h level s s₁ a hs he
  obtain ⟨hfit', x, hclosed⟩ := hf a level s₁ s' y hfit hrun
  rw [hopened, List.cons.injEq] at hclosed
  exact ⟨hfit', hclosed.2.symm⟩

theorem Keeps.closes (h : e.Keeps) (hf : ∀ a, (f a).ClosesExit) : (e >>= f).ClosesExit := by
  intro level s s' y hs hrun
  obtain ⟨a, s₁, he, hrun⟩ := run_bind_eq_ok.1 hrun
  obtain ⟨hfit, hkept⟩ := h level s s₁ a hs he
  obtain ⟨hfit', x, hclosed⟩ := hf a level s₁ s' y hfit hrun
  exact ⟨hfit', x, hkept ▸ hclosed⟩

theorem keeps_arrayText {itemText : Emit Unit} (t : Ty) (h : itemText.Keeps) : (arrayText t itemText).Keeps := by
  refine (sparing_newLocal _ _).keeps.bind fun array => (sparing_storeLocal _).keeps.bind fun _ =>
    (sparing_loadText _).keeps.bind fun _ => (sparing_newLocal _ _).keeps.bind fun text =>
      (sparing_storeLocal _).keeps.bind fun _ => (sparing_newLocal _ _).keeps.bind fun i => ?_
  have hlast : (do loadLocal text; loadText "\x7d"; joinTwo).Keeps :=
    (sparing_loadLocal _).keeps.bind fun _ => (sparing_loadText _).keeps.bind fun _ => (sparing_call _).keeps
  refine (opensExit_openFor _ _ _).close fun _ => ?_
  exact (sparing_loadLocal _).keeps.closes fun _ => (sparing_loadItemOf _ _).keeps.closes fun _ =>
    h.closes fun _ => (sparing_loadText _).keeps.closes fun _ => (sparing_call _).keeps.closes fun _ =>
      (sparing_storeLocal _).keeps.closes fun _ => closesExit_closeFor.seq fun _ => hlast

theorem keeps_toFullText (t : Ty) : (toFullText t).Keeps := by
  induction t using toFullText.induct with
  | case1 element ih =>
    rw [toFullText]
    exact keeps_referenceText (keeps_arrayText _ ih)
  | case2 t hne hvalue =>
    rw [toFullText.eq_2 t hne, if_pos hvalue]
    exact (sparing_traced _ _ rfl).keeps.bind fun _ => (sparing_call _).keeps
  | case3 t hne hvalue =>
    rw [toFullText.eq_2 t hne, if_neg hvalue]
    exact keeps_referenceText (sparing_call _).keeps

/-! ## Breaks -/

/-- The label behind a loop was there before, or it is the next label and the loop gets it. -/
theorem exit_of_exitOf {t : Tracer} {h : LoopHandle} {l : Label} (hrun : ((exitOf h).run t).run s = .ok l s') :
    ∃ front x back, s.exits = front ++ (h, x) :: back ∧ s'.exits = front ++ (h, some l) :: back ∧
      s.exit? h = x ∧ (x = some l ∧ s' = s ∨ x = none ∧ l = s.labels.next ∧
        s' = s.defined.withConstructs (Construct.setExit h l s.constructs)) := by
  obtain ⟨s₀, s₁, hget, hrun⟩ := run_bind_eq_ok.1 hrun
  cases hget
  dsimp only at hrun
  split at hrun
  · cases hrun
  rename_i k hk
  obtain ⟨front, c, back, hcs, hc, rfl, hset⟩ := Construct.split_of_findLoop? hk
  have hexits : s.exits = front.filterMap Construct.exit? ++ (k.handle, k.exit) :: back.filterMap Construct.exit? := by
    have hfound : c.exit? = some (k.handle, k.exit) := by rw [Construct.exit?, hc, Option.map_some]
    rw [Session.exits, hcs, List.filterMap_append, List.filterMap_cons_some hfound]
  have hexit : s.exit? k.handle = k.exit := by rw [Session.exit?, hk, Option.bind_some]
  refine ⟨_, _, _, hexits, ?_, hexit, ?_⟩
  all_goals split at hrun
  · rename_i m hm
    cases hrun
    rw [hexits, hm]
  · obtain ⟨m, s₁, hnew, hrun⟩ := run_bind_eq_ok.1 hrun
    cases hnew
    cases hrun
    show (Construct.setExit k.handle s.labels.next s.constructs).filterMap Construct.exit? = _
    rw [hset, List.filterMap_append, List.filterMap_cons_some (Construct.exit?_withExit hc _)]
  · rename_i m hm
    cases hrun
    exact .inl ⟨hm, rfl⟩
  · rename_i hm
    obtain ⟨m, s₁, hnew, hrun⟩ := run_bind_eq_ok.1 hrun
    cases hnew
    cases hrun
    exact .inr ⟨hm, rfl, rfl⟩

end Emit

/-! ## Every operation -/

namespace Operation

variable {o : Operation} {a : Answer} {level : TraceDetail} {s s' : Session} {h : LoopHandle} {x : Option Label}

/-- The operation opens a loop that can be broken out of. -/
def opensLoop : Operation → Bool
  | .openFor .. | .openEach .. => true
  | _ => false

theorem keeps_done {e : Emit Unit} (h : e.Keeps) : (perform.done e).Keeps := h.bind fun _ => Emit.keeps_pure _

/-- An operation that neither opens nor closes a loop, and breaks out of none, **keeps** the labels behind the
loops. -/
theorem keeps_perform (hopens : o.opensLoop = false) (hcloses : o.closesLoop = false) (hloops : o.loops = []) :
    o.perform.Keeps := by
  by_cases ho : o.isStraight
  · exact (sparing_perform ho).keeps
  cases o with
  | newLabel => exact Emit.keeps_newLabel.bind fun _ => Emit.keeps_pure _
  | markHere l => exact keeps_done (Emit.keeps_markHere l)
  | jumpTo l => exact keeps_done (Emit.keeps_noted _ _)
  | jumpIfTrue l => exact keeps_done (Emit.keeps_noted _ _)
  | jumpIfFalse l => exact keeps_done (Emit.keeps_noted _ _)
  | jumpIfLess l => exact keeps_done (Emit.keeps_noted _ _)
  | jumpIfGreater l => exact keeps_done (Emit.keeps_noted _ _)
  | jumpIfLessOrEqual l => exact keeps_done (Emit.keeps_noted _ _)
  | toFullText t => exact keeps_done (Emit.keeps_toFullText t)
  | openIfTrue => exact keeps_done Emit.keeps_openIfTrue
  | openIfFalse => exact keeps_done Emit.keeps_openIfFalse
  | openIf c => exact keeps_done (Emit.keeps_openIf c)
  | openIfCompared a c b => exact keeps_done (Emit.keeps_openIfCompared a c b)
  | openElse => exact keeps_done Emit.keeps_openElse
  | openElseIf a c b => exact keeps_done (Emit.keeps_openElseIf a c b)
  | closeIf => exact keeps_done Emit.keeps_closeIf
  | openIfNotZero o => exact keeps_done (Emit.keeps_openIfNotZero o)
  | openIfNotEmpty l =>
    exact keeps_done ((Emit.sparing_loadTextLength l).keeps.bind fun _ => Emit.keeps_openIf _)
  | openElseIfEmpty l => exact keeps_done (Emit.keeps_openElseIfEmpty l)
  | openSwitch n => exact (Emit.keeps_openSwitch n).bind fun _ => Emit.keeps_pure _
  | openCase l name => exact keeps_done ((Emit.keeps_note _).bind fun _ => Emit.keeps_markHere l)
  | closeCase => exact keeps_done Emit.keeps_closeCase
  | openDefault => exact keeps_done Emit.keeps_openDefault
  | closeSwitch => exact keeps_done Emit.keeps_closeSwitch
  | openWhile => exact keeps_done Emit.keeps_openWhile
  | openWhileBody c => exact keeps_done (Emit.keeps_openWhileBody c)
  | closeWhile => exact keeps_done Emit.keeps_closeWhile
  | openFor => cases hopens
  | openEach => cases hopens
  | closeFor => cases hcloses
  | closeEach => cases hcloses
  | leave => cases hloops
  | leaveIfTrue => cases hloops
  | leaveIfFalse => cases hloops
  | _ => exact absurd rfl ho

/-- The jump of a break. -/
def breakTo {L : Type} (o : Operation) (l : L) : Jump L :=
  match o with
  | .leaveIfTrue _ => .ifTrue l
  | .leaveIfFalse _ => .ifFalse l
  | _ => .always l

/-- A **break** is a jump to the label behind its loop. -/
theorem perform_break (ho : h ∈ o.loops) : ∃ text : Label → String, o.perform = perform.done (do
    let l ← Emit.exitOf h
    Emit.note (text l)
    Emit.jump (o.breakTo l)) := by
  cases o with
  | leave k =>
    obtain rfl := List.mem_singleton.1 ho
    exact ⟨_, rfl⟩
  | leaveIfTrue k =>
    obtain rfl := List.mem_singleton.1 ho
    exact ⟨_, rfl⟩
  | leaveIfFalse k =>
    obtain rfl := List.mem_singleton.1 ho
    exact ⟨_, rfl⟩
  | _ => cases ho

/-- What an accepted break records: a line, and a jump to the label behind the loop. -/
theorem broken_of_perform {t : Tracer} (ho : h ∈ o.loops) (hrun : (o.perform.run t).run s = .ok a s') :
    ∃ l s₁ line, ((Emit.exitOf h).run t).run s = .ok l s₁ ∧ s' = (s₁.written t line).jumped (o.breakTo l) := by
  obtain ⟨text, hperform⟩ := perform_break ho
  rw [hperform, perform.done, Emit.run_bind_eq_ok] at hrun
  obtain ⟨_, s₃, hrun, hdone⟩ := hrun
  cases hdone
  obtain ⟨l, s₁, hexit, hrun⟩ := Emit.run_bind_eq_ok.1 hrun
  rw [Emit.run_bind_ok (Emit.run_note _ _ _)] at hrun
  obtain ⟨-, rfl⟩ := Emit.jumped_of_jump hrun
  exact ⟨l, s₁, _, hexit, rfl⟩

/-- **What an accepted operation makes of the labels behind loops**: it closes the innermost loop, or it breaks
out of one, which has a label behind it from then on, or it opens one without a label. -/
theorem exits_perform (hs : s.Fit) (hrun : (o.perform.run (.ofLevel level)).run s = .ok a s') :
    (o.closesLoop ∧ o.loops = [] ∧ ∃ e, s.exits = e :: s'.exits) ∨
    (o.loops = [] ∧ ∃ new, (∀ e ∈ new, e.2 = none) ∧ s'.exits = new ++ s.exits) ∨
    ∃ h l front x back, h ∈ o.loops ∧ s.exits = front ++ (h, x) :: back ∧
      s'.exits = front ++ (h, some l) :: back ∧ (x = none ∨ x = some l) := by
  have hloop : ∀ {h}, h ∈ o.loops → ∃ h l front x back, h ∈ o.loops ∧ s.exits = front ++ (h, x) :: back ∧
      s'.exits = front ++ (h, some l) :: back ∧ (x = none ∨ x = some l) := by
    intro h ho
    obtain ⟨l, s₁, line, hexit, rfl⟩ := broken_of_perform ho hrun
    obtain ⟨front, x, back, hbefore, hbehind, -, hx⟩ := Emit.exit_of_exitOf hexit
    have hsame : ((s₁.written (.ofLevel level) line).jumped (o.breakTo l)).constructs = s₁.constructs := by simp
    refine ⟨h, l, front, x, back, ho, hbefore, ?_, hx.symm.imp And.left And.left⟩
    exact (congrArg (List.filterMap Construct.exit?) hsame).trans hbehind
  cases o with
  | openFor index start bound =>
    obtain ⟨h, -, hopen⟩ := eq_map hrun
    obtain ⟨-, hexits⟩ := Emit.opensExit_openFor index start bound level s s' h hs hopen
    exact .inr (.inl ⟨rfl, [(h, none)], by simp, hexits⟩)
  | openEach l element enumerator m =>
    obtain ⟨h, -, hopen⟩ := eq_map hrun
    obtain ⟨-, hexits⟩ := Emit.opensExit_openEach l element enumerator m level s s' h hs hopen
    exact .inr (.inl ⟨rfl, [(h, none)], by simp, hexits⟩)
  | closeFor =>
    obtain ⟨_, s₁, hclose, hdone⟩ := Emit.run_bind_eq_ok.1 hrun
    cases hdone
    exact .inl ⟨rfl, rfl, (Emit.closesExit_closeFor level s s' _ hs hclose).2⟩
  | closeEach m =>
    obtain ⟨_, s₁, hclose, hdone⟩ := Emit.run_bind_eq_ok.1 hrun
    cases hdone
    exact .inl ⟨rfl, rfl, (Emit.closesExit_closeEach m level s s' _ hs hclose).2⟩
  | leave h => exact .inr (.inr (hloop List.mem_cons_self))
  | leaveIfTrue h => exact .inr (.inr (hloop List.mem_cons_self))
  | leaveIfFalse h => exact .inr (.inr (hloop List.mem_cons_self))
  | _ => exact .inr (.inl ⟨rfl, [], by simp, (keeps_perform rfl rfl rfl level s s' a hs hrun).2⟩)

end Operation

end Stackwright
