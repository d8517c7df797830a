import Stackwright.Proofs.Structure.Ledger

/-! # The accounts of structured calls

What each structured emission call needs in the ledger of a session, and what it leaves there. An opening
call enters what its construct owes, the closing call marks it, and an alternative of a conditional
settles the one before it. The text of a value opens and closes constructs of its own, so it leaves the
ledger as it is. -/

namespace Stackwright

namespace Emit

variable {g : Signature} {cs : List Construct} {bs ls : List Label} {l head otherwise finish : Label}
  {loop : LoopState}

/-! ## Straight-line parts -/

theorem accepted_traced (text : String) (o : Op) : Accepted g (traced text o) :=
  ⟨_, _, run_traced_silent _ text o⟩

theorem steady_traced (text : String) {o : Op} (h : o.isPlain) : Steady g (traced text o) :=
  (sparing_traced text o h).steady (accepted_traced text o)

theorem steady_note (text : String) : Steady g (note text) :=
  (sparing_note text).steady ⟨_, _, run_note_silent _ text⟩

theorem steady_noteLabels (ls : List Label) : Steady g (noteLabels ls) := by
  induction ls with
  | nil => exact steady_pure _
  | cons l ls ih => exact (steady_note _).bind fun _ => ih

theorem steady_loadNull : Steady g loadNull := steady_traced _ rfl

theorem steady_loadText (text : String) : Steady g (loadText text) := steady_traced _ rfl

theorem steady_loadInt (n : Int) : Steady g (loadInt n) := steady_traced _ rfl

theorem steady_call (m : Method) : Steady g (call m) :=
  (sparing_call m).steady (accepted_traced _ _)

theorem steady_loadLocal (l : Local) : Steady g (loadLocal l) :=
  (sparing_loadLocal l).steady ⟨_, _, run_loadLocal_silent _ l⟩

theorem steady_storeLocal (l : Local) : Steady g (storeLocal l) :=
  (sparing_storeLocal l).steady ⟨_, _, run_storeLocal_silent _ l⟩

/-- A new local has its type. -/
theorem ensures_newLocal (t : Ty) (name : String) :
    (newLocal t name).Ensures (Session.Ledger g cs bs ls) fun l s => l.type = t ∧ s.Ledger g cs bs ls := by
  intro level s hs
  have hdeclared := Session.spares_declared hs.fit t name
  exact ⟨_, _, run_newLocal _ s t name, rfl,
    (hs.spared hdeclared).spared (Session.spares_written hdeclared.fit _ _)⟩

theorem steady_loadLength : Steady g loadLength :=
  (steady_traced _ rfl).bind fun _ => steady_traced _ rfl

theorem steady_loadTextLength (l : Local) : Steady g (loadTextLength l) :=
  (steady_loadLocal l).bind fun _ => (steady_call _).bind fun _ => steady_loadInt 0

/-! ## Jumps -/

/-- A jump to a label behind or ahead, behind its line. -/
theorem ensures_noted_jump {text : String} {j : Jump Label} (hj : ∀ l ∈ j.targets, l ∈ bs ∨ l ∈ ls) :
    (do note text; jump j).Ensures (Session.Ledger g cs bs ls) fun _ => Session.Ledger g cs bs ls :=
  (steady_note text).ensures fun _ => ensures_jump hj

theorem ensures_jumpTo (hl : l ∈ bs ∨ l ∈ ls) :
    (jumpTo l).Ensures (Session.Ledger g cs bs ls) fun _ => Session.Ledger g cs bs ls :=
  ensures_noted_jump (by simpa [Jump.targets] using hl)

theorem ensures_jumpIfTrue (hl : l ∈ bs ∨ l ∈ ls) :
    (jumpIfTrue l).Ensures (Session.Ledger g cs bs ls) fun _ => Session.Ledger g cs bs ls :=
  ensures_noted_jump (by simpa [Jump.targets] using hl)

theorem ensures_jumpIfFalse (hl : l ∈ bs ∨ l ∈ ls) :
    (jumpIfFalse l).Ensures (Session.Ledger g cs bs ls) fun _ => Session.Ledger g cs bs ls :=
  ensures_noted_jump (by simpa [Jump.targets] using hl)

theorem ensures_jumpIfLess (hl : l ∈ bs ∨ l ∈ ls) :
    (jumpIfLess l).Ensures (Session.Ledger g cs bs ls) fun _ => Session.Ledger g cs bs ls :=
  ensures_noted_jump (by simpa [Jump.targets] using hl)

/-- The label that a guard jumps to is owed. -/
theorem ensures_jumpUnless (c : Comparison) :
    (jumpUnless c).Ensures (Session.Ledger g cs bs ls) fun l => Session.Ledger g cs bs (l :: ls) := by
  refine ensures_newLabel.bind fun l => (steady_note _).ensures fun _ => ?_
  refine Ensures.bind (ensures_jump (by simp [Jump.targets])) fun _ => ?_
  exact (ensures_pure l).mono (fun _ hs => hs) fun _ _ hs => hs.1 ▸ hs.2

/-! ## Conditionals -/

/-- The construct is a conditional that may go on to another alternative. -/
def IsBranching (c : Construct) : Prop :=
  ∃ otherwise finish, otherwise ≠ finish ∧ c = .conditional otherwise finish

/-- The labels of a conditional are two as long as both of them are owed. -/
theorem ensures_openConditional :
    (openConstruct (.conditional otherwise finish)).Ensures
      (Session.Ledger g cs bs (otherwise :: finish :: ls)) fun _ s =>
        otherwise ≠ finish ∧
          s.Ledger g (.conditional otherwise finish :: cs) bs (otherwise :: finish :: ls) := by
  refine (ensures_openConstruct (c := .conditional otherwise finish) rfl).mono (fun _ hs => hs)
    fun _ s hs => ⟨?_, hs⟩
  rintro rfl
  exact (List.nodup_cons.1 hs.owes.nodup).1 List.mem_cons_self

/-- A new conditional is branching. -/
theorem opens_conditional (jumps : Label → Emit Unit)
    (hjumps : ∀ l cs bs ls, (jumps l).Ensures (Session.Ledger g cs bs (l :: ls)) fun _ =>
      Session.Ledger g cs bs (l :: ls)) :
    Opens g (do
      let finish ← newLabel
      let otherwise ← newLabel
      jumps otherwise
      openConstruct (.conditional otherwise finish)) fun _ => IsBranching := by
  intro cs bs ls
  refine ensures_newLabel.bind fun finish => ensures_newLabel.bind fun otherwise =>
    (hjumps otherwise _ _ _).bind fun _ => ?_
  refine ensures_openConditional.mono (fun _ hs => hs) fun _ s hs => ?_
  obtain ⟨hne, hs⟩ := hs
  refine ⟨.conditional otherwise finish, ⟨otherwise, finish, hne, rfl⟩, ?_⟩
  rw [Construct.owed_conditional hne]
  exact hs

theorem opens_openIfTrue : Opens g openIfTrue fun _ => IsBranching :=
  opens_conditional jumpIfFalse fun _ _ _ _ => ensures_jumpIfFalse (.inr List.mem_cons_self)

theorem opens_openIfFalse : Opens g openIfFalse fun _ => IsBranching :=
  opens_conditional jumpIfTrue fun _ _ _ _ => ensures_jumpIfTrue (.inr List.mem_cons_self)

theorem opens_openIf (c : Comparison) : Opens g (openIf c) fun _ => IsBranching := by
  have h := opens_conditional (g := g)
    (fun l => do note ("Branch if " ++ c.negated.name ++ " to " ++ l.text); jump (.compare c.negated l))
    fun _ _ _ _ => ensures_noted_jump (by simp [Jump.targets])
  have heq : openIf c = (do
      let finish ← newLabel
      let otherwise ← newLabel
      (do note ("Branch if " ++ c.negated.name ++ " to " ++ otherwise.text)
          jump (.compare c.negated otherwise) : Emit Unit)
      openConstruct (.conditional otherwise finish)) := by
    simp only [openIf, jumpUnless, bind_assoc, pure_bind]
  rw [heq]
  exact h

/-- Settles an alternative: its label is marked, and the end of the conditional is still owed. -/
theorem ensures_nextAlternative :
    nextAlternative.Ensures (Session.Ledger g (.conditional otherwise finish :: cs) bs (otherwise :: finish :: ls))
      fun f s => f = finish ∧ s.Ledger g cs bs (finish :: ls) := by
  refine Ensures.answer ensures_takeConditional ?_
  refine (ensures_jumpTo (.inr (List.mem_cons_of_mem _ List.mem_cons_self))).bind fun _ => ?_
  exact ensures_markHere_past.bind fun _ => ensures_pure finish

/-- The last alternative leaves the end. -/
theorem replaces_openElse (h : otherwise ≠ finish) :
    Replaces g openElse (.conditional otherwise finish) (· = .conditional finish finish) := by
  intro cs bs ls
  rw [Construct.owed_conditional h]
  refine Ensures.answer ensures_nextAlternative ?_
  refine (ensures_openConstruct (c := .conditional finish finish) rfl).mono (fun _ hs => hs)
    fun _ s hs => ⟨_, rfl, ?_⟩
  rw [Construct.owed_last]
  exact hs

/-- Another alternative leaves a branching conditional. -/
theorem replaces_alternative (guard : Emit Label) (h : otherwise ≠ finish)
    (hguard : ∀ cs bs ls, guard.Ensures (Session.Ledger g cs bs ls) fun l => Session.Ledger g cs bs (l :: ls)) :
    Replaces g (do
      let finish ← nextAlternative
      let otherwise ← guard
      openConstruct (.conditional otherwise finish))
        (.conditional otherwise finish) fun c => ∃ next, next ≠ finish ∧ c = .conditional next finish := by
  intro cs bs ls
  rw [Construct.owed_conditional h]
  refine Ensures.answer ensures_nextAlternative ((hguard _ _ _).bind fun next => ?_)
  refine ensures_openConditional.mono (fun _ hs => hs) fun _ s hs => ?_
  obtain ⟨hne, hs⟩ := hs
  refine ⟨_, ⟨next, hne, rfl⟩, ?_⟩
  rw [Construct.owed_conditional hne]
  exact hs

theorem replaces_openElseIf {a b : Operand} (c : Comparison) (ha : Accepted g (load a))
    (hb : Accepted g (load b)) (h : otherwise ≠ finish) :
    Replaces g (openElseIf a c b) (.conditional otherwise finish) fun c =>
      ∃ next, next ≠ finish ∧ c = .conditional next finish := by
  have hguard := replaces_alternative (g := g) (do load a; load b; jumpUnless c) h fun _ _ _ =>
    ((sparing_load a).steady ha).ensures fun _ => ((sparing_load b).steady hb).ensures fun _ =>
      ensures_jumpUnless c
  simp only [bind_assoc] at hguard
  exact hguard

theorem replaces_openElseIfEmpty (l : Local) (h : otherwise ≠ finish) :
    Replaces g (openElseIfEmpty l) (.conditional otherwise finish) fun c =>
      ∃ next, next ≠ finish ∧ c = .conditional next finish := by
  have hguard := replaces_alternative (g := g) (do loadTextLength l; jumpUnless .equalTo) h
    fun _ _ _ => (steady_loadTextLength l).ensures fun _ => ensures_jumpUnless _
  simp only [bind_assoc] at hguard
  exact hguard

/-- A conditional is closed, in its last alternative or before. -/
theorem closes_closeIf (otherwise finish : Label) : Closes g closeIf (.conditional otherwise finish) := by
  intro cs bs ls
  refine Ensures.answer ensures_takeConditional ?_
  dsimp only
  by_cases h : otherwise = finish
  · subst h
    rw [Construct.owed_last, if_pos rfl]
    exact (steady_pure ()).ensures fun _ => ensures_markHere_past
  · rw [Construct.owed_conditional h, if_neg h]
    exact ensures_markHere_past.bind fun _ => ensures_markHere_past

/-! ## Loops -/

/-- A new loop owes its body, and its test if it has an index. -/
theorem ensures_newLoop (slot : Option Local) (bound : Operand) :
    (newLoop slot bound).Ensures (Session.Ledger g cs bs ls) fun loop s =>
      (loop.slot = slot ∧ loop.bound = bound ∧ loop.exit = none) ∧
        s.Ledger g cs bs (loop.body :: ((slot.map fun _ => loop.test).toList ++ ls)) := by
  intro level s hs
  have hnumbered : s.numbered.Ledger g cs bs ls :=
    ⟨(Session.turned_numbered hs.fit).fit, hs.signature, hs.constructs, hs.backs, hs.owes⟩
  refine ⟨_, _, run_newLoop _ s slot bound, ⟨rfl, rfl, rfl⟩, ?_⟩
  -- the body is defined first
  obtain ⟨body, s₁, hbody, hledger⟩ := ensures_newLabel level _ hnumbered
  cases hbody
  cases slot with
  | none =>
    obtain ⟨test, s₂, htest, hledger⟩ := ensures_newLabel_unused level _ hledger
    cases htest
    exact hledger
  | some l =>
    obtain ⟨test, s₂, htest, hledger⟩ := ensures_newLabel level _ hledger
    cases htest
    exact hledger.perm (.swap ..)

theorem opens_openFor {index : Option Local} {start bound : Operand}
    (hstart : index.isSome → Accepted g (load start)) :
    Opens g (openFor index start bound) fun a c =>
      ∃ loop : LoopState, loop.handle = a ∧ loop.slot = index ∧ loop.bound = bound ∧ loop.exit = none ∧
        c = .counted loop := by
  intro cs bs ls
  refine (ensures_newLoop index bound).bind fun loop => Ensures.and fun hloop => ?_
  obtain ⟨rfl, rfl, hexit⟩ := hloop
  -- the body begins behind what enters the loop
  have hopen : (do markHere loop.body; openConstruct (.counted loop); pure loop.handle).Ensures
      (Session.Ledger g cs bs (loop.body :: ((loop.slot.map fun _ => loop.test).toList ++ ls))) fun a s =>
        ∃ c, (∃ loop' : LoopState, loop'.handle = a ∧ loop'.slot = loop.slot ∧ loop'.bound = loop.bound ∧
          loop'.exit = none ∧ c = Construct.counted loop') ∧ s.Ledger g (c :: cs) (c.backs ++ bs) (c.owed ++ ls) := by
    have hgoals : (Construct.counted loop).goals = [] := congrArg Option.toList hexit
    refine ensures_markHere.bind fun _ => (ensures_openConstruct hgoals).bind fun _ => ?_
    refine (ensures_pure loop.handle).mono (fun _ hs => hs) fun a s hs => ?_
    obtain ⟨rfl, hs⟩ := hs
    refine ⟨.counted loop, ⟨loop, rfl, rfl, rfl, hexit, rfl⟩, ?_⟩
    simpa only [Construct.owed, Construct.backs, hexit, Option.toList_none, List.append_nil,
      List.cons_append, List.nil_append] using hs
  cases hslot : loop.slot with
  | none =>
    rw [hslot] at hopen
    exact (steady_pure ()).ensures fun _ => hopen
  | some l =>
    rw [hslot] at hopen hstart
    refine ((sparing_load start).steady (hstart rfl)).ensures fun _ => (steady_storeLocal l).ensures fun _ => ?_
    exact (ensures_jumpTo (.inr (by simp))).bind fun _ => hopen

/-- The label behind a loop is marked if it is owed. -/
theorem ensures_markExit :
    (markExit loop).Ensures (Session.Ledger g cs bs (loop.exit.toList ++ ls)) fun _ =>
      Session.Ledger g cs bs ls := by
  unfold markExit
  cases loop.exit with
  | none => exact steady_pure () cs bs ls
  | some l => exact ensures_markHere_past

/-- Behind the jump back, a loop is left behind. -/
theorem ensures_backward {back : Emit Unit}
    (hback : back.Ensures (Session.Ledger g cs (loop.body :: bs) (loop.exit.toList ++ ls)) fun _ =>
      Session.Ledger g cs (loop.body :: bs) (loop.exit.toList ++ ls)) :
    (do back; markExit loop).Ensures
      (Session.Ledger g cs (loop.body :: bs) (loop.exit.toList ++ ls)) fun _ => Session.Ledger g cs bs ls :=
  hback.bind fun _ => ensures_markExit.mono (fun _ hs => hs) fun _ _ hs => hs.weaken (List.subset_cons_self _ _)

theorem closes_closeFor (hbound : loop.slot.isSome → Accepted g (load loop.bound)) :
    Closes g closeFor (.counted loop) := by
  intro cs bs ls
  refine Ensures.answer ensures_takeCounted ?_
  rw [Construct.owed, Construct.backs, List.append_assoc]
  cases hslot : loop.slot with
  | none => exact ensures_backward (ensures_jumpTo (.inl List.mem_cons_self))
  | some l =>
    rw [hslot] at hbound
    refine (steady_loadLocal l).ensures fun _ => (steady_loadInt 1).ensures fun _ =>
      (steady_traced "Add" rfl).ensures fun _ => (steady_storeLocal l).ensures fun _ =>
        ensures_markHere_past.bind fun _ => (steady_loadLocal l).ensures fun _ =>
          ((sparing_load _).steady (hbound rfl)).ensures fun _ => ?_
    have hback : (do jumpIfLess loop.body; markExit loop).Ensures
        (Session.Ledger g cs (loop.body :: bs) (loop.exit.toList ++ ls)) fun _ => Session.Ledger g cs bs ls :=
      ensures_backward (ensures_jumpIfLess (.inl List.mem_cons_self))
    split
    · exact steady_loadLength.ensures fun _ => hback
    · exact hback

theorem opens_openEach {l enumerator : Local} {element : Ty} {getCurrent : Method}
    (hcurrent : Accepted g (callWith (some (.variable enumerator)) getCurrent []))
    (hconvert : Accepted g (convertTop element l.type)) :
    Opens g (openEach l element enumerator getCurrent) fun a c =>
      ∃ loop : LoopState, loop.handle = a ∧ loop.bound = .variable enumerator ∧ loop.exit = none ∧
        c = .enumerated loop := by
  intro cs bs ls
  refine (ensures_newLoop (some l) (.variable enumerator)).bind fun loop => Ensures.and fun hloop => ?_
  obtain ⟨-, hbound, hexit⟩ := hloop
  have hgoals : (Construct.enumerated loop).goals = [] := congrArg Option.toList hexit
  refine (ensures_jumpTo (.inr (by simp))).bind fun _ => ensures_markHere.bind fun _ => ?_
  rw [hbound]
  refine ((sparing_callWith _ _ _).steady hcurrent).ensures fun _ =>
    ((sparing_convertTop _ _).steady hconvert).ensures fun _ => (steady_storeLocal l).ensures fun _ =>
      (ensures_openConstruct hgoals).bind fun _ => ?_
  refine (ensures_pure loop.handle).mono (fun _ hs => hs) fun a s hs => ?_
  obtain ⟨rfl, hs⟩ := hs
  refine ⟨.enumerated loop, ⟨loop, rfl, hbound, hexit, rfl⟩, ?_⟩
  simpa only [Construct.owed, Construct.backs, hexit, Option.toList_none, Option.map_some,
    Option.toList_some, List.append_nil, List.cons_append, List.nil_append] using hs

theorem closes_closeEach {moveNext : Method} (hnext : Accepted g (callWith (some loop.bound) moveNext [])) :
    Closes g (closeEach moveNext) (.enumerated loop) := by
  intro cs bs ls
  refine Ensures.answer ensures_takeEnumerated ?_
  refine ensures_markHere_past.bind fun _ => ((sparing_callWith _ _ _).steady hnext).ensures fun _ => ?_
  exact ensures_backward (ensures_jumpIfTrue (.inl List.mem_cons_self))

/-! ### While loops -/

theorem opens_openWhile : Opens g openWhile fun _ c => ∃ head, c = .whileLoop head := by
  intro cs bs ls
  refine ensures_newLabel.bind fun head => ensures_markHere.bind fun _ => ?_
  exact (ensures_openConstruct_whileLoop List.mem_cons_self).mono (fun _ hs => hs) fun _ _ hs =>
    ⟨.whileLoop head, ⟨head, rfl⟩, hs⟩

/-- The body of a while loop is in a conditional that is open beneath it. -/
theorem ensures_openWhileBody (c : Comparison) :
    (openWhileBody c).Ensures (Session.Ledger g (.whileLoop head :: cs) (head :: bs) ls) fun _ s =>
      ∃ c, IsBranching c ∧ s.Ledger g (.whileLoop head :: c :: cs) (head :: (c.backs ++ bs)) (c.owed ++ ls) := by
  refine Ensures.answer ensures_takeWhileHead ((opens_openIf c _ _ _).bind fun _ => ?_)
  refine Ensures.exists fun c => Ensures.and fun hc => ?_
  have hhead : head ∈ c.backs ++ head :: bs := List.mem_append_right _ List.mem_cons_self
  refine (ensures_openConstruct_whileLoop hhead).mono (fun _ hs => hs) fun _ s hs =>
    ⟨c, hc, hs.weaken fun l hl => ?_⟩
  exact List.perm_middle.mem_iff.2 hl

/-- A while loop is closed together with the conditional around its body. -/
theorem ensures_closeWhile :
    closeWhile.Ensures
      (Session.Ledger g (.whileLoop head :: .conditional otherwise finish :: cs) (head :: bs)
        ((Construct.conditional otherwise finish).owed ++ ls)) fun _ => Session.Ledger g cs bs ls := by
  refine Ensures.answer ensures_takeWhileHead ?_
  refine (ensures_jumpTo (.inl List.mem_cons_self)).bind fun _ => ?_
  exact (closes_closeIf otherwise finish cs (head :: bs) ls).mono (fun _ hs => hs) fun _ _ hs =>
    hs.weaken (List.subset_cons_self _ _)

/-! ## Switches -/

/-- New labels are owed. -/
theorem ensures_newLabels (n : Nat) :
    (newLabels n).Ensures (Session.Ledger g cs bs ls) fun new s =>
      new.length = n ∧ s.Ledger g cs bs (new ++ ls) := by
  induction n generalizing ls with
  | zero =>
    refine (ensures_pure []).mono (fun _ hs => hs) fun new s hs => ?_
    obtain ⟨rfl, hs⟩ := hs
    exact ⟨rfl, hs⟩
  | succ n ih =>
    refine ensures_newLabel.bind fun l => ih.bind fun new => Ensures.and fun hlen => ?_
    refine (ensures_pure (l :: new)).mono (fun _ hs => hs) fun new' s hs => ?_
    obtain ⟨rfl, hs⟩ := hs
    exact ⟨congrArg Nat.succ hlen, hs.perm List.perm_middle⟩

/-- The labels of the cases are owed besides those of the switch. -/
theorem ensures_openSwitch (cases : Nat) :
    (openSwitch cases).Ensures (Session.Ledger g cs bs ls) fun labels s =>
      ∃ default finish, labels.length = cases ∧
        s.Ledger g (.switch default finish false :: cs) bs
          ((Construct.switch default finish false).owed ++ (labels ++ ls)) := by
  refine ensures_newLabel.bind fun default => ensures_newLabel.bind fun finish =>
    (ensures_newLabels cases).bind fun labels => Ensures.and fun hlen => ?_
  refine (steady_note _).ensures fun _ => (steady_noteLabels labels).ensures fun _ =>
    (steady_note _).ensures fun _ => ?_
  refine (ensures_jump (by simp +contextual [Jump.targets])).bind fun _ =>
    (ensures_jumpTo (.inr (by simp))).bind fun _ =>
      (ensures_openConstruct (c := .switch default finish false) rfl).bind fun _ => ?_
  refine (ensures_pure labels).mono (fun _ hs => hs) fun labels' s hs => ?_
  obtain ⟨rfl, hs⟩ := hs
  refine ⟨default, finish, hlen, hs.perm ?_⟩
  -- the labels of the switch were defined before those of its cases
  have hperm : (labels' ++ ([finish] ++ ([default] ++ ls))).Perm ([default, finish] ++ (labels' ++ ls)) := by
    rw [← List.append_assoc, ← List.append_assoc, ← List.append_assoc]
    refine List.Perm.append_right ls ?_
    rw [List.append_assoc]
    exact (List.perm_append_comm).trans (List.Perm.append_right _ (.swap ..))
  exact hperm

/-- The section of a case marks its label. -/
theorem ensures_openCase (l : Label) (name : String) :
    (openCase l name).Ensures (Session.Ledger g cs bs (l :: ls)) fun _ => Session.Ledger g cs bs ls :=
  (steady_note _).ensures fun _ => ensures_markHere_past

/-- The end of a section jumps to the end of the switch. -/
theorem replaces_closeCase (default finish : Label) (given : Bool) :
    Replaces g closeCase (.switch default finish given) (· = .switch default finish given) := by
  intro cs bs ls
  have hfinish : finish ∈ (Construct.switch default finish given).owed := by
    cases given <;> simp [Construct.owed]
  refine Ensures.answer ensures_currentSwitch ?_
  refine (ensures_jumpTo (.inr (List.mem_append_left _ hfinish))).bind fun _ => ?_
  exact (steady_note _ _ _ _).mono (fun _ hs => hs) fun _ _ hs => ⟨_, rfl, hs⟩

/-- The default section may be begun once. -/
theorem replaces_openDefault (default finish : Label) :
    Replaces g openDefault (.switch default finish false) (· = .switch default finish true) := by
  intro cs bs ls
  refine Ensures.answer ensures_currentSwitch ?_
  intro level s hs
  have hgiven : (s.withConstructs (.switch default finish true :: cs)).Ledger g
      (.switch default finish true :: cs) bs (default :: ([finish] ++ ls)) := by
    refine hs.withConstructs fun c hc l hl => .inl ?_
    rcases List.mem_cons.1 hc with rfl | hmem
    · exact absurd hl List.not_mem_nil
    · exact ⟨c, List.mem_cons_of_mem _ hmem, hl⟩
  obtain ⟨a, s', hrun, hs'⟩ := ensures_markHere_past level _ hgiven
  refine ⟨a, s', ?_, _, rfl, hs'⟩
  rw [run_bind_ok (run_modify _ s _), hs.constructs]
  exact hrun

theorem closes_closeSwitch (default finish : Label) (given : Bool) :
    Closes g closeSwitch (.switch default finish given) := by
  intro cs bs ls
  refine Ensures.answer ensures_takeSwitch ((steady_note _).ensures fun _ => ?_)
  cases given with
  | true => exact (steady_pure ()).ensures fun _ => ensures_markHere_past
  | false => exact ensures_markHere_past.bind fun _ => ensures_markHere_past

/-! ## Full text -/

/-- Text behind a guard against null: a conditional that is opened and closed. -/
theorem steady_referenceText {text : Emit Unit} (h : Steady g text) : Steady g (referenceText text) := by
  intro cs bs ls
  refine (steady_traced "Dup" rfl).ensures fun _ => steady_loadNull.ensures fun _ =>
    (opens_openIf .equalTo _ _ _).bind fun _ => Ensures.exists fun c => Ensures.and fun hc => ?_
  obtain ⟨otherwise, finish, hne, rfl⟩ := hc
  refine (steady_traced "Pop" rfl).ensures fun _ => (steady_loadText _).ensures fun _ =>
    (replaces_openElse hne _ _ _).bind fun _ => Ensures.exists fun c => Ensures.and fun hc => ?_
  obtain rfl := hc
  exact h.ensures fun _ => closes_closeIf finish finish cs bs ls

/-- An item of an array local is always loaded. -/
theorem accepted_loadItemOf {array i : Local} {element : Ty} (h : array.type = .array element) :
    Accepted g (loadItemOf (.variable array) (.variable i)) := by
  obtain ⟨k, t⟩ := array
  obtain ⟨j, u⟩ := i
  subst h
  obtain ⟨s', hrun, -⟩ := writes_loadItemOf element k j u (.fresh 0 "" g .log) Nat.zero_lt_one
  exact ⟨(), s', hrun⟩

/-- The text of an array: a counted loop over it, with the text of an item in it. -/
theorem steady_arrayText {itemText : Emit Unit} (element : Ty) (h : Steady g itemText) :
    Steady g (arrayText (.array element) itemText) := by
  intro cs bs ls
  refine (ensures_newLocal _ _).bind fun array => Ensures.and fun harray => ?_
  refine (steady_storeLocal _).ensures fun _ => (steady_loadText _).ensures fun _ =>
    (ensures_newLocal _ _).bind fun text => Ensures.and fun _ => (steady_storeLocal _).ensures fun _ =>
      (ensures_newLocal _ _).bind fun i => Ensures.and fun _ => ?_
  have hbound : Accepted g (load (.variable array)) := ⟨_, _, run_loadLocal_silent _ array⟩
  have hlast : Steady g (do loadLocal text; loadText "\x7d"; joinTwo) :=
    (steady_loadLocal _).bind fun _ => (steady_loadText _).bind fun _ => steady_call _
  have hopen : Opens g (openFor (some i) (.constant (.scalar (.i32 0))) (.variable array)) _ :=
    opens_openFor fun _ => accepted_traced _ _
  refine hopen.closes (fun a c hc => ?_) cs bs ls
  obtain ⟨loop, -, -, hloop, -, rfl⟩ := hc
  exact (steady_loadLocal _).closes fun _ =>
    ((sparing_loadItemOf _ _).steady (accepted_loadItemOf harray)).closes fun _ => h.closes fun _ =>
      (steady_loadText _).closes fun _ => (steady_call _).closes fun _ => (steady_storeLocal _).closes fun _ =>
        (closes_closeFor fun _ => hloop ▸ hbound).steady fun _ => hlast

theorem steady_toFullText (t : Ty) : Steady g (toFullText t) := by
  induction t using toFullText.induct with
  | case1 element ih =>
    rw [toFullText]
    exact steady_referenceText (steady_arrayText element ih)
  | case2 t hne hvalue =>
    rw [toFullText.eq_2 t hne, if_pos hvalue]
    exact (steady_traced _ rfl).bind fun _ => steady_call _
  | case3 t hne hvalue =>
    rw [toFullText.eq_2 t hne, if_neg hvalue]
    exact steady_referenceText (steady_call _)

end Emit

end Stackwright
