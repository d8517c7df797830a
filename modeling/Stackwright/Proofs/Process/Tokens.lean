import Stackwright.Proofs.Structure.Discipline

/-! # Tokens and the session that answered them

The labels and the loops that a session answers are its own: they carry its number, and it keeps knowing
them. A jump to a label is accepted exactly if the session knows it, and a break out of a loop exactly if
the loop is open; every other label is unknown, and every other loop a structural mismatch.

* **`Session.openLoops`** — the open loops, innermost first.
* **`Operation.answers_perform`** — what an accepted operation answers, and what it does to the open loops.
* **`Operation.run_branch`**, **`Operation.run_break`** — which tokens are accepted. -/

namespace Stackwright

/-! ## Open loops -/

namespace Construct

variable {c : Construct} {cs : List Construct} {h : LoopHandle} {l : Label} {k : LoopState}

/-- The handle of a construct that can be broken out of. -/
def handle? (c : Construct) : Option LoopHandle := c.loop?.map LoopState.handle

theorem handle?_bare (c : Construct) : c.bare.handle? = c.handle? := by
  cases c <;> rfl

theorem isLoop_iff_handle? : c.isLoop h = true ↔ c.handle? = some h := by
  cases c <;> simp [isLoop, loop?, handle?]

/-- What a loop jumps to later is the label behind it. -/
theorem goals_of_loop? (hc : c.loop? = some k) : c.goals = k.exit.toList := by
  cases c <;> cases hc <;> rfl

theorem findLoop?_of_mem (hh : h ∈ cs.filterMap handle?) :
    ∃ c ∈ cs, ∃ k, c.loop? = some k ∧ findLoop? cs h = some k := by
  obtain ⟨c₀, hc₀, hloop₀⟩ := List.mem_filterMap.1 hh
  have hsome : (cs.find? (·.isLoop h)).isSome :=
    List.find?_isSome.2 ⟨c₀, hc₀, isLoop_iff_handle?.2 hloop₀⟩
  obtain ⟨c, hfind⟩ := Option.isSome_iff_exists.1 hsome
  have hloop : c.isLoop h = true := List.find?_some (p := fun c : Construct => c.isLoop h) hfind
  obtain ⟨k, hk, -⟩ := Option.map_eq_some_iff.1 (isLoop_iff_handle?.1 hloop)
  exact ⟨c, List.mem_of_find?_eq_some hfind, k, hk, by rw [findLoop?, hfind]; exact hk⟩

theorem findLoop?_of_not_mem (hh : h ∉ cs.filterMap handle?) : findLoop? cs h = none := by
  have hnone : cs.find? (·.isLoop h) = none := List.find?_eq_none.2 fun c hc hloop =>
    hh (List.mem_filterMap.2 ⟨c, hc, isLoop_iff_handle?.1 hloop⟩)
  rw [findLoop?, hnone]
  rfl

end Construct

/-- The bracket neither opens nor closes a loop that can be broken out of. -/
def Bracket.sparesLoops : Bracket → Prop
  | .opens k | .closes k => k ≠ .counted ∧ k ≠ .enumerated
  | .plain | .alternative | .part | .body => True

namespace Session

variable {s s' : Session} {b : Bracket} {k : ConstructKind}

/-- The **open loops** of a session, innermost first. -/
def openLoops (s : Session) : List LoopHandle := s.constructs.filterMap Construct.handle?

theorem openLoops_eq (s : Session) : s.openLoops = s.outline.filterMap Construct.handle? := by
  rw [openLoops, outline, List.filterMap_map]
  exact congrArg (List.filterMap · s.constructs) (funext fun c => c.handle?_bare.symm)

/-- Other brackets leave the open loops as they are. -/
theorem Turned.openLoops_eq (h : s.Turned b s') (hb : b.sparesLoops) : s'.openLoops = s.openLoops := by
  have hturns := h.outline
  rw [Session.openLoops_eq, Session.openLoops_eq]
  -- the open loops are read off the constructs; the brackets of loops are excluded
  cases b with
  | plain => exact congrArg _ hturns
  | opens k =>
    obtain ⟨c, hc, hcs⟩ := hturns
    rw [hcs]
    cases c <;> first | rfl | exact absurd hc.symm hb.1 | exact absurd hc.symm hb.2
  | alternative =>
    obtain ⟨o, o', f, rest, hcs, hcs', -⟩ := hturns
    rw [hcs, hcs']
    rfl
  | part =>
    obtain ⟨d, f, given, given', rest, hcs, hcs'⟩ := hturns
    rw [hcs, hcs']
    rfl
  | body =>
    obtain ⟨head, o, f, rest, hcs, hcs'⟩ := hturns
    rw [hcs, hcs']
    rfl
  | closes k =>
    cases k with
    | conditional =>
      obtain ⟨o, f, hcs, -⟩ := hturns
      rw [hcs]
      rfl
    | whileLoop =>
      obtain ⟨head, o, f, hcs, -⟩ := hturns
      rw [hcs]
      rfl
    | counted => exact absurd rfl hb.1
    | enumerated => exact absurd rfl hb.2
    | switch =>
      obtain ⟨c, hc, hcs⟩ := hturns
      rw [hcs]
      cases c <;> first | rfl | cases hc

/-- A closed loop was the innermost one. -/
theorem Turned.openLoops_tail (h : s.Turned (.closes k) s') (hk : k = .counted ∨ k = .enumerated) :
    s'.openLoops = s.openLoops.tail := by
  have hturns := h.outline
  rw [Session.openLoops_eq, Session.openLoops_eq]
  obtain ⟨c, hc, hcs⟩ : ∃ c : Construct, c.kind = k ∧ s.outline = c :: s'.outline := by
    rcases hk with rfl | rfl <;> exact hturns
  rw [hcs]
  rcases hk with rfl | rfl <;> cases c <;> first | rfl | cases hc

end Session

/-! ## Answers -/

namespace Emit

variable {t : Tracer} {s s' : Session} {h : LoopHandle}

/-- A call that **opens a loop** answers its handle: it has the number of the session, and a number that
no loop had before. -/
def OpensLoop (e : Emit LoopHandle) : Prop :=
  ∀ (level : TraceDetail) (s s' : Session) (h : LoopHandle), s.Fit →
    (e.run (.ofLevel level)).run s = .ok h s' →
      h = ⟨s.labels.session, s.nextLoop⟩ ∧ s.nextLoop < s'.nextLoop ∧ s'.openLoops = h :: s.openLoops

/-- A new loop is opened behind what turns nothing. -/
theorem opensLoop_of (slot : Option Local) (bound : Operand) {e : LoopState → Emit Unit}
    (he : ∀ k, (e k).Turns .plain) {c : LoopState → Construct} (hc : ∀ k, (c k).handle? = some k.handle) :
    (do
      let k ← newLoop slot bound
      e k
      openConstruct (c k)
      pure k.handle).OpensLoop := by
  intro level s s' h hs hrun
  obtain ⟨k, s₁, hnew, hrun⟩ := run_bind_eq_ok.1 hrun
  have hnumbered := turns_newLoop slot bound level s s₁ k hs hnew
  rw [run_newLoop] at hnew
  obtain ⟨u, s₂, hentry, hrun⟩ := run_bind_eq_ok.1 hrun
  have hentered := he k level s₁ s₂ u hnumbered.fit hentry
  obtain ⟨u', s₃, hopen, hrun⟩ := run_bind_eq_ok.1 hrun
  rw [run_openConstruct] at hopen
  cases hopen
  cases hrun
  cases hnew
  have hloops := (hnumbered.before hentered).openLoops_eq trivial
  refine ⟨rfl, hentered.loops, ?_⟩
  exact (List.filterMap_cons_some (hc _)).trans (congrArg (_ :: ·) hloops)

theorem opensLoop_openFor (index : Option Local) (start bound : Operand) :
    (openFor index start bound).OpensLoop := by
  cases index with
  | none =>
    exact opensLoop_of none bound (c := .counted) (fun k => turns_markHere k.body) fun _ => rfl
  | some l =>
    have h := opensLoop_of (some l) bound (c := .counted)
      (e := fun k => do load start; storeLocal l; jumpTo k.test; markHere k.body)
      (fun k => (sparing_load _).turns.bind fun _ => (sparing_storeLocal _).turns.bind fun _ =>
        (turns_jumpTo _).bind fun _ => turns_markHere _) fun _ => rfl
    simp only [bind_assoc] at h
    exact h

theorem opensLoop_openEach (l : Local) (element : Ty) (enumerator : Local) (getCurrent : Method) :
    (openEach l element enumerator getCurrent).OpensLoop := by
  have h := opensLoop_of (some l) (.variable enumerator) (c := .enumerated)
    (e := fun k => do
      jumpTo k.test
      markHere k.body
      callWith (some k.bound) getCurrent []
      convertTop element l.type
      storeLocal l)
    (fun k => (turns_jumpTo _).bind fun _ => (turns_markHere _).bind fun _ =>
      (sparing_callWith _ _ _).turns.bind fun _ => (sparing_convertTop _ _).turns.bind fun _ =>
        (sparing_storeLocal _).turns) fun _ => rfl
  simp only [bind_assoc] at h
  exact h

theorem known_next (s : Session) : s.defined.labels.Known s.labels.next :=
  ⟨rfl, by simp [Marks.next]⟩

/-- New labels are known. -/
theorem known_newLabels {n : Nat} {level : TraceDetail} {ls : List Label} (hs : s.Fit)
    (hrun : ((newLabels n).run (.ofLevel level)).run s = .ok ls s') : ∀ l ∈ ls, s'.labels.Known l := by
  induction n generalizing s ls with
  | zero =>
    cases hrun
    exact nofun
  | succ n ih =>
    obtain ⟨l, s₁, hnew, hrun⟩ := run_bind_eq_ok.1 hrun
    obtain ⟨ls', s₂, hrest, hrun⟩ := run_bind_eq_ok.1 hrun
    cases hrun
    have hdefined := turns_newLabel level s s₁ l hs hnew
    have hmore := turns_newLabels n level s₁ s' ls' hdefined.fit hrest
    cases hnew
    exact List.forall_mem_cons.2 ⟨hmore.known (known_next s), ih hdefined.fit hrest⟩

/-- The labels of the cases of a switch are known. -/
theorem known_openSwitch {cases : Nat} {level : TraceDetail} {ls : List Label} (hs : s.Fit)
    (hrun : ((openSwitch cases).run (.ofLevel level)).run s = .ok ls s') : ∀ l ∈ ls, s'.labels.Known l := by
  obtain ⟨default, s₁, hdefault, hrun⟩ := run_bind_eq_ok.1 hrun
  have hfirst := turns_newLabel level s s₁ default hs hdefault
  obtain ⟨finish, s₂, hfinish, hrun⟩ := run_bind_eq_ok.1 hrun
  have hsecond := turns_newLabel level s₁ s₂ finish hfirst.fit hfinish
  obtain ⟨ls', s₃, hlabels, hrun⟩ := run_bind_eq_ok.1 hrun
  have hknown := known_newLabels hsecond.fit hlabels
  have hthird := turns_newLabels cases level s₂ s₃ ls' hsecond.fit hlabels
  -- what follows the new labels opens the switch and keeps them known
  have hopen : (do
      note "switch ("
      noteLabels ls'
      note ") \x7b"
      jump (.switch ls')
      jumpTo default
      openConstruct (.switch default finish false)).Turns (.opens .switch) :=
    (turns_note _).bind fun _ => (turns_noteLabels _).bind fun _ => (turns_note _).bind fun _ =>
      (turns_jump _).bind fun _ => (turns_jumpTo _).bind fun _ =>
        turns_openConstruct (c := .switch default finish false) rfl
  have hrest : ((do
      (do
        note "switch ("
        noteLabels ls'
        note ") \x7b"
        jump (.switch ls')
        jumpTo default
        openConstruct (.switch default finish false))
      pure ls' : Emit (List Label)).run (.ofLevel level)).run s₃ = .ok ls s' := by
    simpa only [bind_assoc] using hrun
  obtain ⟨u, s₄, hopened, hrest⟩ := run_bind_eq_ok.1 hrest
  cases hrest
  exact fun l hl => (hopen level s₃ s' u hthird.fit hopened).known (hknown l hl)

/-! ## What is accepted -/

/-- The label behind an open loop is known, whether or not it is a new one. -/
theorem run_exitOf (hs : s.Fit) (hh : h ∈ s.openLoops) :
    ∃ l s', ((exitOf h).run t).run s = .ok l s' ∧ s'.labels.Known l := by
  obtain ⟨c, hc, k, hk, hfind⟩ := Construct.findLoop?_of_mem hh
  have hgoals := Construct.goals_of_loop? hk
  rw [exitOf, run_bind_ok (run_get _ s)]
  dsimp only
  rw [hfind]
  dsimp only
  cases hexit : k.exit with
  | some l =>
    refine ⟨l, s, rfl, hs.goals c hc l ?_⟩
    rw [hgoals, hexit]
    exact List.mem_singleton_self l
  | none => exact ⟨_, _, rfl, known_next s⟩

/-- A loop that is not open is a structural mismatch. -/
theorem run_exitOf_closed (hh : h ∉ s.openLoops) :
    ((exitOf h).run t).run s =
      .error (.structuralMismatch .counted (s.constructs.head?.map Construct.kind)) s := by
  rw [exitOf, run_bind_ok (run_get _ s)]
  dsimp only
  rw [Construct.findLoop?_of_not_mem hh]
  rfl

end Emit

/-! ## Operations -/

/-- The loop that is answered, if one is. -/
def Answer.loop? : Answer → Option LoopHandle
  | .loop h => some h
  | _ => none

namespace Operation

variable {t : Tracer} {s s' : Session} {o : Operation} {a : Answer} {l : Label} {h : LoopHandle}

/-- The operation closes a loop that can be broken out of. -/
def closesLoop : Operation → Bool
  | .closeFor | .closeEach _ => true
  | _ => false

/-- What an accepted operation makes of the open loops: it closes the innermost one, or opens the one that
it answers, if it answers one. -/
def turnLoops (o : Operation) (a : Answer) (hs : List LoopHandle) : List LoopHandle :=
  if o.closesLoop then hs.tail else a.loop?.toList ++ hs

/-- The label that an operation branches to. -/
def branch? : Operation → Option Label
  | .jumpTo l | .jumpIfTrue l | .jumpIfFalse l | .jumpIfLess l | .jumpIfGreater l
  | .jumpIfLessOrEqual l => some l
  | _ => none

/-! ### What is answered -/

/-- What an accepted operation **answers** belongs to its session. -/
structure Answers (o : Operation) (a : Answer) (s s' : Session) : Prop extends s.Onward s' where
  /-- The labels are known. -/
  issued : ∀ l ∈ a.issued, s'.labels.Known l
  /-- The loop is a new one of the session. -/
  fresh : ∀ h, a.loop? = some h →
    h.session = s.labels.session ∧ s.nextLoop ≤ h.id ∧ h.id < s'.nextLoop
  /-- The loop is opened, or the innermost one is closed. -/
  openLoops : s'.openLoops = o.turnLoops a s.openLoops

theorem eq_done {e : Emit Unit} (hrun : ((perform.done e).run t).run s = .ok a s') : a = .done := by
  obtain ⟨_, _, -, hlast⟩ := Emit.run_bind_eq_ok.1 hrun
  cases hlast
  rfl

theorem eq_map {α : Type} {e : Emit α} {f : α → Answer} (hrun : ((f <$> e).run t).run s = .ok a s') :
    ∃ x, a = f x ∧ (e.run t).run s = .ok x s' := by
  rw [map_eq_pure_bind] at hrun
  obtain ⟨x, s₁, hfirst, hlast⟩ := Emit.run_bind_eq_ok.1 hrun
  cases hlast
  exact ⟨x, rfl, hfirst⟩

/-- What answers neither labels nor a loop, and leaves the open loops as they are or closes the innermost
one. -/
theorem answers_of {b : Bracket} (hturned : s.Turned b s') (hissued : a.issued = []) (hloop : a.loop? = none)
    (hloops : o.closesLoop = false ∧ b.sparesLoops ∨
      o.closesLoop = true ∧ (b = .closes .counted ∨ b = .closes .enumerated)) :
    o.Answers a s s' where
  toOnward := hturned.toOnward
  issued l hl := by
    rw [hissued] at hl
    exact absurd hl List.not_mem_nil
  fresh h hh := by
    rw [hloop] at hh
    cases hh
  openLoops := by
    rw [turnLoops, hloop]
    rcases hloops with ⟨hcloses, hspares⟩ | ⟨hcloses, hb⟩
    · rw [hcloses]
      exact hturned.openLoops_eq hspares
    · rw [hcloses, if_pos rfl]
      rcases hb with rfl | rfl
      · exact hturned.openLoops_tail (.inl rfl)
      · exact hturned.openLoops_tail (.inr rfl)

theorem answers_opensLoop {b : Bracket} {e : Emit LoopHandle} (he : e.OpensLoop) (hcloses : o.closesLoop = false)
    {level : TraceDetail} (hs : s.Fit) (hturned : s.Turned b s')
    (hrun : ((Answer.loop <$> e).run (.ofLevel level)).run s = .ok a s') : o.Answers a s s' := by
  obtain ⟨h, rfl, hopen⟩ := eq_map hrun
  obtain ⟨rfl, hnext, hloops⟩ := he level s s' h hs hopen
  refine ⟨hturned.toOnward, nofun, fun h' hh' => ?_, ?_⟩
  · cases hh'
    exact ⟨rfl, Nat.le_refl _, hnext⟩
  · rw [turnLoops, hcloses]
    exact hloops

/-- **What an accepted operation answers** belongs to the session that it leaves behind. -/
theorem answers_perform {level : TraceDetail} (hs : s.Fit)
    (hrun : (o.perform.run (.ofLevel level)).run s = .ok a s') : o.Answers a s s' := by
  have hturned := o.turns_perform level s s' a hs hrun
  -- only the first four answer with labels or loops, and the next two close a loop
  cases o with
  | newLabel =>
    obtain ⟨l, rfl, hnew⟩ := eq_map hrun
    cases hnew
    refine ⟨hturned.toOnward, fun l hl => ?_, nofun, hturned.openLoops_eq trivial⟩
    rw [List.mem_singleton.1 hl]
    exact Emit.known_next s
  | openSwitch n =>
    obtain ⟨ls, rfl, hopen⟩ := eq_map hrun
    exact ⟨hturned.toOnward, Emit.known_openSwitch hs hopen, nofun, hturned.openLoops_eq ⟨nofun, nofun⟩⟩
  | openFor index start bound =>
    exact answers_opensLoop (Emit.opensLoop_openFor index start bound) rfl hs hturned hrun
  | openEach l element enumerator m =>
    exact answers_opensLoop (Emit.opensLoop_openEach l element enumerator m) rfl hs hturned hrun
  | closeFor =>
    obtain rfl := eq_done hrun
    exact answers_of hturned rfl rfl (.inr ⟨rfl, .inl rfl⟩)
  | closeEach m =>
    obtain rfl := eq_done hrun
    exact answers_of hturned rfl rfl (.inr ⟨rfl, .inr rfl⟩)
  | arg i =>
    obtain ⟨x, rfl, -⟩ := eq_map hrun
    exact answers_of hturned rfl rfl (.inl ⟨rfl, trivial⟩)
  | newLocal T name =>
    obtain ⟨x, rfl, -⟩ := eq_map hrun
    exact answers_of hturned rfl rfl (.inl ⟨rfl, trivial⟩)
  | newLocalWith T name init =>
    obtain ⟨x, rfl, -⟩ := eq_map hrun
    exact answers_of hturned rfl rfl (.inl ⟨rfl, trivial⟩)
  | getMember m =>
    obtain ⟨x, rfl, -⟩ := eq_map hrun
    exact answers_of hturned rfl rfl (.inl ⟨rfl, trivial⟩)
  | _ =>
    obtain rfl := eq_done hrun
    exact answers_of hturned rfl rfl (.inl ⟨rfl, by trivial⟩)

/-! ### Which tokens are accepted -/

/-- An operation without an answer does what its call does. -/
theorem run_done {e : Emit Unit} (hrun : (e.run t).run s = .ok () s') :
    ((perform.done e).run t).run s = .ok .done s' := by
  rw [perform.done, Emit.run_bind_ok hrun]
  rfl

theorem run_done_error {e : Emit Unit} {r : BuildError} (hrun : (e.run t).run s = .error r s') :
    ((perform.done e).run t).run s = .error r s' := by
  rw [perform.done, Emit.run_bind, hrun]

theorem run_noteJump {x : String} {j : Jump Label} (hj : ∀ l ∈ j.targets, s.labels.Known l) :
    ∃ s', ((do Emit.note x; Emit.jump j).run t).run s = .ok () s' := by
  rw [Emit.run_bind_ok (Emit.run_note _ _ _)]
  exact ⟨_, Emit.run_jump _ _ (Marks.checkKnown_eq_ok.2 (by simpa using hj))⟩

theorem run_noteJump_unknown {x : String} {j : Jump Label} (hj : j.targets = [l]) (hl : ¬ s.labels.Known l) :
    ∃ s', ((do Emit.note x; Emit.jump j).run t).run s = .error (.unknownLabel l) s' := by
  rw [Emit.run_bind_ok (Emit.run_note _ _ _)]
  refine ⟨_, Emit.run_jump_unknown _ _ ?_⟩
  rw [hj]
  exact Marks.checkKnown_cons_unknown (by simpa using hl)

theorem run_markHere_unknown (hl : ¬ s.labels.Known l) :
    ((Emit.markHere l).run t).run s = .error (.unknownLabel l) s :=
  Emit.run_markHere_error _ _ (Marks.checkUnmarked_of_unknown hl)

/-- A **branch** to a known label is accepted. -/
theorem run_branch (ho : o.branch? = some l) (hl : s.labels.Known l) :
    ∃ s', (o.perform.run t).run s = .ok .done s' := by
  have hjump : ∀ {x : String} {j : Jump Label}, j.targets = [l] →
      ∃ s', ((perform.done (do Emit.note x; Emit.jump j)).run t).run s = .ok .done s' := by
    intro x j hj
    obtain ⟨s', hrun⟩ := run_noteJump (t := t) (x := x) (j := j) (s := s) fun m hm => by
      rw [hj] at hm
      rwa [List.mem_singleton.1 hm]
    exact ⟨s', run_done hrun⟩
  cases o <;> cases ho <;> exact hjump rfl

/-- A label that the session does not know is **unknown** to every operation. -/
theorem run_handed_unknown (ho : l ∈ o.handed) (hl : ¬ s.labels.Known l) :
    ∃ s', (o.perform.run t).run s = .error (.unknownLabel l) s' := by
  have hjump : ∀ {x : String} {j : Jump Label}, j.targets = [l] →
      ∃ s', ((perform.done (do Emit.note x; Emit.jump j)).run t).run s = .error (.unknownLabel l) s' := by
    intro x j hj
    obtain ⟨s', hrun⟩ := run_noteJump_unknown (t := t) (x := x) hj hl
    exact ⟨s', run_done_error hrun⟩
  cases o <;> first | exact absurd ho List.not_mem_nil | obtain rfl := List.mem_singleton.1 ho
  case markHere => exact ⟨s, run_done_error (run_markHere_unknown hl)⟩
  case openCase name =>
    have hmark : ¬ (s.written t ("    " ++ ("case " ++ name ++ "\x7b"))).labels.Known l := by
      simpa using hl
    exact ⟨_, run_done_error ((Emit.run_bind_ok (Emit.run_note _ _ _)).trans (run_markHere_unknown hmark))⟩
  all_goals exact hjump rfl

/-- A **break** out of an open loop is accepted. -/
theorem run_break (ho : h ∈ o.loops) (hs : s.Fit) (hh : h ∈ s.openLoops) :
    ∃ s', (o.perform.run t).run s = .ok .done s' := by
  obtain ⟨l, s₁, hexit, hknown⟩ := Emit.run_exitOf (t := t) hs hh
  have hleave : ∀ {x : Label → String} {j : Label → Jump Label}, (∀ l, (j l).targets = [l]) →
      ∃ s', ((perform.done (do let l ← Emit.exitOf h; Emit.note (x l); Emit.jump (j l))).run t).run s =
        .ok .done s' := by
    intro x j hj
    obtain ⟨s', hrun⟩ := run_noteJump (t := t) (x := x l) (j := j l) (s := s₁) fun m hm => by
      rw [hj] at hm
      rwa [List.mem_singleton.1 hm]
    exact ⟨s', run_done ((Emit.run_bind_ok hexit).trans hrun)⟩
  cases o <;> first | exact absurd ho List.not_mem_nil | obtain rfl := List.mem_singleton.1 ho
  all_goals exact hleave fun _ => rfl

/-- Out of every other loop it is a **structural mismatch**. -/
theorem run_break_closed (ho : h ∈ o.loops) (hh : h ∉ s.openLoops) :
    (o.perform.run t).run s =
      .error (.structuralMismatch .counted (s.constructs.head?.map Construct.kind)) s := by
  have hexit := Emit.run_exitOf_closed (t := t) hh
  cases o <;> first | exact absurd ho List.not_mem_nil | obtain rfl := List.mem_singleton.1 ho
  all_goals
    refine run_done_error ?_
    first
      | rw [Emit.leave, Emit.run_bind, hexit]
      | rw [Emit.leaveIfTrue, Emit.run_bind, hexit]
      | rw [Emit.leaveIfFalse, Emit.run_bind, hexit]

end Operation

end Stackwright
