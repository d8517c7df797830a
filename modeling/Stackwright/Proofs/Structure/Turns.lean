import Stackwright.Proofs.Structure.Brackets
import Stackwright.Proofs.Structure.Sparing

/-! # What brackets do to a session

An accepted emission call turns the open constructs as its bracket says, at every level, and a bracket that
the records of the session do not match is refused as a structural mismatch. Most of what a structured call
emits touches no construct, so a call is taken apart into that and the construct that it opens or takes.

* **`Session.Turned b s s'`** — a session went on, and its constructs are turned as by a bracket.
* **`Emit.Turns e b`** — an accepted call turns every session so.
* **`Operation.turns_perform`**, **`Operation.refuses_perform`** — every emission call is its bracket. -/

namespace Stackwright

/-! ## Constructs without the labels behind loops -/

namespace Construct

/-- A construct without the label behind a loop, which any call inside may define. -/
def bare : Construct → Construct
  | .counted s => .counted { s with exit := none }
  | .enumerated s => .enumerated { s with exit := none }
  | c => c

@[simp] theorem kind_bare (c : Construct) : c.bare.kind = c.kind := by
  cases c <;> rfl

/-- The label behind a loop is not part of what stays. -/
theorem bare_setExit (h : LoopHandle) (l : Label) (cs : List Construct) :
    (setExit h l cs).map bare = cs.map bare := by
  induction cs with
  | nil => rfl
  | cons c cs ih =>
    rw [setExit]
    split
    · cases c <;> rfl
    · rw [List.map_cons, List.map_cons, ih]

/-- A conditional is all of what stays of it. -/
theorem bare_eq_conditional {c : Construct} {otherwise finish : Label} :
    c.bare = .conditional otherwise finish ↔ c = .conditional otherwise finish := by
  cases c <;> simp [bare]

/-- So is a while loop. -/
theorem bare_eq_whileLoop {c : Construct} {head : Label} :
    c.bare = .whileLoop head ↔ c = .whileLoop head := by
  cases c <;> simp [bare]

/-- So is a switch. -/
theorem bare_eq_switch {c : Construct} {default finish : Label} {given : Bool} :
    c.bare = .switch default finish given ↔ c = .switch default finish given := by
  cases c <;> simp [bare]

/-- Of a counted loop all stays but the label behind it. -/
theorem bare_eq_counted {c : Construct} {loop : LoopState} (h : c.bare = (counted loop).bare) :
    ∃ exit, c = .counted { loop with exit } := by
  cases c with
  | counted loop' =>
    have hloop := Construct.counted.inj h
    refine ⟨loop'.exit, congrArg Construct.counted ?_⟩
    rw [LoopState.mk.injEq] at hloop ⊢
    simp_all
  | _ => cases h

/-- So it does of a loop over an enumerator. -/
theorem bare_eq_enumerated {c : Construct} {loop : LoopState} (h : c.bare = (enumerated loop).bare) :
    ∃ exit, c = .enumerated { loop with exit } := by
  cases c with
  | enumerated loop' =>
    have hloop := Construct.enumerated.inj h
    refine ⟨loop'.exit, congrArg Construct.enumerated ?_⟩
    rw [LoopState.mk.injEq] at hloop ⊢
    simp_all
  | _ => cases h

/-- The label behind a loop is the only one that setting it adds to what loops jump to. -/
theorem goals_of_mem_setExit {h : LoopHandle} {l m : Label} {c : Construct} {cs : List Construct}
    (hc : c ∈ setExit h l cs) (hm : m ∈ c.goals) : m = l ∨ ∃ c' ∈ cs, m ∈ c'.goals := by
  induction cs with
  | nil => exact absurd hc List.not_mem_nil
  | cons b cs ih =>
    rw [setExit] at hc
    split at hc
    · rcases List.mem_cons.1 hc with rfl | hc
      · cases b with
        | counted loop => exact .inl (List.mem_singleton.1 hm)
        | enumerated loop => exact .inl (List.mem_singleton.1 hm)
        | whileLoop head => exact .inr ⟨_, List.mem_cons_self, hm⟩
        | _ => exact absurd hm List.not_mem_nil
      · exact .inr ⟨c, List.mem_cons_of_mem _ hc, hm⟩
    · rcases List.mem_cons.1 hc with rfl | hc
      · exact .inr ⟨c, List.mem_cons_self, hm⟩
      · obtain h | ⟨c', hc', hm'⟩ := ih hc
        · exact .inl h
        · exact .inr ⟨c', List.mem_cons_of_mem _ hc', hm'⟩

end Construct

/-- What an accepted bracket does to the open constructs and, if `t` are the marks before it and `t'`
those behind it, to the labels of a conditional: the next alternative marks where the one before it goes
on, and the end is marked when the conditional is closed, so it was not marked before. -/
def Bracket.turns (t t' : Marks) : Bracket → List Construct → List Construct → Prop
  | .plain, cs, cs' => cs' = cs
  | .opens k, cs, cs' => ∃ c : Construct, c.kind = k ∧ cs' = c :: cs
  | .alternative, cs, cs' => ∃ o o' f rest, cs = .conditional o f :: rest ∧
      cs' = .conditional o' f :: rest ∧ t'.Marked o
  | .part, cs, cs' => ∃ d f given given' rest, cs = .switch d f given :: rest ∧
      cs' = .switch d f given' :: rest
  | .body, cs, cs' => ∃ head o f rest, cs = .whileLoop head :: rest ∧
      cs' = .whileLoop head :: .conditional o f :: rest
  | .closes .conditional, cs, cs' => ∃ o f, cs = .conditional o f :: cs' ∧ ¬ t.Marked f
  | .closes .whileLoop, cs, cs' => ∃ head o f, cs = .whileLoop head :: .conditional o f :: cs' ∧
      ¬ t.Marked f
  | .closes k, cs, cs' => ∃ c, c.kind = k ∧ cs = c :: cs'

/-- What was not marked later was not marked before, and what is marked before is marked later. -/
theorem Bracket.turns_mono {b : Bracket} {t₀ t t' t₁ : Marks} {cs cs' : List Construct}
    (h₀ : ∀ l, t₀.Marked l → t.Marked l) (h₁ : ∀ l, t'.Marked l → t₁.Marked l) (hb : b.turns t t' cs cs') :
    b.turns t₀ t₁ cs cs' := by
  cases b with
  | alternative =>
    obtain ⟨o, o', f, rest, hcs, hcs', ho⟩ := hb
    exact ⟨o, o', f, rest, hcs, hcs', h₁ o ho⟩
  | closes k =>
    cases k with
    | conditional =>
      obtain ⟨o, f, hcs, hf⟩ := hb
      exact ⟨o, f, hcs, fun hm => hf (h₀ f hm)⟩
    | whileLoop =>
      obtain ⟨head, o, f, hcs, hf⟩ := hb
      exact ⟨head, o, f, hcs, fun hm => hf (h₀ f hm)⟩
    | _ => exact hb
  | _ => exact hb

namespace Session

/-- What stays of the open constructs. -/
def outline (s : Session) : List Construct := s.constructs.map Construct.bare

/-- The kinds of the open constructs. -/
def kinds (s : Session) : List ConstructKind := s.constructs.map Construct.kind

theorem kinds_eq (s : Session) : s.kinds = s.outline.map Construct.kind := by
  rw [kinds, outline, List.map_map]
  exact List.map_congr_left fun c _ => c.kind_bare.symm

variable {s s' s'' : Session} {b : Bracket} {k : ConstructKind}

/-- A session went **onward**: it gave no label back and moved none. -/
structure Onward (s s' : Session) : Prop where
  /-- The session is the same. -/
  number : s'.labels.session = s.labels.session
  /-- No label is given back. -/
  size : s.labels.entries.size ≤ s'.labels.entries.size
  /-- No number of a loop is given again. -/
  loops : s.nextLoop ≤ s'.nextLoop
  /-- A marked label stays marked. -/
  marked : ∀ l, s.labels.Marked l → s'.labels.Marked l
  /-- It is still fit. -/
  fit : s'.Fit

theorem Onward.known (h : s.Onward s') {l : Label} (hl : s.labels.Known l) : s'.labels.Known l :=
  ⟨hl.1.trans h.number.symm, Nat.lt_of_lt_of_le hl.2 h.size⟩

theorem Onward.trans (h : s.Onward s') (h' : s'.Onward s'') : s.Onward s'' :=
  ⟨h'.number.trans h.number, Nat.le_trans h.size h'.size, Nat.le_trans h.loops h'.loops,
    fun l hl => h'.marked l (h.marked l hl), h'.fit⟩

/-- A session went onward, and its open constructs are **turned** as by a bracket. -/
structure Turned (b : Bracket) (s s' : Session) : Prop extends s.Onward s' where
  /-- The open constructs are those that the bracket makes of them. -/
  outline : b.turns s.labels s'.labels s.outline s'.outline

/-! ### Nothing is turned -/

theorem Turned.refl (hs : s.Fit) : s.Turned .plain s := ⟨⟨rfl, Nat.le_refl _, Nat.le_refl _, fun _ h => h, hs⟩, rfl⟩

/-- The labels go on, and everything else is as it was. -/
theorem Turned.of_labels (hs : s.Fit) (hnumber : s'.labels.session = s.labels.session)
    (hsize : s.labels.entries.size ≤ s'.labels.entries.size) (hloops : s.nextLoop ≤ s'.nextLoop)
    (hmarked : ∀ l, s.labels.Marked l → s'.labels.Marked l) (hconstructs : s'.constructs = s.constructs)
    (hformat : s'.formatArray = s.formatArray) : s.Turned .plain s' where
  number := hnumber
  size := hsize
  loops := hloops
  marked := hmarked
  fit :=
    { labels := Nat.lt_of_lt_of_le hs.labels hsize
      goals c hc l hl := by
        obtain ⟨hsession, hid⟩ := hs.goals c (hconstructs ▸ hc) l hl
        exact ⟨hsession.trans hnumber.symm, Nat.lt_of_lt_of_le hid hsize⟩
      formatArray := by rw [hformat]; exact hs.formatArray }
  outline := congrArg (List.map Construct.bare) hconstructs

theorem Spares.turned (h : s.Spares s') : s.Turned .plain s' where
  number := h.grows.number
  size := h.grows.labels_size
  loops := h.grows.nextLoop
  marked _ := h.grows.marked
  fit := h.fit
  outline := congrArg (List.map Construct.bare) h.constructs

theorem turned_defined (hs : s.Fit) : s.Turned .plain s.defined :=
  .of_labels hs rfl (by simp) (Nat.le_refl _) (fun _ => Marks.marked_define.2) rfl rfl

theorem turned_jumped (hs : s.Fit) (j : Jump Label) : s.Turned .plain (s.jumped j) :=
  .of_labels hs (by simp) (by simp) (Nat.le_refl _) (fun _ => Marks.marked_target.2) rfl rfl

theorem turned_markedHere (hs : s.Fit) {l : Label} (hl : s.labels.Known l) :
    s.Turned .plain (s.markedHere l) :=
  .of_labels hs (by simp) (by simp) (Nat.le_refl _) (fun _ hm => (Marks.marked_mark hl).2 (.inr hm)) rfl rfl

theorem turned_numbered (hs : s.Fit) : s.Turned .plain s.numbered :=
  .of_labels hs rfl (Nat.le_refl _) (Nat.le_succ _) (fun _ h => h) rfl rfl

/-- The constructs alone change. -/
theorem turned_withConstructs (hs : s.Fit) {cs : List Construct}
    (hgoals : ∀ c ∈ cs, ∀ l ∈ c.goals, s.labels.Known l)
    (h : b.turns s.labels s.labels s.outline (cs.map Construct.bare)) : s.Turned b (s.withConstructs cs) :=
  ⟨⟨rfl, Nat.le_refl _, Nat.le_refl _, fun _ h => h, ⟨hs.labels, hgoals, hs.formatArray⟩⟩, h⟩

/-- The innermost construct is taken. -/
theorem onward_taken (hs : s.Fit) {c : Construct} {cs : List Construct} (hc : s.constructs = c :: cs) :
    s.Onward (s.withConstructs cs) :=
  ⟨rfl, Nat.le_refl _, Nat.le_refl _, fun _ h => h, ⟨hs.labels,
    fun c' hc' => hs.goals c' (hc ▸ List.mem_cons_of_mem _ hc'), hs.formatArray⟩⟩

/-! ### One after the other -/

/-- What comes first turns nothing. -/
theorem Turned.before (h : s.Turned .plain s') (h' : s'.Turned b s'') : s.Turned b s'' := by
  have houtline : s'.outline = s.outline := h.outline
  exact ⟨h.toOnward.trans h'.toOnward, Bracket.turns_mono h.marked (fun _ h => h) (houtline ▸ h'.outline)⟩

/-- What comes last turns nothing. -/
theorem Turned.behind (h : s.Turned b s') (h' : s'.Turned .plain s'') : s.Turned b s'' := by
  have houtline : s''.outline = s'.outline := h'.outline
  exact ⟨h.toOnward.trans h'.toOnward, Bracket.turns_mono (fun _ h => h) h'.marked (houtline ▸ h.outline)⟩

/-- A conditional that is opened and goes on to another alternative is opened. -/
theorem Turned.alternative (h : s.Turned (.opens .conditional) s') (h' : s'.Turned .alternative s'') :
    s.Turned (.opens .conditional) s'' := by
  obtain ⟨c, -, hopened⟩ := h.outline
  obtain ⟨o, o', f, rest, hbefore, hbehind, -⟩ := h'.outline
  rw [hopened, List.cons.injEq] at hbefore
  exact ⟨h.toOnward.trans h'.toOnward, .conditional o' f, rfl, hbefore.2 ▸ hbehind⟩

/-- A construct that is opened and closed is turned into nothing. -/
theorem Turned.close (h : s.Turned (.opens k) s') (hk : k ≠ .whileLoop) (h' : s'.Turned (.closes k) s'') :
    s.Turned .plain s'' := by
  obtain ⟨c, hc, hopened⟩ := h.outline
  have hclosed : ∃ c, s'.outline = c :: s''.outline := by
    have hturns := h'.outline
    cases k with
    | conditional =>
      obtain ⟨o, f, hcs, -⟩ := hturns
      exact ⟨_, hcs⟩
    | whileLoop => exact absurd rfl hk
    | _ =>
      obtain ⟨c, -, hcs⟩ := hturns
      exact ⟨c, hcs⟩
  obtain ⟨c', hclosed⟩ := hclosed
  rw [hopened, List.cons.injEq] at hclosed
  exact ⟨h.toOnward.trans h'.toOnward, hclosed.2.symm⟩

end Session

namespace Emit

variable {α β : Type} {e : Emit α} {f : α → Emit β} {b : Bracket} {k : ConstructKind}

/-! ## Accepted calls -/

/-- Calls in a row were accepted exactly if each of them was. -/
theorem run_bind_eq_ok {t : Tracer} {s s' : Session} {x : β} :
    ((e >>= f).run t).run s = .ok x s' ↔
      ∃ a s₁, (e.run t).run s = .ok a s₁ ∧ ((f a).run t).run s₁ = .ok x s' := by
  rw [run_bind]
  cases (e.run t).run s with
  | ok a s₁ =>
    constructor
    · intro h
      exact ⟨a, s₁, rfl, h⟩
    · rintro ⟨a', s₁', h, hf⟩
      cases h
      exact hf
  | error r s₁ => exact ⟨nofun, by rintro ⟨a', s₁', h, -⟩; cases h⟩

/-- An accepted call **turns** the open constructs as a bracket does. -/
def Turns (e : Emit α) (b : Bracket) : Prop :=
  ∀ (level : TraceDetail) (s s' : Session) (a : α), s.Fit →
    (e.run (.ofLevel level)).run s = .ok a s' → s.Turned b s'

theorem Sparing.turns (h : e.Sparing) : e.Turns .plain :=
  fun _ _ _ _ hs hrun => (h.spares hs hrun).turned

theorem turns_pure (a : α) : (pure a : Emit α).Turns .plain := (sparing_pure a).turns

/-- What comes first turns nothing. -/
theorem Turns.bind (h : e.Turns .plain) (hf : ∀ a, (f a).Turns b) : (e >>= f).Turns b := by
  intro level s s' x hs hrun
  obtain ⟨a, s₁, he, hrun⟩ := run_bind_eq_ok.1 hrun
  have hfirst := h level s s₁ a hs he
  exact hfirst.before (hf a level s₁ s' x hfirst.fit hrun)

/-- What comes last turns nothing. -/
theorem Turns.seq (h : e.Turns b) (hf : ∀ a, (f a).Turns .plain) : (e >>= f).Turns b := by
  intro level s s' x hs hrun
  obtain ⟨a, s₁, he, hrun⟩ := run_bind_eq_ok.1 hrun
  have hfirst := h level s s₁ a hs he
  exact hfirst.behind (hf a level s₁ s' x hfirst.fit hrun)

theorem Turns.map (h : e.Turns b) (g : α → β) : (g <$> e).Turns b := by
  have hmap : g <$> e = e >>= fun a => pure (g a) := (bind_pure_comp g e).symm
  rw [hmap]
  exact h.seq fun a => turns_pure (g a)

theorem Turns.ite {c : Prop} [Decidable c] {e e' : Emit α} (h : e.Turns b) (h' : e'.Turns b) :
    (if c then e else e').Turns b := by
  split
  · exact h
  · exact h'

/-! ### What turns nothing -/

theorem turns_newLabel : newLabel.Turns .plain := by
  intro level s s' l hs hrun
  cases hrun
  exact Session.turned_defined hs

theorem turns_jump (j : Jump Label) : (jump j).Turns .plain := by
  intro level s s' u hs hrun
  cases hc : s.labels.checkKnown j.targets with
  | ok _ =>
    rw [run_jump _ _ hc] at hrun
    cases hrun
    exact Session.turned_jumped hs j
  | error r =>
    rw [run_jump_unknown _ _ hc] at hrun
    cases hrun

/-- A label that was marked had been known and not been marked. -/
theorem marks_of_markHere {t : Tracer} {s s' : Session} {l : Label}
    (h : ((markHere l).run t).run s = .ok () s') :
    (s.labels.Known l ∧ ¬ s.labels.Marked l) ∧ s' = (s.markedHere l).written t (l.text ++ ":") := by
  cases hc : s.labels.checkUnmarked l with
  | ok _ =>
    rw [run_markHere _ _ hc] at h
    cases h
    exact ⟨Marks.checkUnmarked_eq_ok.1 hc, rfl⟩
  | error r =>
    rw [run_markHere_error _ _ hc] at h
    cases h

theorem turns_markHere (l : Label) : (markHere l).Turns .plain := by
  intro level s s' u hs hrun
  obtain ⟨⟨hknown, -⟩, rfl⟩ := marks_of_markHere hrun
  have hmarked := Session.turned_markedHere hs hknown
  exact hmarked.before (Session.spares_written hmarked.fit _ _).turned

theorem turns_note (text : String) : (note text).Turns .plain := (sparing_note text).turns

theorem turns_jumpTo (l : Label) : (jumpTo l).Turns .plain :=
  (turns_note _).bind fun _ => turns_jump _

theorem turns_jumpIfTrue (l : Label) : (jumpIfTrue l).Turns .plain :=
  (turns_note _).bind fun _ => turns_jump _

theorem turns_jumpIfFalse (l : Label) : (jumpIfFalse l).Turns .plain :=
  (turns_note _).bind fun _ => turns_jump _

theorem turns_jumpIfLess (l : Label) : (jumpIfLess l).Turns .plain :=
  (turns_note _).bind fun _ => turns_jump _

theorem turns_jumpUnless (c : Comparison) : (jumpUnless c).Turns .plain :=
  turns_newLabel.bind fun _ => (turns_note _).bind fun _ => (turns_jump _).bind fun _ => turns_pure _

theorem turns_newLoop (slot : Option Local) (bound : Operand) : (newLoop slot bound).Turns .plain := by
  intro level s s' loop hs hrun
  rw [run_newLoop] at hrun
  cases hrun
  have hnumbered := Session.turned_numbered hs
  have hbody := Session.turned_defined hnumbered.fit
  exact (hnumbered.before hbody).before (Session.turned_defined hbody.fit)

/-- Nothing breaks out of a new loop yet. -/
theorem turns_newLoop_bind {slot : Option Local} {bound : Operand} {f : LoopState → Emit α}
    (hf : ∀ loop : LoopState, loop.exit = none → (f loop).Turns b) : (newLoop slot bound >>= f).Turns b := by
  intro level s s' x hs hrun
  obtain ⟨loop, s₁, hnew, hrun⟩ := run_bind_eq_ok.1 hrun
  have hturned := turns_newLoop slot bound level s s₁ loop hs hnew
  rw [run_newLoop] at hnew
  cases hnew
  exact hturned.before (hf _ rfl level _ s' x hturned.fit hrun)

theorem turns_markExit (loop : LoopState) : (markExit loop).Turns .plain := by
  unfold markExit
  split
  · exact turns_markHere _
  · exact turns_pure _

theorem turns_newLabels (n : Nat) : (newLabels n).Turns .plain := by
  induction n with
  | zero => exact turns_pure _
  | succ n ih => exact turns_newLabel.bind fun _ => ih.bind fun _ => turns_pure _

theorem turns_noteLabels (ls : List Label) : (noteLabels ls).Turns .plain := by
  induction ls with
  | nil => exact turns_pure _
  | cons l ls ih => exact (turns_note _).bind fun _ => ih

/-- The label behind a loop changes nothing that stays of the constructs. -/
theorem turns_exitOf (h : LoopHandle) : (exitOf h).Turns .plain := by
  intro level s s' l hs hrun
  obtain ⟨s₀, s₁, hget, hrun⟩ := run_bind_eq_ok.1 hrun
  cases hget
  dsimp only at hrun
  split at hrun
  · cases hrun
  · split at hrun
    · cases hrun
      exact .refl hs
    · obtain ⟨m, s₁, hnew, hrun⟩ := run_bind_eq_ok.1 hrun
      cases hnew
      obtain ⟨u, s₂, hset, hrun⟩ := run_bind_eq_ok.1 hrun
      cases hset
      cases hrun
      have hdefined := Session.turned_defined hs
      have houtline : (s.defined.withConstructs (Construct.setExit h s.labels.next s.constructs)).outline =
          s.defined.outline := Construct.bare_setExit h _ _
      refine hdefined.before (Session.turned_withConstructs hdefined.fit (fun c hc m hm => ?_) houtline)
      rcases Construct.goals_of_mem_setExit hc hm with rfl | ⟨c', hc', hm'⟩
      · exact ⟨rfl, by simp [Marks.next]⟩
      · exact hdefined.fit.goals c' hc' m hm'

/-! ### Opening calls -/

/-- Opening a construct that does not jump anywhere yet. -/
theorem turns_openConstruct {c : Construct} (hc : c.goals = []) :
    (openConstruct c).Turns (.opens c.kind) := by
  intro level s s' u hs hrun
  rw [run_openConstruct] at hrun
  cases hrun
  refine Session.turned_withConstructs hs (fun c' hc' l hl => ?_) ⟨c.bare, c.kind_bare, rfl⟩
  rcases List.mem_cons.1 hc' with rfl | hc'
  · rw [hc] at hl
    exact absurd hl List.not_mem_nil
  · exact hs.goals c' hc' l hl

theorem turns_openIfTrue : openIfTrue.Turns (.opens .conditional) :=
  turns_newLabel.bind fun _ => turns_newLabel.bind fun _ => (turns_jumpIfFalse _).bind fun _ =>
    turns_openConstruct rfl

theorem turns_openIfFalse : openIfFalse.Turns (.opens .conditional) :=
  turns_newLabel.bind fun _ => turns_newLabel.bind fun _ => (turns_jumpIfTrue _).bind fun _ =>
    turns_openConstruct rfl

theorem turns_openIf (c : Comparison) : (openIf c).Turns (.opens .conditional) :=
  turns_newLabel.bind fun _ => (turns_jumpUnless c).bind fun _ => turns_openConstruct rfl

theorem turns_openIfCompared (a : Operand) (c : Comparison) (b : Operand) :
    (openIfCompared a c b).Turns (.opens .conditional) :=
  (sparing_load a).turns.bind fun _ => (sparing_load b).turns.bind fun _ => turns_openIf c

theorem turns_openIfNotZero (o : Operand) : (openIfNotZero o).Turns (.opens .conditional) := by
  unfold openIfNotZero
  refine Turns.ite ?_ ?_
  · exact (sparing_loadZero _).turns.bind fun _ => (sparing_convertTop _ _).turns.bind fun _ =>
      (sparing_load _).turns.bind fun _ => (sparing_convertTop _ _).turns.bind fun _ =>
        (sparing_call _).turns.bind fun _ => turns_openIfFalse
  · exact (sparing_loadZero _).turns.bind fun _ => (sparing_load _).turns.bind fun _ => turns_openIf _

theorem turns_openIfNotEmpty (l : Local) : (openIfNotEmpty l).Turns (.opens .conditional) :=
  (sparing_loadTextLength l).turns.bind fun _ => turns_openIf _

theorem turns_openFor (index : Option Local) (start bound : Operand) :
    (openFor index start bound).Turns (.opens .counted) := by
  refine turns_newLoop_bind fun loop hexit => ?_
  have hgoals : (Construct.counted loop).goals = [] := congrArg Option.toList hexit
  have hopen : (do markHere loop.body; openConstruct (.counted loop); pure loop.handle).Turns
      (.opens .counted) :=
    (turns_markHere _).bind fun _ => Turns.seq (turns_openConstruct hgoals) fun _ => turns_pure _
  cases index with
  | none => exact hopen
  | some l =>
    exact (sparing_load _).turns.bind fun _ => (sparing_storeLocal _).turns.bind fun _ =>
      (turns_jumpTo _).bind fun _ => hopen

theorem turns_openEach (l : Local) (element : Ty) (enumerator : Local) (getCurrent : Method) :
    (openEach l element enumerator getCurrent).Turns (.opens .enumerated) := by
  refine turns_newLoop_bind fun loop hexit => (turns_jumpTo _).bind fun _ =>
    (turns_markHere _).bind fun _ => (sparing_callWith _ _ _).turns.bind fun _ =>
      (sparing_convertTop _ _).turns.bind fun _ => (sparing_storeLocal _).turns.bind fun _ => ?_
  have hgoals : (Construct.enumerated loop).goals = [] := congrArg Option.toList hexit
  exact Turns.seq (turns_openConstruct hgoals) fun _ => turns_pure _

theorem turns_openSwitch (cases : Nat) : (openSwitch cases).Turns (.opens .switch) := by
  refine turns_newLabel.bind fun default => turns_newLabel.bind fun finish =>
    (turns_newLabels _).bind fun labels => (turns_note _).bind fun _ =>
      (turns_noteLabels _).bind fun _ => (turns_note _).bind fun _ => (turns_jump _).bind fun _ =>
        (turns_jumpTo _).bind fun _ => ?_
  exact Turns.seq (turns_openConstruct (c := .switch default finish false) rfl) fun _ => turns_pure _

/-- The head of a while loop is marked when the loop is opened. -/
theorem turns_openWhile : openWhile.Turns (.opens .whileLoop) := by
  refine turns_newLabel.bind fun head => ?_
  intro level s s' u hs hrun
  obtain ⟨_, s₁, hmark, hrun⟩ := run_bind_eq_ok.1 hrun
  rw [run_openConstruct] at hrun
  cases hrun
  have hfirst := turns_markHere head level s s₁ _ hs hmark
  obtain ⟨⟨hknown, -⟩, -⟩ := marks_of_markHere hmark
  refine hfirst.before (Session.turned_withConstructs hfirst.fit (fun c hc l hl => ?_)
    ⟨.whileLoop head, rfl, rfl⟩)
  rcases List.mem_cons.1 hc with rfl | hc
  · rw [List.mem_singleton.1 hl]
    exact hfirst.known hknown
  · exact hfirst.fit.goals c hc l hl

/-! ### Taking the innermost construct -/

/-- What follows the taking of a construct runs on it. -/
theorem run_take {t : Tracer} {s s' : Session} {p : Option Construct → Emit α} {a : α}
    (h : ((takeInnermost >>= p).run t).run s = .ok a s') :
    ((p s.constructs.head?).run t).run (s.withConstructs (s.constructs.drop 1)) = .ok a s' := by
  rwa [run_bind_ok (run_takeInnermost t s)] at h

/-- A conditional that was taken was innermost. -/
theorem constructs_of_takeConditional {t : Tracer} {s s' : Session} {p : Label × Label}
    (h : (takeConditional.run t).run s = .ok p s') :
    ∃ cs, s.constructs = .conditional p.1 p.2 :: cs ∧ s' = s.withConstructs cs := by
  have hrest := run_take h
  split at hrest
  · rename_i hfound
    cases hrest
    obtain ⟨cs, hcs⟩ := List.head?_eq_some_iff.1 hfound
    exact ⟨cs, hcs, by rw [hcs]; rfl⟩
  · cases hrest

/-- So was the condition or the body of a while loop. -/
theorem constructs_of_takeWhileHead {t : Tracer} {s s' : Session} {head : Label}
    (h : (takeWhileHead.run t).run s = .ok head s') :
    ∃ cs, s.constructs = .whileLoop head :: cs ∧ s' = s.withConstructs cs := by
  have hrest := run_take h
  split at hrest
  · rename_i hfound
    cases hrest
    obtain ⟨cs, hcs⟩ := List.head?_eq_some_iff.1 hfound
    exact ⟨cs, hcs, by rw [hcs]; rfl⟩
  · cases hrest

theorem turns_takeCounted : takeCounted.Turns (.closes .counted) := by
  intro level s s' loop hs hrun
  have hrest := run_take hrun
  split at hrest
  · rename_i hfound
    cases hrest
    obtain ⟨cs, hcs⟩ := List.head?_eq_some_iff.1 hfound
    rw [hcs, List.drop_one, List.tail_cons]
    exact ⟨Session.onward_taken hs hcs, Construct.bare (.counted loop), rfl, by rw [Session.outline, hcs]; rfl⟩
  · cases hrest

theorem turns_takeEnumerated : takeEnumerated.Turns (.closes .enumerated) := by
  intro level s s' loop hs hrun
  have hrest := run_take hrun
  split at hrest
  · rename_i hfound
    cases hrest
    obtain ⟨cs, hcs⟩ := List.head?_eq_some_iff.1 hfound
    rw [hcs, List.drop_one, List.tail_cons]
    exact ⟨Session.onward_taken hs hcs, Construct.bare (.enumerated loop), rfl,
      by rw [Session.outline, hcs]; rfl⟩
  · cases hrest

theorem turns_takeSwitch : takeSwitch.Turns (.closes .switch) := by
  intro level s s' p hs hrun
  have hrest := run_take hrun
  split at hrest
  · rename_i default finish hasDefault hfound
    cases hrest
    obtain ⟨cs, hcs⟩ := List.head?_eq_some_iff.1 hfound
    rw [hcs, List.drop_one, List.tail_cons]
    exact ⟨Session.onward_taken hs hcs, .switch default finish hasDefault, rfl,
      by rw [Session.outline, hcs]; rfl⟩
  · cases hrest

/-! ### Alternatives and closing calls -/

/-- The next alternative belongs to the conditional that was innermost, and begins where the one before it
goes on. -/
theorem onward_of_nextAlternative {level : TraceDetail} {s s' : Session} {f : Label} (hs : s.Fit)
    (h : (nextAlternative.run (.ofLevel level)).run s = .ok f s') :
    s.Onward s' ∧ ∃ o, s.outline = .conditional o f :: s'.outline ∧ s'.labels.Marked o := by
  obtain ⟨⟨o, f'⟩, s₁, htake, h⟩ := run_bind_eq_ok.1 h
  obtain ⟨cs, hcs, rfl⟩ := constructs_of_takeConditional htake
  have htaken := Session.onward_taken hs hcs
  obtain ⟨_, s₁, hjump, h⟩ := run_bind_eq_ok.1 h
  obtain ⟨_, s₂, hmark, h⟩ := run_bind_eq_ok.1 h
  cases h
  have hjumped := turns_jumpTo f level _ _ _ htaken.fit hjump
  have hturned := hjumped.before (turns_markHere o level _ _ _ hjumped.fit hmark)
  have houtline : s'.outline = (s.withConstructs cs).outline := hturned.outline
  refine ⟨htaken.trans hturned.toOnward, o, by rw [houtline, Session.outline, hcs]; rfl, ?_⟩
  obtain ⟨⟨hknown, -⟩, rfl⟩ := marks_of_markHere hmark
  rw [Session.labels_written]
  exact (Marks.marked_mark hknown).2 (.inl rfl)

/-- An alternative is opened in the place of the one before it. -/
theorem turns_alternative {g : Label → Emit Label} (hg : ∀ f, (g f).Turns .plain) :
    (do
      let finish ← nextAlternative
      let otherwise ← g finish
      openConstruct (.conditional otherwise finish)).Turns .alternative := by
  intro level s s' u hs hrun
  obtain ⟨f, s₁, hnext, hrun⟩ := run_bind_eq_ok.1 hrun
  obtain ⟨honward, o, houtline, ho⟩ := onward_of_nextAlternative hs hnext
  obtain ⟨o', s₂, hguard, hrun⟩ := run_bind_eq_ok.1 hrun
  have hguarded := hg f level s₁ s₂ o' honward.fit hguard
  have hopened := turns_openConstruct (c := .conditional o' f) rfl level s₂ s' u hguarded.fit hrun
  have hguarded' : s₂.outline = s₁.outline := hguarded.outline
  rw [run_openConstruct] at hrun
  cases hrun
  refine ⟨(honward.trans hguarded.toOnward).trans hopened.toOnward, o, o', f, s₁.outline, houtline, ?_,
    hguarded.marked o ho⟩
  rw [← hguarded']
  rfl

theorem turns_openElse : openElse.Turns .alternative := by
  have h := turns_alternative (g := pure) fun f => turns_pure f
  simp only [pure_bind] at h
  exact h

theorem turns_openElseIf (a : Operand) (c : Comparison) (b : Operand) :
    (openElseIf a c b).Turns .alternative := by
  have h := turns_alternative (g := fun _ => do load a; load b; jumpUnless c) fun _ =>
    (sparing_load a).turns.bind fun _ => (sparing_load b).turns.bind fun _ => turns_jumpUnless c
  simp only [bind_assoc] at h
  exact h

theorem turns_openElseIfEmpty (l : Local) : (openElseIfEmpty l).Turns .alternative := by
  have h := turns_alternative (g := fun _ => do loadTextLength l; jumpUnless .equalTo) fun _ =>
    (sparing_loadTextLength l).turns.bind fun _ => turns_jumpUnless _
  simp only [bind_assoc] at h
  exact h

/-- A label that is marked behind calls which turn nothing was not marked before them. -/
theorem turns_before_markHere {e : Emit Unit} (he : e.Turns .plain) {level : TraceDetail} {s s' : Session}
    {f : Label} (hs : s.Fit) (h : ((do e; markHere f).run (.ofLevel level)).run s = .ok () s') :
    s.Turned .plain s' ∧ ¬ s.labels.Marked f := by
  obtain ⟨_, s₁, hfirst, hmark⟩ := run_bind_eq_ok.1 h
  have hturned := he level s s₁ _ hs hfirst
  obtain ⟨⟨-, hfree⟩, -⟩ := marks_of_markHere hmark
  exact ⟨hturned.before (turns_markHere f level s₁ s' _ hturned.fit hmark),
    fun hf => hfree (hturned.marked f hf)⟩

/-- A conditional is closed by marking its end, which was not marked before. -/
theorem turns_closeIf : closeIf.Turns (.closes .conditional) := by
  intro level s s' u hs hrun
  obtain ⟨⟨o, f⟩, s₁, htake, hrun⟩ := run_bind_eq_ok.1 hrun
  obtain ⟨cs, hcs, rfl⟩ := constructs_of_takeConditional htake
  have htaken := Session.onward_taken hs hcs
  have hmarks : (s.withConstructs cs).Turned .plain s' ∧ ¬ (s.withConstructs cs).labels.Marked f := by
    dsimp only at hrun
    split at hrun
    · exact turns_before_markHere (turns_pure ()) htaken.fit hrun
    · exact turns_before_markHere (turns_markHere o) htaken.fit hrun
  obtain ⟨hturned, hfree⟩ := hmarks
  have houtline : s'.outline = (s.withConstructs cs).outline := hturned.outline
  exact ⟨htaken.trans hturned.toOnward, o, f, by rw [houtline, Session.outline, hcs]; rfl, hfree⟩

theorem turns_closeFor : closeFor.Turns (.closes .counted) := by
  refine turns_takeCounted.seq fun loop => ?_
  cases hslot : loop.slot with
  | none => exact (turns_jumpTo _).bind fun _ => turns_markExit loop
  | some l =>
    have hback : (do jumpIfLess loop.body; markExit loop).Turns .plain :=
      (turns_jumpIfLess _).bind fun _ => turns_markExit loop
    refine (sparing_loadLocal l).turns.bind fun _ => (sparing_loadInt 1).turns.bind fun _ =>
      (sparing_traced "Add" .add rfl).turns.bind fun _ => (sparing_storeLocal l).turns.bind fun _ =>
        (turns_markHere _).bind fun _ => (sparing_loadLocal l).turns.bind fun _ =>
          (sparing_load _).turns.bind fun _ => ?_
    exact Turns.ite (sparing_loadLength.turns.bind fun _ => hback) hback

theorem turns_closeEach (moveNext : Method) : (closeEach moveNext).Turns (.closes .enumerated) :=
  turns_takeEnumerated.seq fun loop => (turns_markHere _).bind fun _ =>
    (sparing_callWith _ _ _).turns.bind fun _ => (turns_jumpIfTrue _).bind fun _ => turns_markExit loop

theorem turns_closeSwitch : closeSwitch.Turns (.closes .switch) :=
  turns_takeSwitch.seq fun _ => (turns_note _).bind fun _ =>
    Turns.ite (turns_markHere _) ((turns_markHere _).bind fun _ => turns_markHere _)

/-! ### While loops -/

/-- The head of a while loop that is innermost is taken and, behind calls that open a conditional, put
back. -/
theorem turns_openWhileBody (c : Comparison) : (openWhileBody c).Turns .body := by
  intro level s s' u hs hrun
  obtain ⟨head, s₁, htake, hrun⟩ := run_bind_eq_ok.1 hrun
  obtain ⟨cs, hcs, rfl⟩ := constructs_of_takeWhileHead htake
  have htaken := Session.onward_taken hs hcs
  obtain ⟨_, s₂, hopen, hrun⟩ := run_bind_eq_ok.1 hrun
  have hopened := turns_openIf c level _ s₂ _ htaken.fit hopen
  obtain ⟨g, hg, houtline⟩ := hopened.outline
  have honward := htaken.trans hopened.toOnward
  have hhead : s₂.labels.Known head :=
    honward.known (hs.goals _ (hcs ▸ List.mem_cons_self) head List.mem_cons_self)
  rw [run_openConstruct] at hrun
  cases hrun
  obtain ⟨o, f, rfl⟩ : ∃ o f, g = .conditional o f := by
    cases g with
    | conditional o f => exact ⟨o, f, rfl⟩
    | _ => cases hg
  -- the head goes back on the constructs, and its label is still known
  have hgoals : ∀ c ∈ Construct.whileLoop head :: s₂.constructs, ∀ l ∈ c.goals, s₂.labels.Known l := by
    intro c hc l hl
    rcases List.mem_cons.1 hc with rfl | hc
    · rw [List.mem_singleton.1 hl]
      exact hhead
    · exact hopened.fit.goals c hc l hl
  refine ⟨honward.trans ⟨rfl, Nat.le_refl _, Nat.le_refl _, fun _ h => h, ⟨hopened.fit.labels, hgoals,
    hopened.fit.formatArray⟩⟩, head, o, f, cs.map Construct.bare, by rw [Session.outline, hcs]; rfl, ?_⟩
  exact congrArg (Construct.whileLoop head :: ·) houtline

/-- A while loop in its body is closed together with the conditional around the body. -/
theorem turns_closeWhile : closeWhile.Turns (.closes .whileLoop) := by
  intro level s s' u hs hrun
  obtain ⟨head, s₁, htake, hrun⟩ := run_bind_eq_ok.1 hrun
  obtain ⟨cs, hcs, rfl⟩ := constructs_of_takeWhileHead htake
  have htaken := Session.onward_taken hs hcs
  have hrest : (do jumpTo head; closeIf).Turns (.closes .conditional) :=
    (turns_jumpTo head).bind fun _ => turns_closeIf
  have hclosed := hrest level _ s' _ htaken.fit hrun
  obtain ⟨o, f, houtline, hfree⟩ := hclosed.outline
  refine ⟨htaken.trans hclosed.toOnward, head, o, f, ?_, hfree⟩
  rw [← houtline, Session.outline, hcs]
  rfl

/-! ### Sections of a switch -/

/-- A switch that is looked at is innermost. -/
theorem constructs_of_currentSwitch {t : Tracer} {s s' : Session} {p : Label × Label × Bool}
    (h : (currentSwitch.run t).run s = .ok p s') :
    (∃ cs, s.constructs = .switch p.1 p.2.1 p.2.2 :: cs) ∧ s' = s := by
  rw [currentSwitch, run_bind_ok (run_get t s)] at h
  split at h
  · rename_i hcs
    cases h
    exact ⟨⟨_, hcs⟩, rfl⟩
  · cases h

theorem turns_closeCase : closeCase.Turns .part := by
  intro level s s' u hs hrun
  obtain ⟨⟨d, f, given⟩, s₁, hlook, hend⟩ := run_bind_eq_ok.1 hrun
  obtain ⟨⟨cs, hcs⟩, rfl⟩ := constructs_of_currentSwitch hlook
  have hrest : (do jumpTo f; note "\x7d //end case ").Turns .plain :=
    (turns_jumpTo _).bind fun _ => turns_note _
  have hturned := hrest level _ s' _ hs hend
  have houtline : s'.outline = s₁.outline := hturned.outline
  have hopen : s₁.outline = .switch d f given :: cs.map Construct.bare := by
    rw [Session.outline, hcs]
    rfl
  exact ⟨hturned.toOnward, d, f, given, given, _, hopen, houtline.trans hopen⟩

/-- The default section is noted in the construct, and marked. -/
theorem turns_openDefault : openDefault.Turns .part := by
  intro level s s' u hs hrun
  obtain ⟨⟨d, f, given⟩, s₁, hlook, hend⟩ := run_bind_eq_ok.1 hrun
  obtain ⟨⟨cs, hcs⟩, rfl⟩ := constructs_of_currentSwitch hlook
  obtain ⟨_, s₂, hgiven, hmark⟩ := run_bind_eq_ok.1 hend
  rw [run_modify] at hgiven
  cases hgiven
  have hsame : s₁.Turned .part (s₁.withConstructs (.switch d f true :: s₁.constructs.drop 1)) := by
    rw [hcs]
    refine Session.turned_withConstructs hs (fun c hc l hl => ?_)
      ⟨d, f, given, true, cs.map Construct.bare, by rw [Session.outline, hcs]; rfl, rfl⟩
    rcases List.mem_cons.1 hc with rfl | hc
    · exact absurd hl List.not_mem_nil
    · exact hs.goals c (hcs ▸ List.mem_cons_of_mem _ hc) l hl
  exact hsame.behind (turns_markHere _ level _ s' _ hsame.fit hmark)

/-! ### Full text -/

/-- A conditional that is opened may go on to another alternative. -/
theorem Turns.alternate (h : e.Turns (.opens .conditional)) (hf : ∀ a, (f a).Turns .alternative) :
    (e >>= f).Turns (.opens .conditional) := by
  intro level s s' x hs hrun
  obtain ⟨a, s₁, he, hrun⟩ := run_bind_eq_ok.1 hrun
  have hfirst := h level s s₁ a hs he
  exact hfirst.alternative (hf a level s₁ s' x hfirst.fit hrun)

/-- A construct that is opened and closed leaves the others. -/
theorem Turns.close (h : e.Turns (.opens k)) (hk : k ≠ .whileLoop) (hf : ∀ a, (f a).Turns (.closes k)) :
    (e >>= f).Turns .plain := by
  intro level s s' x hs hrun
  obtain ⟨a, s₁, he, hrun⟩ := run_bind_eq_ok.1 hrun
  have hfirst := h level s s₁ a hs he
  exact hfirst.close hk (hf a level s₁ s' x hfirst.fit hrun)

/-- Text behind a guard against null is a conditional that is opened and closed. -/
theorem turns_referenceText {text : Emit Unit} (h : text.Turns .plain) :
    (referenceText text).Turns .plain := by
  have hnull : (do traced "Pop" .pop; loadText "<null>"; openElse).Turns .alternative :=
    (sparing_traced "Pop" .pop rfl).turns.bind fun _ => (sparing_loadText _).turns.bind fun _ =>
      turns_openElse
  have hguard : guardHead.Turns (.opens .conditional) :=
    (sparing_traced "Dup" .dup rfl).turns.bind fun _ => sparing_loadNull.turns.bind fun _ =>
      Turns.alternate (turns_openIf _) fun _ => hnull
  rw [referenceText_eq]
  exact hguard.close nofun fun _ => h.bind fun _ => turns_closeIf

/-- The text of an array is a counted loop, with the text of an item in it. -/
theorem turns_arrayText {itemText : Emit Unit} (t : Ty) (h : itemText.Turns .plain) :
    (arrayText t itemText).Turns .plain := by
  refine (sparing_newLocal _ _).turns.bind fun array => (sparing_storeLocal _).turns.bind fun _ =>
    (sparing_loadText _).turns.bind fun _ => (sparing_newLocal _ _).turns.bind fun text =>
      (sparing_storeLocal _).turns.bind fun _ => (sparing_newLocal _ _).turns.bind fun i => ?_
  have hlast : (do loadLocal text; loadText "\x7d"; joinTwo).Turns .plain :=
    (sparing_loadLocal _).turns.bind fun _ => (sparing_loadText _).turns.bind fun _ =>
      (sparing_call _).turns
  refine Turns.close (turns_openFor _ _ _) nofun fun _ => ?_
  exact (sparing_loadLocal _).turns.bind fun _ => (sparing_loadItemOf _ _).turns.bind fun _ =>
    h.bind fun _ => (sparing_loadText _).turns.bind fun _ => (sparing_call _).turns.bind fun _ =>
      (sparing_storeLocal _).turns.bind fun _ => turns_closeFor.seq fun _ => hlast

theorem turns_toFullText (t : Ty) : (toFullText t).Turns .plain := by
  induction t using toFullText.induct with
  | case1 element ih =>
    rw [toFullText]
    exact turns_referenceText (turns_arrayText _ ih)
  | case2 t hne hvalue =>
    rw [toFullText.eq_2 t hne, if_pos hvalue]
    exact (sparing_traced _ _ rfl).turns.bind fun _ => (sparing_call _).turns
  | case3 t hne hvalue =>
    rw [toFullText.eq_2 t hne, if_neg hvalue]
    exact turns_referenceText (sparing_call _).turns

/-! ## Refused calls -/

/-- A call is **refused** where the records of the session do not match its bracket. -/
def Refuses (e : Emit α) (b : Bracket) : Prop :=
  ∀ (level : TraceDetail) (s : Session), s.Fit → b.shift s.kinds = none →
    ∃ expected found s', (e.run (.ofLevel level)).run s = .error (.structuralMismatch expected found) s'

/-- What follows a refused call is not reached. -/
theorem Refuses.bind (h : e.Refuses b) (f : α → Emit β) : (e >>= f).Refuses b := by
  intro level s hs hb
  obtain ⟨expected, found, s', hrun⟩ := h level s hs hb
  exact ⟨expected, found, s', by rw [run_bind, hrun]⟩

/-- What takes a construct of a kind refuses all others. -/
def TakesOnly (k : ConstructKind) (p : Option Construct → Emit α) : Prop :=
  ∀ found, found.map Construct.kind ≠ some k → p found = refuseInnermost k found

/-- Where the innermost record is of another kind, taking it is refused. -/
theorem run_take_refused {t : Tracer} {s : Session} {p : Option Construct → Emit α} (hp : TakesOnly k p)
    (h : s.kinds.head? ≠ some k) : ∃ found s', ((takeInnermost >>= p).run t).run s =
      .error (.structuralMismatch k found) s' := by
  have hfound : s.constructs.head?.map Construct.kind ≠ some k := by
    rwa [Session.kinds, List.head?_map] at h
  rw [run_bind_ok (run_takeInnermost t s), hp _ hfound]
  exact ⟨_, _, rfl⟩

/-- A bracket that needs a record of a kind to be innermost. -/
theorem refuses_take {p : Option Construct → Emit α} (hp : TakesOnly k p)
    (hb : ∀ ks, b.shift ks = none → ks.head? ≠ some k) : (takeInnermost >>= p).Refuses b := by
  intro level s _ h
  obtain ⟨found, s', hrun⟩ := run_take_refused hp (hb _ h)
  exact ⟨k, found, s', hrun⟩

/-- A closing call, other than that of a while loop, needs its own kind. -/
theorem head_of_shift_closes (hk : k ≠ .whileLoop) (ks : List ConstructKind)
    (h : (Bracket.closes k).shift ks = none) : ks.head? ≠ some k := by
  intro hhead
  obtain ⟨rest, rfl⟩ := List.head?_eq_some_iff.1 hhead
  cases k with
  | whileLoop => exact hk rfl
  | _ => cases h

theorem refuses_takeConditional (hb : ∀ ks, b.shift ks = none → ks.head? ≠ some .conditional) :
    takeConditional.Refuses b := by
  refine refuses_take (fun found hfound => ?_) hb
  rcases found with _ | c
  · rfl
  · cases c <;> first | rfl | exact absurd rfl hfound

theorem refuses_takeCounted : takeCounted.Refuses (.closes .counted) := by
  refine refuses_take (fun found hfound => ?_) (head_of_shift_closes nofun)
  rcases found with _ | c
  · rfl
  · cases c <;> first | rfl | exact absurd rfl hfound

theorem refuses_takeEnumerated : takeEnumerated.Refuses (.closes .enumerated) := by
  refine refuses_take (fun found hfound => ?_) (head_of_shift_closes nofun)
  rcases found with _ | c
  · rfl
  · cases c <;> first | rfl | exact absurd rfl hfound

theorem refuses_takeSwitch : takeSwitch.Refuses (.closes .switch) := by
  refine refuses_take (fun found hfound => ?_) (head_of_shift_closes nofun)
  rcases found with _ | c
  · rfl
  · cases c <;> first | rfl | exact absurd rfl hfound

theorem run_takeWhileHead_refused {t : Tracer} {s : Session} (h : s.kinds.head? ≠ some .whileLoop) :
    ∃ found s', (takeWhileHead.run t).run s = .error (.structuralMismatch .whileLoop found) s' := by
  refine run_take_refused (fun found hfound => ?_) h
  rcases found with _ | c
  · rfl
  · cases c <;> first | rfl | exact absurd rfl hfound

theorem refuses_currentSwitch : currentSwitch.Refuses .part := by
  intro level s _ h
  rw [Session.kinds] at h
  rw [currentSwitch, run_bind_ok (run_get _ s)]
  cases hcs : s.constructs with
  | nil => exact ⟨.switch, none, s, rfl⟩
  | cons c cs =>
    rw [hcs] at h
    cases c with
    | switch d f given => cases h
    | _ => exact ⟨.switch, _, s, rfl⟩

theorem refuses_nextAlternative : nextAlternative.Refuses .alternative := by
  refine (refuses_takeConditional fun ks h hhead => ?_).bind _
  obtain ⟨rest, rfl⟩ := List.head?_eq_some_iff.1 hhead
  cases h

theorem refuses_closeIf : closeIf.Refuses (.closes .conditional) :=
  (refuses_takeConditional (head_of_shift_closes nofun)).bind _

theorem refuses_openWhileBody (c : Comparison) : (openWhileBody c).Refuses .body := by
  refine Refuses.bind (fun level s _ h => ?_) _
  have hhead : s.kinds.head? ≠ some .whileLoop := by
    intro hhead
    obtain ⟨rest, hrest⟩ := List.head?_eq_some_iff.1 hhead
    rw [hrest] at h
    cases h
  obtain ⟨found, s', hrun⟩ := run_takeWhileHead_refused hhead
  exact ⟨_, found, s', hrun⟩

/-- A while loop that is innermost is taken. -/
theorem run_takeWhileHead {t : Tracer} {s : Session} {head : Label} {cs : List Construct}
    (h : s.constructs = .whileLoop head :: cs) :
    (takeWhileHead.run t).run s = .ok head (s.withConstructs cs) := by
  rw [takeWhileHead, run_bind_ok (run_takeInnermost t s), h]
  rfl

theorem run_takeEnumerated {t : Tracer} {s : Session} {loop : LoopState} {cs : List Construct}
    (h : s.constructs = .enumerated loop :: cs) :
    (takeEnumerated.run t).run s = .ok loop (s.withConstructs cs) := by
  rw [takeEnumerated, run_bind_ok (run_takeInnermost t s), h]
  rfl

/-- A while loop is not closed where none is innermost, nor where what is behind it is no conditional. -/
theorem refuses_closeWhile : closeWhile.Refuses (.closes .whileLoop) := by
  intro level s hs h
  by_cases hhead : s.kinds.head? = some .whileLoop
  · rw [Session.kinds, List.head?_map, Option.map_eq_some_iff] at hhead
    obtain ⟨c, hc, hkind⟩ := hhead
    obtain ⟨cs, hcs⟩ := List.head?_eq_some_iff.1 hc
    obtain ⟨head, rfl⟩ : ∃ head, c = .whileLoop head := by
      cases c with
      | whileLoop head => exact ⟨head, rfl⟩
      | _ => cases hkind
    -- the jump back is recorded before the conditional turns out to be missing
    have htaken := Session.onward_taken hs hcs
    have hhead : s.labels.Known head := hs.goals _ (hcs ▸ List.mem_cons_self) head List.mem_cons_self
    have hjump : ((jumpTo head).run (.ofLevel level)).run (s.withConstructs cs) = .ok ()
        (((s.withConstructs cs).written (.ofLevel level) ("    " ++ ("Br " ++ head.text))).jumped
          (.always head)) := by
      rw [jumpTo, run_bind_ok (run_note _ _ _)]
      refine run_jump _ _ (Marks.checkKnown_eq_ok.2 fun l hl => ?_)
      obtain rfl := List.mem_singleton.1 hl
      simpa using hhead
    have hjumped := turns_jumpTo head level _ _ _ htaken.fit hjump
    have hshift : (Bracket.closes .conditional).shift (cs.map Construct.kind) = none := by
      rw [Session.kinds, hcs] at h
      simpa [Bracket.shift, ConstructKind.closing, Construct.kind] using h
    obtain ⟨expected, found, s', hrun⟩ := refuses_closeIf level _ hjumped.fit
      (by rw [Session.kinds_eq, hjumped.outline, ← Session.kinds_eq]; exact hshift)
    refine ⟨expected, found, s', ?_⟩
    rw [closeWhile, run_bind_ok (run_takeWhileHead hcs), run_bind_ok hjump]
    exact hrun
  · obtain ⟨found, s', hrun⟩ := run_takeWhileHead_refused hhead
    exact ⟨_, found, s', by rw [closeWhile, run_bind, hrun]⟩

end Emit

/-! ## Every operation -/

namespace Operation

/-- A call that has nothing to answer. -/
theorem turns_done {e : Emit Unit} {b : Bracket} (h : e.Turns b) : (perform.done e).Turns b :=
  h.seq fun _ => Emit.turns_pure _

/-- Every accepted emission call **turns** the constructs as its bracket says. -/
theorem turns_perform (o : Operation) : o.perform.Turns o.bracket := by
  by_cases ho : o.isStraight
  · have hplain : o.bracket = .plain := by
      cases o <;> first | rfl | cases ho
    rw [hplain]
    exact (sparing_perform ho).turns
  cases o with
  | newLabel => exact Emit.turns_newLabel.map _
  | markHere l => exact turns_done (Emit.turns_markHere l)
  | jumpTo l => exact turns_done (Emit.turns_jumpTo l)
  | jumpIfTrue l => exact turns_done (Emit.turns_jumpIfTrue l)
  | jumpIfFalse l => exact turns_done (Emit.turns_jumpIfFalse l)
  | jumpIfLess l => exact turns_done (Emit.turns_jumpIfLess l)
  | jumpIfGreater l => exact turns_done ((Emit.turns_note _).bind fun _ => Emit.turns_jump _)
  | jumpIfLessOrEqual l => exact turns_done ((Emit.turns_note _).bind fun _ => Emit.turns_jump _)
  | toFullText t => exact turns_done (Emit.turns_toFullText t)
  | openIfTrue => exact turns_done Emit.turns_openIfTrue
  | openIfFalse => exact turns_done Emit.turns_openIfFalse
  | openIf c => exact turns_done (Emit.turns_openIf c)
  | openIfCompared a c b => exact turns_done (Emit.turns_openIfCompared a c b)
  | openElse => exact turns_done Emit.turns_openElse
  | openElseIf a c b => exact turns_done (Emit.turns_openElseIf a c b)
  | closeIf => exact turns_done Emit.turns_closeIf
  | openIfNotZero o => exact turns_done (Emit.turns_openIfNotZero o)
  | openIfNotEmpty l => exact turns_done (Emit.turns_openIfNotEmpty l)
  | openElseIfEmpty l => exact turns_done (Emit.turns_openElseIfEmpty l)
  | openFor index start bound => exact (Emit.turns_openFor index start bound).map _
  | closeFor => exact turns_done Emit.turns_closeFor
  | openEach l t e m => exact (Emit.turns_openEach l t e m).map _
  | closeEach m => exact turns_done (Emit.turns_closeEach m)
  | leave h =>
    exact turns_done ((Emit.turns_exitOf h).bind fun _ => (Emit.turns_note _).bind fun _ => Emit.turns_jump _)
  | leaveIfTrue h =>
    exact turns_done ((Emit.turns_exitOf h).bind fun _ => (Emit.turns_note _).bind fun _ => Emit.turns_jump _)
  | leaveIfFalse h =>
    exact turns_done ((Emit.turns_exitOf h).bind fun _ => (Emit.turns_note _).bind fun _ => Emit.turns_jump _)
  | openSwitch n => exact (Emit.turns_openSwitch n).map _
  | openCase l name => exact turns_done ((Emit.turns_note _).bind fun _ => Emit.turns_markHere l)
  | closeCase => exact turns_done Emit.turns_closeCase
  | openDefault => exact turns_done Emit.turns_openDefault
  | closeSwitch => exact turns_done Emit.turns_closeSwitch
  | openWhile => exact turns_done Emit.turns_openWhile
  | openWhileBody c => exact turns_done (Emit.turns_openWhileBody c)
  | closeWhile => exact turns_done Emit.turns_closeWhile
  | _ => exact absurd rfl ho

/-- Every emission call is **refused** where its bracket does not match the records of the session. -/
theorem refuses_perform (o : Operation) : o.perform.Refuses o.bracket := by
  have hdone : ∀ {e : Emit Unit} {b : Bracket}, e.Refuses b → (perform.done e).Refuses b :=
    fun h => h.bind _
  cases o with
  | openElse => exact hdone (Emit.refuses_nextAlternative.bind _)
  | openElseIf a c b => exact hdone (Emit.refuses_nextAlternative.bind _)
  | openElseIfEmpty l => exact hdone (Emit.refuses_nextAlternative.bind _)
  | closeIf => exact hdone Emit.refuses_closeIf
  | closeFor => exact hdone (Emit.refuses_takeCounted.bind _)
  | closeEach m => exact hdone (Emit.refuses_takeEnumerated.bind _)
  | closeCase => exact hdone (Emit.refuses_currentSwitch.bind _)
  | openDefault => exact hdone (Emit.refuses_currentSwitch.bind _)
  | closeSwitch => exact hdone (Emit.refuses_takeSwitch.bind _)
  | openWhileBody c => exact hdone (Emit.refuses_openWhileBody c)
  | closeWhile => exact hdone Emit.refuses_closeWhile
  -- the other brackets match all records
  | _ => exact fun _ _ _ h => nomatch h

end Operation

end Stackwright
