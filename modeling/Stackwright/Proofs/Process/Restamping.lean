import Stackwright.Builder
import Stackwright.Proofs.Process.Stamps

/-! # Calls under other stamps

An emission call does the same under other stamps: made on the session with other stamps, and handed the
tokens with other stamps, it is accepted or refused as before, and so are its answer and the session
behind it. The statement composes along the calls that a call is made of; those that touch no token have
it from the tandem of straight-line calls.

* **`Emit.Restamps σ t f e e'`** — `e'` does under other stamps what `e` does, and answers `f a` for `a`.
* **`Operation.restamps_perform`**, **`Emit.restamps_finish`** — so does every operation, and the end. -/

namespace Stackwright

variable {α β γ δ : Type} {σ : Nat → Nat} {t : Tracer}

namespace Emit

/-- What comes of a call, with other stamps. -/
def restampResult (σ : Nat → Nat) (f : α → β) :
    EStateM.Result BuildError Session α → EStateM.Result BuildError Session β
  | .ok a s => .ok (f a) (s.restamp σ)
  | .error e s => .error (e.restamp σ) (s.restamp σ)

/-- A call that **does the same under other stamps** as another one, on every session whose end label is
defined. -/
def Restamps (σ : Nat → Nat) (t : Tracer) (f : α → β) (e : Emit α) (e' : Emit β) : Prop :=
  ∀ s : Session, 0 < s.labels.entries.size →
    (e'.run t).run (s.restamp σ) = restampResult σ f ((e.run t).run s) ∧
      ∀ a s', (e.run t).run s = .ok a s' → 0 < s'.labels.entries.size

variable {f : α → β} {g : γ → δ} {e : Emit α} {e' : Emit β} {k : α → Emit γ} {k' : β → Emit δ}

/-! ## Composition -/

theorem Restamps.bind (h : Restamps σ t f e e') (hk : ∀ a, Restamps σ t g (k a) (k' (f a))) :
    Restamps σ t g (e >>= k) (e' >>= k') := by
  intro s hs
  obtain ⟨hrun', hkeep⟩ := h s hs
  rw [run_bind, run_bind, hrun']
  cases hrun : (e.run t).run s with
  | ok a s₁ => exact hk a s₁ (hkeep a s₁ hrun)
  | error r s₁ => exact ⟨rfl, nofun⟩

theorem restamps_pure (a : α) : Restamps σ t f (pure a) (pure (f a)) := fun s hs =>
  ⟨rfl, fun b s' hrun => by cases hrun; exact hs⟩

theorem Restamps.map {m : α → γ} {m' : β → δ} (h : Restamps σ t f e e') (hm : ∀ a, m' (f a) = g (m a)) :
    Restamps σ t g (m <$> e) (m' <$> e') := by
  rw [map_eq_pure_bind, map_eq_pure_bind]
  refine h.bind fun a => ?_
  rw [hm]
  exact restamps_pure (m a)

theorem restamps_refuse (r : BuildError) :
    Restamps σ t f (refuse r : Emit α) (refuse (r.restamp σ) : Emit β) := fun _ _ => ⟨rfl, nofun⟩

theorem restamps_ofExcept {r r' : Except BuildError α} (h : r' = r.mapError (BuildError.restamp σ)) :
    Restamps σ t id (ofExcept r) (ofExcept r') := by
  rw [h]
  cases r with
  | ok a => exact restamps_pure a
  | error e => exact restamps_refuse e

/-- A call that looks at the session is the call that it then makes on it. -/
theorem restamps_get {k : Session → Emit γ} {k' : Session → Emit δ}
    (h : ∀ s, Restamps σ t g (k s) (k' (s.restamp σ))) :
    Restamps σ t g (get >>= k) (get >>= k') := fun s hs => h s s hs

theorem restamps_modify {c c' : Session → Session} (h : ∀ s, c' (s.restamp σ) = (c s).restamp σ)
    (hsize : ∀ s, s.labels.entries.size ≤ (c s).labels.entries.size) :
    Restamps σ t id (modify c : Emit PUnit) (modify c' : Emit PUnit) := fun s hs =>
  ⟨congrArg (EStateM.Result.ok PUnit.unit) (h s), fun a s' hrun => by
    cases hrun
    exact Nat.lt_of_lt_of_le hs (hsize s)⟩

end Emit

/-! ## Straight-line calls -/

/-- The pairing of sessions with the same locals, under which no tokens belong together. -/
def Pairing.tokenless : Pairing := ⟨Eq, fun _ _ => False, fun _ _ => False⟩

theorem Pairing.tokenless_le_same : tokenless ≤ same := ⟨fun _ _ h => h, fun _ _ h => h.elim, fun _ _ h => h.elim⟩

theorem Local.paired_tokenless (l : Local) : l.Paired .tokenless l := ⟨rfl, rfl⟩

theorem Operand.paired_tokenless (o : Operand) : o.Paired .tokenless o := by
  cases o with
  | constant c => exact .constant c
  | argument a => exact .argument a
  | «variable» l => exact .variable l.paired_tokenless

/-- Showing a value is accepted, and does the same under other stamps. -/
structure Tracer.Restamps (σ : Nat → Nat) (t : Tracer) : Prop where
  /-- It does the same. -/
  probe : ∀ T : Ty, Emit.Restamps σ t id (Emit.probe T) (Emit.probe T)
  /-- It is accepted. -/
  accepts : ∀ (T : Ty) (s : Session), 0 < s.labels.entries.size → ∃ s', (t.probe T).run s = .ok () s'

namespace Tandem

/-- A session beside the one with other stamps. -/
def restamped (σ : Nat → Nat) (t : Tracer) : Tandem where
  left := t
  right := t
  texts _ x x' := x' = x
  sessions g s s' := g = .tokenless ∧ s' = s.restamp σ ∧ 0 < s.labels.entries.size

theorem restamped_declared {g : Pairing} {s s' : Session} (h : (restamped σ t).sessions g s s') (T : Ty)
    (name : String) : ∃ g', g ≤ g' ∧ g'.slots s.locals.size s'.locals.size ∧
      (restamped σ t).sessions g' (s.declared T name) (s'.declared T name) := by
  obtain ⟨rfl, rfl, hs⟩ := h
  exact ⟨_, le_rfl, rfl, rfl, s.declared_restamp T name, hs⟩

theorem restamped_written {g : Pairing} {s s' : Session} (h : (restamped σ t).sessions g s s')
    (x : String) : (restamped σ t).sessions g (s.written t x) (s'.written t x) := by
  obtain ⟨rfl, rfl, hs⟩ := h
  exact ⟨rfl, s.written_restamp t x, by rw [Session.labels_written]; exact hs⟩

theorem straight_restamped (ht : t.Restamps σ) : (restamped σ t).Straight where
  -- related sessions are a session and its restamped copy, so each field is an equation of the two
  signature := by
    rintro _ s _ ⟨rfl, rfl, hs⟩
    rfl
  recorded := by
    rintro _ s _ ⟨rfl, rfl, hs⟩ o o' ho
    rw [(ho.mono Pairing.tokenless_le_same).eq]
    exact ⟨rfl, s.recorded_restamp [o], hs⟩
  returned := by
    rintro _ s _ ⟨rfl, rfl, hs⟩
    exact ⟨rfl, s.pushed_restamp .ret, hs⟩
  same _ _ := rfl
  later _ h := h
  named := by
    rintro _ s _ ⟨rfl, rfl, hs⟩ l l' hl x
    rw [(hl.mono Pairing.tokenless_le_same).eq]
    rfl
  written := by
    rintro _ s _ h x _ rfl
    exact restamped_written h _
  shown g T := by
    rintro g' - s _ ⟨rfl, rfl, hs⟩
    obtain ⟨hrun', hkeep⟩ := ht.probe T s hs
    obtain ⟨s₁, hrun⟩ := ht.accepts T s hs
    have hrun : ((Emit.probe T).run t).run s = .ok () s₁ := hrun
    rw [hrun] at hrun'
    exact Agree.of_ok hrun hrun' le_rfl ⟨rfl, rfl, hkeep () s₁ hrun⟩ trivial
  declared := restamped_declared
  formatted := by
    refine inStep_formatArray
      (fun _ => inStep_newLocal restamped_declared (fun h x => restamped_written h x) _ _) ?_ ?_
    · rintro _ s _ ⟨rfl, rfl, hs⟩
      show Option.Rel _ s.formatArray s.formatArray
      cases s.formatArray with
      | none => exact .none
      | some l => exact .some l.paired_tokenless
    · rintro _ s _ ⟨rfl, rfl, hs⟩ l l' hl
      rw [(hl.mono Pairing.tokenless_le_same).eq]
      exact ⟨rfl, rfl, hs⟩

/-- Straight-line calls that are in step with themselves do the same under other stamps. -/
theorem InStep.restamps {f : α → α} {e e' : Emit α} {Q : Pairing → α → α → Prop}
    (h : (restamped σ t).InStep .tokenless e e' Q) (hq : ∀ a b, Q .tokenless a b → b = f a) :
    Emit.Restamps σ t f e e' := by
  intro s hs
  have hagree := h .tokenless le_rfl s (s.restamp σ) ⟨rfl, rfl, hs⟩
  change (restamped σ t).Agree _ _ ((e.run t).run s) ((e'.run t).run (s.restamp σ)) at hagree
  generalize (e.run t).run s = r, (e'.run t).run (s.restamp σ) = r' at hagree ⊢
  cases hagree with
  | ok hle hs' hqab =>
    obtain ⟨rfl, rfl, hs'⟩ := hs'
    rw [hq _ _ hqab]
    refine ⟨rfl, fun a s' hrun => ?_⟩
    cases hrun
    exact hs'
  | error hle hs' he =>
    obtain ⟨rfl, rfl, hs'⟩ := hs'
    -- a refusal that names a label would pair two tokens
    cases he with
    | other hlabel => exact ⟨congrArg (EStateM.Result.error · _) (BuildError.restamp_of_label? hlabel).symm, nofun⟩
    | unknownLabel h => exact h.2.elim
    | labelAlreadyMarked h => exact h.2.elim
    | labelNotMarked h => exact h.2.elim

theorem Keeps.restamps {e e' : Emit Unit} (h : (restamped σ t).Keeps .tokenless e e') :
    Emit.Restamps σ t id e e' := InStep.restamps h fun _ _ _ => rfl

end Tandem

namespace Emit

/-! ## Labels and constructs -/

theorem restamps_newLabel : Restamps σ t (Label.restamp σ) newLabel newLabel := fun s hs =>
  ⟨rfl, fun l s' hrun => by
    cases hrun
    exact Nat.lt_of_lt_of_le hs (by simp [Marks.define])⟩

theorem restamps_jump (hσ : σ.Injective) (j : Jump Label) :
    Restamps σ t id (jump j) (jump (j.map (Label.restamp σ))) := by
  refine restamps_get fun s => Restamps.bind (restamps_ofExcept ?_) fun _ => Restamps.bind
    (restamps_modify (fun s => ?_) fun s => ?_) fun _ => restamps_modify (fun s => ?_) fun s => Nat.le_refl _
  · rw [Jump.targets_map]
    exact Marks.checkKnown_restamp hσ
  · rw [Jump.targets_map]
    exact congrArg (fun t => ({ s.restamp σ with labels := t } : Session)) (Marks.target_restamp _ _)
  · simp
  · exact s.pushed_restamp (.jump j)

theorem restamps_openConstruct (c : Construct) :
    Restamps σ t id (openConstruct c) (openConstruct (c.restamp σ)) :=
  restamps_modify (fun s => s.withConstructs_restamp (c :: s.constructs)) fun _ => Nat.le_refl _

theorem restamps_takeInnermost :
    Restamps σ t (Option.map (Construct.restamp σ)) takeInnermost takeInnermost := by
  have hdrop : ∀ s : Session, (s.restamp σ).constructs.drop 1 = (s.constructs.drop 1).map (Construct.restamp σ) :=
    fun s => List.map_drop.symm
  refine restamps_get fun s => Restamps.bind (f := id) (restamps_modify (fun s => ?_) ?_) fun _ => ?_
  · exact congrArg (s.restamp σ).withConstructs (hdrop s)
  · exact fun _ => Nat.le_refl _
  · have hhead : (s.restamp σ).constructs.head? = s.constructs.head?.map (Construct.restamp σ) :=
      List.head?_map
    rw [hhead]
    exact restamps_pure _

/-- What is refused for the innermost construct is refused for its kind. -/
theorem restamps_refuseInnermost (k : ConstructKind) (found : Option Construct) :
    Restamps σ t f (refuseInnermost k found : Emit α)
      (refuseInnermost k (found.map (Construct.restamp σ)) : Emit β) := by
  have hkind : (found.map (Construct.restamp σ)).map Construct.kind = found.map Construct.kind := by
    rw [Option.map_map]
    exact congrArg (Option.map · found) (funext Construct.kind_restamp)
  rw [refuseInnermost, refuseInnermost, hkind]
  exact restamps_refuse _

theorem restamps_takeConditional :
    Restamps σ t (Prod.map (Label.restamp σ) (Label.restamp σ)) takeConditional takeConditional := by
  refine Restamps.bind restamps_takeInnermost fun found => ?_
  rcases found with _ | c
  · exact restamps_refuseInnermost _ none
  · cases c <;> first | exact restamps_pure _ | exact restamps_refuseInnermost _ (some _)

theorem restamps_takeCounted : Restamps σ t (LoopState.restamp σ) takeCounted takeCounted := by
  refine Restamps.bind restamps_takeInnermost fun found => ?_
  rcases found with _ | c
  · exact restamps_refuseInnermost _ none
  · cases c <;> first | exact restamps_pure _ | exact restamps_refuseInnermost _ (some _)

theorem restamps_takeEnumerated :
    Restamps σ t (LoopState.restamp σ) takeEnumerated takeEnumerated := by
  refine Restamps.bind restamps_takeInnermost fun found => ?_
  rcases found with _ | c
  · exact restamps_refuseInnermost _ none
  · cases c <;> first | exact restamps_pure _ | exact restamps_refuseInnermost _ (some _)

/-- The labels of a switch. -/
def sectionLabels (σ : Nat → Nat) : Label × Label × Bool → Label × Label × Bool :=
  Prod.map (Label.restamp σ) (Prod.map (Label.restamp σ) id)

theorem restamps_takeSwitch : Restamps σ t (sectionLabels σ) takeSwitch takeSwitch := by
  refine Restamps.bind restamps_takeInnermost fun found => ?_
  rcases found with _ | c
  · exact restamps_refuseInnermost _ none
  · cases c <;> first | exact restamps_pure _ | exact restamps_refuseInnermost _ (some _)

theorem restamps_takeWhileHead : Restamps σ t (Label.restamp σ) takeWhileHead takeWhileHead := by
  refine Restamps.bind restamps_takeInnermost fun found => ?_
  rcases found with _ | c
  · exact restamps_refuseInnermost _ none
  · cases c <;> first | exact restamps_pure _ | exact restamps_refuseInnermost _ (some _)

theorem restamps_currentSwitch : Restamps σ t (sectionLabels σ) currentSwitch currentSwitch := by
  refine restamps_get fun s => ?_
  have hconstructs : (s.restamp σ).constructs = s.constructs.map (Construct.restamp σ) := rfl
  rw [hconstructs]
  cases s.constructs with
  | nil => exact restamps_refuseInnermost _ none
  | cons c cs =>
    cases c <;> first | exact restamps_pure _ | exact restamps_refuseInnermost _ (some _)

/-! ## Lines, jumps and marks -/

section structured

variable (hσ : σ.Injective) (ht : t.Restamps σ)

include ht in
theorem restamps_note (x : String) : Restamps σ t id (note x) (note x) :=
  ((Tandem.straight_restamped ht).note x).restamps

include ht in
theorem restamps_traced (x : String) (o : Op) (h : o.isPlain) :
    Restamps σ t id (traced x o) (traced x o) :=
  ((Tandem.straight_restamped ht).traced x o h).restamps

include ht in
theorem restamps_call (m : Method) : Restamps σ t id (call m) (call m) :=
  ((Tandem.straight_restamped ht).call m).restamps

include ht in
theorem restamps_load (o : Operand) : Restamps σ t id (load o) (load o) :=
  ((Tandem.straight_restamped ht).load o.paired_tokenless).restamps

include ht in
theorem restamps_loadLocal (l : Local) : Restamps σ t id (loadLocal l) (loadLocal l) :=
  ((Tandem.straight_restamped ht).loadLocal l.paired_tokenless).restamps

include ht in
theorem restamps_storeLocal (l : Local) : Restamps σ t id (storeLocal l) (storeLocal l) :=
  ((Tandem.straight_restamped ht).storeLocal l.paired_tokenless).restamps

include ht in
theorem restamps_newLocal (T : Ty) (name : String) :
    Restamps σ t id (newLocal T name) (newLocal T name) :=
  ((Tandem.straight_restamped ht).newLocal T name).restamps fun _ _ h =>
    (h.mono Pairing.tokenless_le_same).eq

include ht in
theorem restamps_convertTop (source target : Ty) :
    Restamps σ t id (convertTop source target) (convertTop source target) :=
  ((Tandem.straight_restamped ht).convertTop source target).restamps

include ht in
theorem restamps_callOn (o : Operand) (m : Method) :
    Restamps σ t id (callWith (some o) m []) (callWith (some o) m []) :=
  ((Tandem.straight_restamped ht).callWith m (.some o.paired_tokenless) .nil).restamps

include hσ ht

/-- A jump behind its line. -/
theorem restamps_noteJump (x : String) (j : Jump Label) :
    Restamps σ t id (do note x; jump j) (do note x; jump (j.map (Label.restamp σ))) :=
  (restamps_note ht x).bind fun _ => restamps_jump hσ j

theorem restamps_markHere (l : Label) :
    Restamps σ t id (markHere l) (markHere (l.restamp σ)) := by
  refine restamps_get fun s => Restamps.bind (restamps_ofExcept (Marks.checkUnmarked_restamp hσ)) fun _ =>
    Restamps.bind (f := id) (restamps_modify (fun s => ?_) fun s => ?_) fun _ =>
      ((Tandem.straight_restamped ht).line rfl).restamps
  · have hsize : (s.restamp σ).code.size = s.code.size := by simp [Session.restamp]
    rw [hsize]
    exact congrArg (fun t => ({ s.restamp σ with labels := t } : Session)) (Marks.mark_restamp _ _ _)
  · simp

theorem restamps_jumpTo (l : Label) : Restamps σ t id (jumpTo l) (jumpTo (l.restamp σ)) :=
  restamps_noteJump hσ ht _ (.always l)

theorem restamps_jumpIfTrue (l : Label) :
    Restamps σ t id (jumpIfTrue l) (jumpIfTrue (l.restamp σ)) :=
  restamps_noteJump hσ ht _ (.ifTrue l)

theorem restamps_jumpIfFalse (l : Label) :
    Restamps σ t id (jumpIfFalse l) (jumpIfFalse (l.restamp σ)) :=
  restamps_noteJump hσ ht _ (.ifFalse l)

theorem restamps_jumpIfLess (l : Label) :
    Restamps σ t id (jumpIfLess l) (jumpIfLess (l.restamp σ)) :=
  restamps_noteJump hσ ht _ (.compare .lessThan l)

theorem restamps_jumpUnless (c : Comparison) :
    Restamps σ t (Label.restamp σ) (jumpUnless c) (jumpUnless c) :=
  restamps_newLabel.bind fun l => (restamps_note ht _).bind fun _ =>
    (restamps_jump hσ (.compare c.negated l)).bind fun _ => restamps_pure l

/-! ## Conditionals -/

theorem restamps_openIfTrue : Restamps σ t id openIfTrue openIfTrue :=
  restamps_newLabel.bind fun finish => restamps_newLabel.bind fun otherwise =>
    (restamps_jumpIfFalse hσ ht otherwise).bind fun _ =>
      restamps_openConstruct (.conditional otherwise finish)

theorem restamps_openIfFalse : Restamps σ t id openIfFalse openIfFalse :=
  restamps_newLabel.bind fun finish => restamps_newLabel.bind fun otherwise =>
    (restamps_jumpIfTrue hσ ht otherwise).bind fun _ =>
      restamps_openConstruct (.conditional otherwise finish)

theorem restamps_openIf (c : Comparison) : Restamps σ t id (openIf c) (openIf c) :=
  restamps_newLabel.bind fun finish => (restamps_jumpUnless hσ ht c).bind fun otherwise =>
    restamps_openConstruct (.conditional otherwise finish)

theorem restamps_openIfCompared (a : Operand) (c : Comparison) (b : Operand) :
    Restamps σ t id (openIfCompared a c b) (openIfCompared a c b) :=
  (restamps_load ht a).bind fun _ => (restamps_load ht b).bind fun _ => restamps_openIf hσ ht c

theorem restamps_openIfNotZero (o : Operand) :
    Restamps σ t id (openIfNotZero o) (openIfNotZero o) := by
  have hzero : Restamps σ t id (loadZero o.type) (loadZero o.type) :=
    ((Tandem.straight_restamped ht).loadZero o.type).restamps
  unfold openIfNotZero
  dsimp only
  split
  · exact hzero.bind fun _ => (restamps_convertTop ht _ _).bind fun _ => (restamps_load ht o).bind fun _ =>
      (restamps_convertTop ht _ _).bind fun _ => (restamps_call ht _).bind fun _ =>
        restamps_openIfFalse hσ ht
  · exact hzero.bind fun _ => (restamps_load ht o).bind fun _ => restamps_openIf hσ ht _

omit hσ in
theorem restamps_loadTextLength (l : Local) :
    Restamps σ t id (loadTextLength l) (loadTextLength l) :=
  (restamps_loadLocal ht l).bind fun _ => (restamps_call ht _).bind fun _ => restamps_traced ht _ _ rfl

theorem restamps_openIfNotEmpty (l : Local) :
    Restamps σ t id (openIfNotEmpty l) (openIfNotEmpty l) :=
  (restamps_loadTextLength ht l).bind fun _ => restamps_openIf hσ ht _

theorem restamps_nextAlternative :
    Restamps σ t (Label.restamp σ) nextAlternative nextAlternative :=
  restamps_takeConditional.bind fun (otherwise, finish) => (restamps_jumpTo hσ ht finish).bind fun _ =>
    (restamps_markHere hσ ht otherwise).bind fun _ => restamps_pure finish

theorem restamps_openElse : Restamps σ t id openElse openElse :=
  (restamps_nextAlternative hσ ht).bind fun finish =>
    restamps_openConstruct (.conditional finish finish)

theorem restamps_openElseIf (a : Operand) (c : Comparison) (b : Operand) :
    Restamps σ t id (openElseIf a c b) (openElseIf a c b) :=
  (restamps_nextAlternative hσ ht).bind fun finish => (restamps_load ht a).bind fun _ =>
    (restamps_load ht b).bind fun _ => (restamps_jumpUnless hσ ht c).bind fun otherwise =>
      restamps_openConstruct (.conditional otherwise finish)

theorem restamps_openElseIfEmpty (l : Local) :
    Restamps σ t id (openElseIfEmpty l) (openElseIfEmpty l) :=
  (restamps_nextAlternative hσ ht).bind fun finish => (restamps_loadTextLength ht l).bind fun _ =>
    (restamps_jumpUnless hσ ht _).bind fun otherwise =>
      restamps_openConstruct (.conditional otherwise finish)

theorem restamps_closeIf : Restamps σ t id closeIf closeIf := by
  refine restamps_takeConditional.bind fun (otherwise, finish) => ?_
  have hfinish := restamps_markHere hσ ht finish
  show Restamps σ t id (if otherwise = finish then _ else _)
    (if otherwise.restamp σ = finish.restamp σ then _ else _)
  simp only [Label.restamp_inj hσ]
  split
  · exact hfinish
  · exact (restamps_markHere hσ ht otherwise).bind fun _ => hfinish

/-! ## Loops -/

omit hσ ht in
theorem restamps_newLoop (slot : Option Local) (bound : Operand) :
    Restamps σ t (LoopState.restamp σ) (newLoop slot bound) (newLoop slot bound) :=
  restamps_get fun s => Restamps.bind (f := id) (restamps_modify (fun _ => rfl) fun _ => Nat.le_refl _)
    fun _ => restamps_newLabel.bind fun body => restamps_newLabel.bind fun test =>
      restamps_pure (LoopState.mk ⟨s.labels.session, s.nextLoop⟩ slot body test none bound)

theorem restamps_openFor (index : Option Local) (start bound : Operand) :
    Restamps σ t (LoopHandle.restamp σ) (openFor index start bound) (openFor index start bound) := by
  refine (restamps_newLoop index bound).bind fun k => ?_
  have hrest : Restamps σ t (LoopHandle.restamp σ)
      (do markHere k.body; openConstruct (.counted k); pure k.handle)
      (do markHere (k.restamp σ).body; openConstruct (.counted (k.restamp σ)); pure (k.restamp σ).handle) :=
    (restamps_markHere hσ ht k.body).bind fun _ => (restamps_openConstruct (.counted k)).bind fun _ =>
      restamps_pure k.handle
  cases index with
  | none => exact hrest
  | some l =>
    exact (restamps_load ht start).bind fun _ => (restamps_storeLocal ht l).bind fun _ =>
      (restamps_jumpTo hσ ht k.test).bind fun _ => hrest

theorem restamps_markExit (k : LoopState) :
    Restamps σ t id (markExit k) (markExit (k.restamp σ)) := by
  obtain ⟨handle, slot, body, test, exit, bound⟩ := k
  cases exit with
  | none => exact restamps_pure _
  | some l => exact restamps_markHere hσ ht l

theorem restamps_closeFor : Restamps σ t id closeFor closeFor := by
  refine restamps_takeCounted.bind fun k => ?_
  have hback : Restamps σ t id (do jumpIfLess k.body; markExit k)
      (do jumpIfLess (k.restamp σ).body; markExit (k.restamp σ)) :=
    (restamps_jumpIfLess hσ ht k.body).bind fun _ => restamps_markExit hσ ht k
  obtain ⟨handle, slot, body, test, exit, bound⟩ := k
  cases slot with
  | none => exact (restamps_jumpTo hσ ht body).bind fun _ => restamps_markExit hσ ht _
  | some l =>
    refine (restamps_loadLocal ht l).bind fun _ => (restamps_traced ht _ _ rfl).bind fun _ =>
      (restamps_traced ht _ _ rfl).bind fun _ => (restamps_storeLocal ht l).bind fun _ =>
        (restamps_markHere hσ ht test).bind fun _ => (restamps_loadLocal ht l).bind fun _ =>
          (restamps_load ht bound).bind fun _ => ?_
    show Restamps σ t id (if bound.type.isArray then _ else _) (if bound.type.isArray then _ else _)
    split
    · exact (((Tandem.straight_restamped ht).loadLength).restamps).bind fun _ => hback
    · exact hback

theorem restamps_openEach (l : Local) (element : Ty) (enumerator : Local) (getCurrent : Method) :
    Restamps σ t (LoopHandle.restamp σ) (openEach l element enumerator getCurrent)
      (openEach l element enumerator getCurrent) :=
  (restamps_newLoop (some l) (.variable enumerator)).bind fun k =>
    (restamps_jumpTo hσ ht k.test).bind fun _ => (restamps_markHere hσ ht k.body).bind fun _ =>
      (restamps_callOn ht k.bound getCurrent).bind fun _ => (restamps_convertTop ht _ _).bind fun _ =>
        (restamps_storeLocal ht l).bind fun _ => (restamps_openConstruct (.enumerated k)).bind fun _ =>
          restamps_pure k.handle

theorem restamps_closeEach (moveNext : Method) :
    Restamps σ t id (closeEach moveNext) (closeEach moveNext) :=
  restamps_takeEnumerated.bind fun k => (restamps_markHere hσ ht k.test).bind fun _ =>
    (restamps_callOn ht k.bound moveNext).bind fun _ => (restamps_jumpIfTrue hσ ht k.body).bind fun _ =>
      restamps_markExit hσ ht k

omit ht in
/-- The label behind a loop is found or defined under every stamp, and so is the refusal. -/
theorem restamps_exitOf (h : LoopHandle) :
    Restamps σ t (Label.restamp σ) (exitOf h) (exitOf (h.restamp σ)) := by
  refine restamps_get fun s => ?_
  have hfind : Construct.findLoop? (s.restamp σ).constructs (h.restamp σ) =
      (Construct.findLoop? s.constructs h).map (LoopState.restamp σ) := Construct.findLoop?_restamp hσ
  have hhead : (s.restamp σ).constructs.head? = s.constructs.head?.map (Construct.restamp σ) :=
    List.head?_map
  dsimp only
  rw [hfind, hhead]
  cases Construct.findLoop? s.constructs h with
  | none => exact restamps_refuseInnermost _ _
  | some k =>
    obtain ⟨handle, slot, body, test, exit, bound⟩ := k
    cases exit with
    | some l => exact restamps_pure l
    | none =>
      refine restamps_newLabel.bind fun l => Restamps.bind (f := id) (restamps_modify (fun s => ?_)
        fun _ => Nat.le_refl _) fun _ => restamps_pure l
      exact congrArg (s.restamp σ).withConstructs (Construct.setExit_restamp hσ).symm

theorem restamps_leave (h : LoopHandle) : Restamps σ t id (leave h) (leave (h.restamp σ)) :=
  (restamps_exitOf hσ h).bind fun l => restamps_noteJump hσ ht _ (.always l)

theorem restamps_leaveIfTrue (h : LoopHandle) :
    Restamps σ t id (leaveIfTrue h) (leaveIfTrue (h.restamp σ)) :=
  (restamps_exitOf hσ h).bind fun l => restamps_noteJump hσ ht _ (.ifTrue l)

theorem restamps_leaveIfFalse (h : LoopHandle) :
    Restamps σ t id (leaveIfFalse h) (leaveIfFalse (h.restamp σ)) :=
  (restamps_exitOf hσ h).bind fun l => restamps_noteJump hσ ht _ (.ifFalse l)

theorem restamps_openWhile : Restamps σ t id openWhile openWhile :=
  restamps_newLabel.bind fun head => (restamps_markHere hσ ht head).bind fun _ =>
    restamps_openConstruct (.whileLoop head)

theorem restamps_openWhileBody (c : Comparison) :
    Restamps σ t id (openWhileBody c) (openWhileBody c) :=
  restamps_takeWhileHead.bind fun head => (restamps_openIf hσ ht c).bind fun _ =>
    restamps_openConstruct (.whileLoop head)

theorem restamps_closeWhile : Restamps σ t id closeWhile closeWhile :=
  restamps_takeWhileHead.bind fun head => (restamps_jumpTo hσ ht head).bind fun _ =>
    restamps_closeIf hσ ht

/-! ## Switches -/

omit hσ ht in
theorem restamps_newLabels (n : Nat) :
    Restamps σ t (List.map (Label.restamp σ)) (newLabels n) (newLabels n) := by
  induction n with
  | zero => exact restamps_pure []
  | succ n ih => exact restamps_newLabel.bind fun l => ih.bind fun ls => restamps_pure (l :: ls)

omit hσ in
theorem restamps_noteLabels (ls : List Label) :
    Restamps σ t id (noteLabels ls) (noteLabels (ls.map (Label.restamp σ))) := by
  induction ls with
  | nil => exact restamps_pure _
  | cons l ls ih => exact (restamps_note ht _).bind fun _ => ih

theorem restamps_openSwitch (cases : Nat) :
    Restamps σ t (List.map (Label.restamp σ)) (openSwitch cases) (openSwitch cases) :=
  restamps_newLabel.bind fun default => restamps_newLabel.bind fun finish =>
    (restamps_newLabels cases).bind fun ls => (restamps_note ht _).bind fun _ =>
      (restamps_noteLabels ht ls).bind fun _ => (restamps_note ht _).bind fun _ =>
        (restamps_jump hσ (.switch ls)).bind fun _ => (restamps_jumpTo hσ ht default).bind fun _ =>
          (restamps_openConstruct (.switch default finish false)).bind fun _ => restamps_pure ls

theorem restamps_openCase (l : Label) (name : String) :
    Restamps σ t id (openCase l name) (openCase (l.restamp σ) name) :=
  (restamps_note ht _).bind fun _ => restamps_markHere hσ ht l

theorem restamps_closeCase : Restamps σ t id closeCase closeCase :=
  restamps_currentSwitch.bind fun (_, finish, _) => (restamps_jumpTo hσ ht finish).bind fun _ =>
    restamps_note ht _

theorem restamps_openDefault : Restamps σ t id openDefault openDefault := by
  refine restamps_currentSwitch.bind fun (default, finish, _) => Restamps.bind (f := id)
    (restamps_modify (fun s => ?_) fun _ => Nat.le_refl _) fun _ => restamps_markHere hσ ht default
  have hdrop : (s.restamp σ).constructs.drop 1 = (s.constructs.drop 1).map (Construct.restamp σ) :=
    List.map_drop.symm
  exact congrArg (fun cs => (s.restamp σ).withConstructs
    (.switch (default.restamp σ) (finish.restamp σ) true :: cs)) hdrop

theorem restamps_closeSwitch : Restamps σ t id closeSwitch closeSwitch := by
  refine restamps_takeSwitch.bind fun (default, finish, given) => (restamps_note ht _).bind fun _ => ?_
  cases given with
  | true => exact restamps_markHere hσ ht finish
  | false =>
    exact (restamps_markHere hσ ht default).bind fun _ => restamps_markHere hσ ht finish

/-! ## Full text -/

theorem restamps_arrayText (T : Ty) {itemText : Emit Unit} (h : Restamps σ t id itemText itemText) :
    Restamps σ t id (arrayText T itemText) (arrayText T itemText) := by
  refine (restamps_newLocal ht _ _).bind fun array => (restamps_storeLocal ht array).bind fun _ =>
    (restamps_traced ht _ _ rfl).bind fun _ => (restamps_newLocal ht _ _).bind fun text =>
      (restamps_storeLocal ht text).bind fun _ => (restamps_newLocal ht _ _).bind fun i =>
        (restamps_openFor hσ ht (some i) _ _).bind fun _ => (restamps_loadLocal ht text).bind fun _ => ?_
  have hitem := ((Tandem.straight_restamped ht).loadItemOf
    (Operand.variable array).paired_tokenless (Operand.variable i).paired_tokenless).restamps
  exact hitem.bind fun _ => h.bind fun _ => (restamps_traced ht _ _ rfl).bind fun _ =>
    (restamps_call ht _).bind fun _ => (restamps_storeLocal ht text).bind fun _ =>
      (restamps_closeFor hσ ht).bind fun _ => (restamps_loadLocal ht text).bind fun _ =>
        (restamps_traced ht _ _ rfl).bind fun _ => restamps_call ht _

theorem restamps_referenceText {text : Emit Unit} (h : Restamps σ t id text text) :
    Restamps σ t id (referenceText text) (referenceText text) :=
  (restamps_traced ht _ _ rfl).bind fun _ => (restamps_traced ht _ _ rfl).bind fun _ =>
    (restamps_openIf hσ ht _).bind fun _ => (restamps_traced ht _ _ rfl).bind fun _ =>
      (restamps_traced ht _ _ rfl).bind fun _ => (restamps_openElse hσ ht).bind fun _ =>
        h.bind fun _ => restamps_closeIf hσ ht

theorem restamps_toFullText (T : Ty) : Restamps σ t id (toFullText T) (toFullText T) := by
  induction T using toFullText.induct with
  | case1 element ih => exact restamps_referenceText hσ ht (restamps_arrayText hσ ht _ ih)
  | case2 T hne hvalue =>
    rw [toFullText.eq_2 T hne, if_pos hvalue]
    exact (restamps_traced ht _ _ rfl).bind fun _ => restamps_call ht _
  | case3 T hne hvalue =>
    rw [toFullText.eq_2 T hne, if_neg hvalue]
    exact restamps_referenceText hσ ht (restamps_call ht _)

theorem restamps_showTop (T : Ty) : Restamps σ t id (showTop T) (showTop T) :=
  (restamps_traced ht _ _ rfl).bind fun _ => (restamps_toFullText hσ ht T).bind fun _ =>
    (restamps_newLocal ht _ _).bind fun top => (restamps_storeLocal ht top).bind fun _ =>
      (restamps_traced ht _ _ rfl).bind fun _ => (restamps_loadLocal ht top).bind fun _ =>
        (restamps_call ht _).bind fun _ => restamps_get fun s => restamps_call ht (Builtin.report s.sink)

end structured

end Emit

/-! ## The tracers of the levels -/

namespace Tracer

theorem restamps_silent : silent.Restamps σ where
  probe _ := Emit.restamps_pure (t := silent) (f := id) PUnit.unit
  accepts _ s _ := ⟨s, rfl⟩

/-- The tracer of every level shows values under other stamps as before. -/
theorem restamps_ofLevel (hσ : σ.Injective) (level : TraceDetail) : (ofLevel level).Restamps σ := by
  cases level with
  | off => exact restamps_silent
  | log =>
    exact
      { probe _ := Emit.restamps_pure (t := ofLevel .log) (f := id) PUnit.unit
        accepts _ s _ := ⟨s, rfl⟩ }
  | full =>
    exact
      { probe T := Emit.restamps_showTop hσ restamps_silent T
        accepts T s hs := by
          obtain ⟨s', hrun, -⟩ := Emit.run_showTop T hs
          exact ⟨s', hrun⟩ }

end Tracer

/-! ## Every operation -/

theorem Answer.Paired.restamp {a b : Answer} (h : a.Paired .tokenless b) : b = a.restamp σ := by
  cases h with
  | done => rfl
  | argument a => rfl
  | «variable» h => exact congrArg Answer.variable (h.mono Pairing.tokenless_le_same).eq
  | label h => exact h.2.elim
  | labels h =>
    cases h with
    | nil => rfl
    | cons h _ => exact h.2.elim
  | loop h => exact h.2.elim
  | type t => rfl

namespace Operation

variable (hσ : σ.Injective) (ht : t.Restamps σ)

theorem restamps_done {e e' : Emit Unit} (h : Emit.Restamps σ t id e e') :
    Emit.Restamps σ t (Answer.restamp σ) (perform.done e) (perform.done e') :=
  h.bind fun _ => Emit.restamps_pure Answer.done

include hσ ht

/-- **Every operation** does the same under other stamps. -/
theorem restamps_perform (o : Operation) :
    Emit.Restamps σ t (Answer.restamp σ) o.perform (o.rename (.restamp σ)).perform := by
  by_cases ho : o.isStraight
  · have hpaired : (Renaming.restamp σ).Paired .tokenless o (.restamp σ) :=
      { locals := fun l _ => l.paired_tokenless
        labels := fun l hl => by
          cases o <;> first | exact absurd ho Bool.false_ne_true | exact absurd hl List.not_mem_nil
        loops := fun h hh => by
          cases o <;> first | exact absurd ho Bool.false_ne_true | exact absurd hh List.not_mem_nil }
    have hstep := (Tandem.straight_restamped ht).perform ho hpaired
    rw [rename_restamp ho] at hstep ⊢
    exact hstep.restamps fun _ _ => Answer.Paired.restamp
  cases o with
  | newLabel => exact Emit.restamps_newLabel.map fun _ => rfl
  | markHere l => exact restamps_done (Emit.restamps_markHere hσ ht l)
  | jumpTo l => exact restamps_done (Emit.restamps_jumpTo hσ ht l)
  | jumpIfTrue l => exact restamps_done (Emit.restamps_jumpIfTrue hσ ht l)
  | jumpIfFalse l => exact restamps_done (Emit.restamps_jumpIfFalse hσ ht l)
  | jumpIfLess l => exact restamps_done (Emit.restamps_jumpIfLess hσ ht l)
  | jumpIfGreater l => exact restamps_done (Emit.restamps_noteJump hσ ht _ (.compare .greaterThan l))
  | jumpIfLessOrEqual l =>
    exact restamps_done (Emit.restamps_noteJump hσ ht _ (.compare .lessThanOrEqualTo l))
  | toFullText T => exact restamps_done (Emit.restamps_toFullText hσ ht T)
  | openIfTrue => exact restamps_done (Emit.restamps_openIfTrue hσ ht)
  | openIfFalse => exact restamps_done (Emit.restamps_openIfFalse hσ ht)
  | openIf c => exact restamps_done (Emit.restamps_openIf hσ ht c)
  | openIfCompared a c b =>
    rw [rename, a.rename_restamp, b.rename_restamp]
    exact restamps_done (Emit.restamps_openIfCompared hσ ht a c b)
  | openElse => exact restamps_done (Emit.restamps_openElse hσ ht)
  | openElseIf a c b =>
    rw [rename, a.rename_restamp, b.rename_restamp]
    exact restamps_done (Emit.restamps_openElseIf hσ ht a c b)
  | closeIf => exact restamps_done (Emit.restamps_closeIf hσ ht)
  | openIfNotZero o =>
    rw [rename, o.rename_restamp]
    exact restamps_done (Emit.restamps_openIfNotZero hσ ht o)
  | openIfNotEmpty l => exact restamps_done (Emit.restamps_openIfNotEmpty hσ ht l)
  | openElseIfEmpty l => exact restamps_done (Emit.restamps_openElseIfEmpty hσ ht l)
  | openFor index start bound =>
    have hindex : index.map (Renaming.restamp σ).locals = index := by cases index <;> rfl
    rw [rename, hindex, start.rename_restamp, bound.rename_restamp]
    exact (Emit.restamps_openFor hσ ht index start bound).map fun _ => rfl
  | closeFor => exact restamps_done (Emit.restamps_closeFor hσ ht)
  | openEach l element enumerator m => exact (Emit.restamps_openEach hσ ht l element enumerator m).map fun _ => rfl
  | closeEach m => exact restamps_done (Emit.restamps_closeEach hσ ht m)
  | leave h => exact restamps_done (Emit.restamps_leave hσ ht h)
  | leaveIfTrue h => exact restamps_done (Emit.restamps_leaveIfTrue hσ ht h)
  | leaveIfFalse h => exact restamps_done (Emit.restamps_leaveIfFalse hσ ht h)
  | openSwitch n => exact (Emit.restamps_openSwitch hσ ht n).map fun _ => rfl
  | openCase l name => exact restamps_done (Emit.restamps_openCase hσ ht l name)
  | closeCase => exact restamps_done (Emit.restamps_closeCase hσ ht)
  | openDefault => exact restamps_done (Emit.restamps_openDefault hσ ht)
  | closeSwitch => exact restamps_done (Emit.restamps_closeSwitch hσ ht)
  | openWhile => exact restamps_done (Emit.restamps_openWhile hσ ht)
  | openWhileBody c => exact restamps_done (Emit.restamps_openWhileBody hσ ht c)
  | closeWhile => exact restamps_done (Emit.restamps_closeWhile hσ ht)
  | _ => exact absurd rfl ho

end Operation

end Stackwright
