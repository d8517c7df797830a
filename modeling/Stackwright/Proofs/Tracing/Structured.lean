import Stackwright.Proofs.Emission.Names
import Stackwright.Proofs.Tracing.Tandem

/-! # Structured calls in tandem

What a tandem needs besides for its sessions to stay together in calls that define, mark and jump to
labels and in the structured constructs, and then in **every operation**: operations that name what
belongs together agree, and so do their answers.

* **`Tandem.Structured T`** — the relation is closed under what structured calls do.
* **`Tandem.Structured.perform`** — every operation is in step with itself under other names. -/

namespace Stackwright

/-! ## Renamings and answers -/

/-- Two renamings put in place of what an operation names what belongs together. -/
structure Renaming.Paired (g : Pairing) (o : Operation) (ρ ρ' : Renaming) : Prop where
  /-- The locals do. -/
  locals : ∀ l ∈ o.locals, (ρ.locals l).Paired g (ρ'.locals l)
  /-- The labels do. -/
  labels : ∀ l ∈ o.handed, (ρ.labels l).Paired g (ρ'.labels l)
  /-- The loops do. -/
  loops : ∀ h ∈ o.loops, (ρ.loops h).Paired g (ρ'.loops h)

/-- Answers that belong together. -/
inductive Answer.Paired (g : Pairing) : Answer → Answer → Prop
  | done : Paired g .done .done
  | argument (a : Argument) : Paired g (.argument a) (.argument a)
  | variable {l l' : Local} (h : l.Paired g l') : Paired g (.variable l) (.variable l')
  | label {l l' : Label} (h : l.Paired g l') : Paired g (.label l) (.label l')
  | labels {ls ls' : List Label} (h : List.Forall₂ (Label.Paired g) ls ls') :
      Paired g (.labels ls) (.labels ls')
  | loop {k k' : LoopHandle} (h : k.Paired g k') : Paired g (.loop k) (.loop k')
  | type (t : Ty) : Paired g (.type t) (.type t)

section names

variable {g : Pairing} {ρ ρ' : Renaming}

theorem Operand.paired_rename {o : Operand}
    (h : ∀ l ∈ o.locals, (ρ.locals l).Paired g (ρ'.locals l)) :
    (o.rename ρ).Paired g (o.rename ρ') := by
  cases o with
  | constant c => exact .constant c
  | argument a => exact .argument a
  | «variable» l => exact .variable (h l List.mem_cons_self)

theorem Operand.paired_map_rename {os : List Operand}
    (h : ∀ l ∈ os.flatMap Operand.locals, (ρ.locals l).Paired g (ρ'.locals l)) :
    List.Forall₂ (Operand.Paired g) (os.map (Operand.rename ρ)) (os.map (Operand.rename ρ')) := by
  rw [List.forall₂_map_left_iff, List.forall₂_map_right_iff, List.forall₂_same]
  exact fun o ho => paired_rename fun l hl => h l (List.mem_flatMap.2 ⟨o, ho, hl⟩)

end names

/-- Lists that are related have related heads. -/
theorem optionRel_head? {α β : Type} {R : α → β → Prop} {xs : List α} {ys : List β}
    (h : List.Forall₂ R xs ys) : Option.Rel R xs.head? ys.head? := by
  cases h with
  | nil => exact .none
  | cons hxy _ => exact .some hxy

/-! ## Constructs that belong together -/

namespace Construct

variable {g : Pairing} {c c' : Construct} {cs cs' : List Construct} {h h' : LoopHandle}

/-- Constructs that belong together are the loops of handles that do. -/
theorem Paired.isLoop (hc : c.Paired g c')
    (heq : ∀ k k' : LoopHandle, k.Paired g k' → (k = h ↔ k' = h')) : c'.isLoop h' = c.isLoop h := by
  cases hc with
  | counted hs => simpa [Construct.isLoop, Construct.loop?] using (heq _ _ hs.handle).symm
  | enumerated hs => simpa [Construct.isLoop, Construct.loop?] using (heq _ _ hs.handle).symm
  | _ => rfl

theorem Paired.loop? (hc : c.Paired g c') : Option.Rel (LoopState.Paired g) c.loop? c'.loop? := by
  cases hc with
  | counted hs => exact .some hs
  | enumerated hs => exact .some hs
  | _ => exact .none

/-- The innermost loops of handles that belong together do. -/
theorem paired_findLoop? (hcs : List.Forall₂ (Construct.Paired g) cs cs')
    (heq : ∀ k k' : LoopHandle, k.Paired g k' → (k = h ↔ k' = h')) :
    Option.Rel (LoopState.Paired g) (findLoop? cs h) (findLoop? cs' h') := by
  induction hcs with
  | nil => exact .none
  | @cons c c' cs cs' hc _ ih =>
    have hloop := hc.isLoop heq
    unfold findLoop? at ih ⊢
    rw [List.find?_cons, List.find?_cons, hloop]
    cases c.isLoop h with
    | true => exact hc.loop?
    | false => exact ih

theorem Paired.withExit (hc : c.Paired g c') {l l' : Label} (hl : l.Paired g l') :
    (c.withExit l).Paired g (c'.withExit l') := by
  cases hc with
  | counted hs => exact .counted { hs with exit := .some hl }
  | enumerated hs => exact .enumerated { hs with exit := .some hl }
  | conditional ho hf => exact .conditional ho hf
  | switch given hd hf => exact .switch given hd hf
  | whileLoop hw => exact .whileLoop hw

theorem paired_setExit (hcs : List.Forall₂ (Construct.Paired g) cs cs')
    (heq : ∀ k k' : LoopHandle, k.Paired g k' → (k = h ↔ k' = h')) {l l' : Label}
    (hl : l.Paired g l') :
    List.Forall₂ (Construct.Paired g) (setExit h l cs) (setExit h' l' cs') := by
  induction hcs with
  | nil => exact .nil
  | @cons c c' cs cs' hc hcs ih =>
    rw [setExit, setExit, hc.isLoop heq]
    split
    · exact .cons (hc.withExit hl) hcs
    · exact .cons hc ih

end Construct

namespace Tandem

variable {α β : Type} {T : Tandem} {g g' : Pairing} {s s' : Session}

/-- A tandem whose sessions stay together in whatever a **structured** call does. -/
structure Structured (T : Tandem) : Prop extends Straight T where
  /-- The sessions have one number. -/
  session : ∀ {g s s'}, T.sessions g s s' → s'.labels.session = s.labels.session
  /-- Different labels belong to different ones. -/
  labels : ∀ {g s s'}, T.sessions g s s' → ∀ {l l' m m' : Label}, l.Paired g l' → m.Paired g m' →
    (l = m ↔ l' = m')
  /-- Different loops belong to different ones. -/
  loops : ∀ {g s s'}, T.sessions g s s' → ∀ {h h' k k' : LoopHandle}, h.Paired g h' →
    k.Paired g k' → (h = k ↔ h' = k')
  /-- A label is known where the one that belongs to it is. -/
  known : ∀ {g s s'}, T.sessions g s s' → ∀ {l l' : Label}, l.Paired g l' →
    (s.labels.Known l ↔ s'.labels.Known l')
  /-- A label is marked where the one that belongs to it is. -/
  marked : ∀ {g s s'}, T.sessions g s s' → ∀ {l l' : Label}, l.Paired g l' →
    (s.labels.Marked l ↔ s'.labels.Marked l')
  /-- Texts with labels that belong together do. -/
  labelled : ∀ {g} {l l' : Label}, l.Paired g l' →
    ∀ x y, T.texts g (x ++ l.text ++ y) (x ++ l'.text ++ y)
  /-- A label is defined. -/
  defined : ∀ {g s s'}, T.sessions g s s' → ∃ g', g ≤ g' ∧
    g'.labels s.labels.entries.size s'.labels.entries.size ∧ T.sessions g' s.defined s'.defined
  /-- A jump is recorded. -/
  jumped : ∀ {g s s'}, T.sessions g s s' → ∀ {j j' : Jump Label}, j.Paired g j' →
    (∀ l ∈ j.targets, s.labels.Known l) → (∀ l ∈ j'.targets, s'.labels.Known l) →
    T.sessions g (s.jumped j) (s'.jumped j')
  /-- A label is marked. -/
  markedHere : ∀ {g s s'}, T.sessions g s s' → ∀ {l l' : Label}, l.Paired g l' →
    s.labels.Known l → ¬ s.labels.Marked l → T.sessions g (s.markedHere l) (s'.markedHere l')
  /-- The open constructs belong together. -/
  constructs : ∀ {g s s'}, T.sessions g s s' →
    List.Forall₂ (Construct.Paired g) s.constructs s'.constructs
  /-- Constructs are opened and closed. -/
  withConstructs : ∀ {g s s'}, T.sessions g s s' → ∀ {cs cs'},
    List.Forall₂ (Construct.Paired g) cs cs' →
    T.sessions g (s.withConstructs cs) (s'.withConstructs cs')
  /-- A loop is numbered. -/
  numbered : ∀ {g s s'}, T.sessions g s s' → ∃ g', g ≤ g' ∧
    g'.loops s.nextLoop s'.nextLoop ∧ T.sessions g' s.numbered s'.numbered

namespace Structured

variable (hT : T.Structured)

include hT

/-! ### Labels -/

theorem newLabel : T.InStep g Emit.newLabel Emit.newLabel Label.Paired := by
  intro g₁ _ s s' hs
  obtain ⟨g', hle, hlabels, hs'⟩ := hT.defined hs
  exact .of_ok (Emit.run_newLabel _ s) (Emit.run_newLabel _ s') hle hs' ⟨hT.session hs, hlabels⟩

/-- A label behind some text, in a line. -/
theorem noteLabel {l l' : Label} (h : l.Paired g l') (x : String) :
    T.Keeps g (Emit.note (x ++ l.text)) (Emit.note (x ++ l'.text)) := by
  have htext := hT.labelled h ("    " ++ x) ""
  rw [String.append_empty, String.append_empty, String.append_assoc, String.append_assoc] at htext
  exact hT.line htext

/-- Targets are known to both sessions, or the first one that is not is the same. -/
theorem checkKnown {ls ls' : List Label} (hs : T.sessions g s s')
    (h : List.Forall₂ (Label.Paired g) ls ls') :
    ((∀ l ∈ ls, s.labels.Known l) ∧ ∀ l ∈ ls', s'.labels.Known l) ∨
      ∃ l l', l.Paired g l' ∧ s.labels.checkKnown ls = .error (.unknownLabel l) ∧
        s'.labels.checkKnown ls' = .error (.unknownLabel l') := by
  induction h with
  | nil => exact .inl ⟨fun _ hl => absurd hl List.not_mem_nil, fun _ hl => absurd hl List.not_mem_nil⟩
  | @cons l l' ls ls' hl _ ih =>
    by_cases hk : s.labels.Known l
    · have hk' := (hT.known hs hl).1 hk
      rw [Marks.checkKnown_cons hk, Marks.checkKnown_cons hk']
      exact ih.imp_left fun h =>
        ⟨List.forall_mem_cons.2 ⟨hk, h.1⟩, List.forall_mem_cons.2 ⟨hk', h.2⟩⟩
    · have hk' := mt (hT.known hs hl).2 hk
      exact .inr ⟨l, l', hl, Marks.checkKnown_cons_unknown hk, Marks.checkKnown_cons_unknown hk'⟩

theorem jump {j j' : Jump Label} (h : j.Paired g j') : T.Keeps g (Emit.jump j) (Emit.jump j') := by
  intro g₁ hle s s' hs
  have hj := h.mono hle
  rcases hT.checkKnown hs hj.targets with ⟨hk, hk'⟩ | ⟨l, l', hl, he, he'⟩
  · exact .of_ok (Emit.run_jump _ s (Marks.checkKnown_eq_ok.2 hk))
      (Emit.run_jump _ s' (Marks.checkKnown_eq_ok.2 hk')) le_rfl (hT.jumped hs hj hk hk') trivial
  · rw [Emit.run_jump_unknown _ s he, Emit.run_jump_unknown _ s' he']
    exact .error le_rfl hs (.unknownLabel hl)

theorem markHere {l l' : Label} (h : l.Paired g l') :
    T.Keeps g (Emit.markHere l) (Emit.markHere l') := by
  intro g₁ hle s s' hs
  have hl := h.mono hle
  by_cases hk : s.labels.Known l
  · have hk' := (hT.known hs hl).1 hk
    by_cases hm : s.labels.Marked l
    · have hm' := (hT.marked hs hl).1 hm
      rw [Emit.run_markHere_error _ s (Marks.checkUnmarked_of_marked hm),
        Emit.run_markHere_error _ s' (Marks.checkUnmarked_of_marked hm')]
      exact .error le_rfl hs (.labelAlreadyMarked hl)
    · have hm' := mt (hT.marked hs hl).2 hm
      have htext := hT.labelled hl "" ":"
      rw [String.empty_append, String.empty_append] at htext
      exact .of_ok (Emit.run_markHere _ s (Marks.checkUnmarked_eq_ok.2 ⟨hk, hm⟩))
        (Emit.run_markHere _ s' (Marks.checkUnmarked_eq_ok.2 ⟨hk', hm'⟩)) le_rfl
        (hT.written (hT.markedHere hs hl hk hm) htext) trivial
  · have hk' := mt (hT.known hs hl).2 hk
    rw [Emit.run_markHere_error _ s (Marks.checkUnmarked_of_unknown hk),
      Emit.run_markHere_error _ s' (Marks.checkUnmarked_of_unknown hk')]
    exact .error le_rfl hs (.unknownLabel hl)

/-! ### Branches -/

theorem jumpTo {l l' : Label} (h : l.Paired g l') : T.Keeps g (Emit.jumpTo l) (Emit.jumpTo l') :=
  (hT.noteLabel h _).seq fun _ _ => hT.jump (.always h)

theorem jumpIfTrue {l l' : Label} (h : l.Paired g l') :
    T.Keeps g (Emit.jumpIfTrue l) (Emit.jumpIfTrue l') :=
  (hT.noteLabel h _).seq fun _ _ => hT.jump (.ifTrue h)

theorem jumpIfFalse {l l' : Label} (h : l.Paired g l') :
    T.Keeps g (Emit.jumpIfFalse l) (Emit.jumpIfFalse l') :=
  (hT.noteLabel h _).seq fun _ _ => hT.jump (.ifFalse h)

theorem jumpIfLess {l l' : Label} (h : l.Paired g l') :
    T.Keeps g (Emit.jumpIfLess l) (Emit.jumpIfLess l') :=
  (hT.noteLabel h _).seq fun _ _ => hT.jump (.compare _ h)

theorem jumpIfGreater {l l' : Label} (h : l.Paired g l') :
    T.Keeps g (Emit.jumpIfGreater l) (Emit.jumpIfGreater l') :=
  (hT.noteLabel h _).seq fun _ _ => hT.jump (.compare _ h)

theorem jumpIfLessOrEqual {l l' : Label} (h : l.Paired g l') :
    T.Keeps g (Emit.jumpIfLessOrEqual l) (Emit.jumpIfLessOrEqual l') :=
  (hT.noteLabel h _).seq fun _ _ => hT.jump (.compare _ h)

theorem jumpUnless (c : Comparison) :
    T.InStep g (Emit.jumpUnless c) (Emit.jumpUnless c) Label.Paired :=
  hT.newLabel.bind fun _ _ _ _ hl => (hT.noteLabel hl _).seq fun _ _ =>
    (hT.jump (.compare _ hl)).seq fun _ _ => inStep_pure fun _ hle => hl.mono hle

/-! ### Constructs -/

theorem openConstruct {c c' : Construct} (h : c.Paired g c') :
    T.Keeps g (Emit.openConstruct c) (Emit.openConstruct c') :=
  fun _ hle s s' hs => .of_ok (Emit.run_openConstruct _ s c) (Emit.run_openConstruct _ s' c') le_rfl
    (hT.withConstructs hs (.cons (h.mono hle) (hT.constructs hs))) trivial

theorem takeInnermost :
    T.InStep g Emit.takeInnermost Emit.takeInnermost fun g => Option.Rel (Construct.Paired g) := by
  intro g₁ _ s s' hs
  have hcs := hT.constructs hs
  exact .of_ok (Emit.run_takeInnermost _ s) (Emit.run_takeInnermost _ s') le_rfl
    (hT.withConstructs hs (List.forall₂_drop 1 hcs)) (optionRel_head? hcs)

omit hT in
theorem refuseInnermost {Q : Pairing → α → β → Prop} (k : ConstructKind) {c c' : Option Construct}
    (h : Option.Rel (Construct.Paired g) c c') :
    T.InStep g (Emit.refuseInnermost k c) (Emit.refuseInnermost k c') Q := by
  have hkind : c'.map Construct.kind = c.map Construct.kind := by
    cases h with
    | none => rfl
    | some hc => exact congrArg some hc.kind
  unfold Emit.refuseInnermost
  rw [hkind]
  exact inStep_refuse (.other rfl)

theorem takeConditional :
    T.InStep g Emit.takeConditional Emit.takeConditional
      fun g p p' => p.1.Paired g p'.1 ∧ p.2.Paired g p'.2 := by
  refine hT.takeInnermost.bind fun g' _ c c' hc => ?_
  cases hc with
  | none => exact refuseInnermost _ .none
  | some hc =>
    cases hc with
    | conditional ho hf => exact inStep_pure fun _ hle => ⟨ho.mono hle, hf.mono hle⟩
    | counted h => exact refuseInnermost _ (.some (.counted h))
    | enumerated h => exact refuseInnermost _ (.some (.enumerated h))
    | switch given hd hf => exact refuseInnermost _ (.some (.switch given hd hf))
    | whileLoop h => exact refuseInnermost _ (.some (.whileLoop h))

theorem takeCounted : T.InStep g Emit.takeCounted Emit.takeCounted LoopState.Paired := by
  refine hT.takeInnermost.bind fun g' _ c c' hc => ?_
  cases hc with
  | none => exact refuseInnermost _ .none
  | some hc =>
    cases hc with
    | conditional ho hf => exact refuseInnermost _ (.some (.conditional ho hf))
    | counted h => exact inStep_pure fun _ hle => h.mono hle
    | enumerated h => exact refuseInnermost _ (.some (.enumerated h))
    | switch given hd hf => exact refuseInnermost _ (.some (.switch given hd hf))
    | whileLoop h => exact refuseInnermost _ (.some (.whileLoop h))

theorem takeEnumerated : T.InStep g Emit.takeEnumerated Emit.takeEnumerated LoopState.Paired := by
  refine hT.takeInnermost.bind fun g' _ c c' hc => ?_
  cases hc with
  | none => exact refuseInnermost _ .none
  | some hc =>
    cases hc with
    | conditional ho hf => exact refuseInnermost _ (.some (.conditional ho hf))
    | counted h => exact refuseInnermost _ (.some (.counted h))
    | enumerated h => exact inStep_pure fun _ hle => h.mono hle
    | switch given hd hf => exact refuseInnermost _ (.some (.switch given hd hf))
    | whileLoop h => exact refuseInnermost _ (.some (.whileLoop h))

theorem takeSwitch :
    T.InStep g Emit.takeSwitch Emit.takeSwitch
      fun g p p' => p.1.Paired g p'.1 ∧ p.2.1.Paired g p'.2.1 ∧ p'.2.2 = p.2.2 := by
  refine hT.takeInnermost.bind fun g' _ c c' hc => ?_
  cases hc with
  | none => exact refuseInnermost _ .none
  | some hc =>
    cases hc with
    | conditional ho hf => exact refuseInnermost _ (.some (.conditional ho hf))
    | counted h => exact refuseInnermost _ (.some (.counted h))
    | enumerated h => exact refuseInnermost _ (.some (.enumerated h))
    | switch given hd hf => exact inStep_pure fun _ hle => ⟨hd.mono hle, hf.mono hle, rfl⟩
    | whileLoop h => exact refuseInnermost _ (.some (.whileLoop h))

theorem takeWhileHead : T.InStep g Emit.takeWhileHead Emit.takeWhileHead Label.Paired := by
  refine hT.takeInnermost.bind fun g' _ c c' hc => ?_
  cases hc with
  | none => exact refuseInnermost _ .none
  | some hc =>
    cases hc with
    | conditional ho hf => exact refuseInnermost _ (.some (.conditional ho hf))
    | counted h => exact refuseInnermost _ (.some (.counted h))
    | enumerated h => exact refuseInnermost _ (.some (.enumerated h))
    | switch given hd hf => exact refuseInnermost _ (.some (.switch given hd hf))
    | whileLoop h => exact inStep_pure fun _ hle => h.mono hle

theorem currentSwitch :
    T.InStep g Emit.currentSwitch Emit.currentSwitch
      fun g p p' => p.1.Paired g p'.1 ∧ p.2.1.Paired g p'.2.1 ∧ p'.2.2 = p.2.2 := by
  refine inStep_get.bind fun g' _ s s' hs => ?_
  generalize s.constructs = cs, s'.constructs = cs', hT.constructs hs = hcs
  cases hcs with
  | nil => exact refuseInnermost _ .none
  | cons hc _ =>
    cases hc with
    | conditional ho hf => exact refuseInnermost _ (.some (.conditional ho hf))
    | counted h => exact refuseInnermost _ (.some (.counted h))
    | enumerated h => exact refuseInnermost _ (.some (.enumerated h))
    | switch given hd hf => exact inStep_pure fun _ hle => ⟨hd.mono hle, hf.mono hle, rfl⟩
    | whileLoop h => exact refuseInnermost _ (.some (.whileLoop h))

/-! ### Conditionals -/

theorem openIfTrue : T.Keeps g Emit.openIfTrue Emit.openIfTrue :=
  hT.newLabel.bind fun _ _ _ _ hf => hT.newLabel.bind fun _ hle _ _ ho =>
    (hT.jumpIfFalse ho).seq fun _ _ => hT.openConstruct (.conditional ho (hf.mono hle))

theorem openIfFalse : T.Keeps g Emit.openIfFalse Emit.openIfFalse :=
  hT.newLabel.bind fun _ _ _ _ hf => hT.newLabel.bind fun _ hle _ _ ho =>
    (hT.jumpIfTrue ho).seq fun _ _ => hT.openConstruct (.conditional ho (hf.mono hle))

theorem openIf (c : Comparison) : T.Keeps g (Emit.openIf c) (Emit.openIf c) :=
  hT.newLabel.bind fun _ _ _ _ hf => (hT.jumpUnless c).bind fun _ hle _ _ ho =>
    hT.openConstruct (.conditional ho (hf.mono hle))

theorem openIfCompared {a a' b b' : Operand} (ha : a.Paired g a') (c : Comparison)
    (hb : b.Paired g b') : T.Keeps g (Emit.openIfCompared a c b) (Emit.openIfCompared a' c b') :=
  (hT.load ha).seq fun _ _ => (hT.load hb).seq fun _ _ => hT.openIf c

theorem openIfNotZero {o o' : Operand} (h : o.Paired g o') :
    T.Keeps g (Emit.openIfNotZero o) (Emit.openIfNotZero o') := by
  unfold Emit.openIfNotZero
  rw [h.type]
  dsimp only
  split
  · exact (hT.loadZero _).seq fun _ _ => (hT.convertTop _ _).seq fun _ _ => (hT.load h).seq fun _ _ =>
      (hT.convertTop _ _).seq fun _ _ => (hT.call _).seq fun _ _ => hT.openIfFalse
  · exact (hT.loadZero _).seq fun _ _ => (hT.load h).seq fun _ _ => hT.openIf _

theorem loadTextLength {l l' : Local} (h : l.Paired g l') :
    T.Keeps g (Emit.loadTextLength l) (Emit.loadTextLength l') :=
  (hT.loadLocal h).seq fun _ _ => (hT.call _).seq fun _ _ => hT.loadInt 0

theorem openIfNotEmpty {l l' : Local} (h : l.Paired g l') :
    T.Keeps g (Emit.openIfNotEmpty l) (Emit.openIfNotEmpty l') :=
  (hT.loadTextLength h).seq fun _ _ => hT.openIf _

theorem nextAlternative : T.InStep g Emit.nextAlternative Emit.nextAlternative Label.Paired :=
  hT.takeConditional.bind fun _ _ _ _ hp => (hT.jumpTo hp.2).seq fun _ _ =>
    (hT.markHere hp.1).seq fun _ _ => inStep_pure fun _ hle => hp.2.mono hle

theorem openElse : T.Keeps g Emit.openElse Emit.openElse :=
  hT.nextAlternative.bind fun _ _ _ _ hf => hT.openConstruct (.conditional hf hf)

theorem openElseIf {a a' b b' : Operand} (ha : a.Paired g a') (c : Comparison)
    (hb : b.Paired g b') : T.Keeps g (Emit.openElseIf a c b) (Emit.openElseIf a' c b') :=
  hT.nextAlternative.bind fun _ hle _ _ hf => (hT.load (ha.mono hle)).seq fun _ _ =>
    (hT.load (hb.mono hle)).seq fun _ _ => (hT.jumpUnless c).bind fun _ hle' _ _ ho =>
      hT.openConstruct (.conditional ho (hf.mono hle'))

theorem openElseIfEmpty {l l' : Local} (h : l.Paired g l') :
    T.Keeps g (Emit.openElseIfEmpty l) (Emit.openElseIfEmpty l') :=
  hT.nextAlternative.bind fun _ hle _ _ hf => (hT.loadTextLength (h.mono hle)).seq fun _ _ =>
    (hT.jumpUnless _).bind fun _ hle' _ _ ho => hT.openConstruct (.conditional ho (hf.mono hle'))

/-- The labels of a conditional are one label for both sessions or for neither. -/
theorem closeIf : T.Keeps g Emit.closeIf Emit.closeIf := by
  refine hT.takeConditional.bind fun g' _ p p' hp => ?_
  intro g₁ hle s s' hs
  have heq := hT.labels hs (hp.1.mono hle) (hp.2.mono hle)
  have hfinish := (hT.markHere hp.2).later hle
  dsimp only
  by_cases hsame : p.1 = p.2
  · rw [if_pos hsame, if_pos (heq.1 hsame)]
    exact hfinish g₁ le_rfl s s' hs
  · rw [if_neg hsame, if_neg (mt heq.2 hsame)]
    exact Keeps.seq ((hT.markHere hp.1).later hle) (fun _ _ => hfinish) g₁ le_rfl s s' hs

/-! ### Loops -/

theorem newLoop {l l' : Option Local} {o o' : Operand} (hl : Option.Rel (Local.Paired g) l l')
    (ho : o.Paired g o') : T.InStep g (Emit.newLoop l o) (Emit.newLoop l' o') LoopState.Paired := by
  intro g₁ hle s s' hs
  obtain ⟨g₂, hle₂, hloops, hs₂⟩ := hT.numbered hs
  obtain ⟨g₃, hle₃, hbody, hs₃⟩ := hT.defined hs₂
  obtain ⟨g₄, hle₄, htest, hs₄⟩ := hT.defined hs₃
  have hsession := hT.session hs
  have hnumber : ∀ {k : LoopHandle} {k' : LoopHandle}, k.Paired g₂ k' → k.Paired g₄ k' := fun h =>
    h.mono (hle₃.trans hle₄)
  refine .of_ok (Emit.run_newLoop _ s l o) (Emit.run_newLoop _ s' l' o') (hle₂.trans (hle₃.trans hle₄))
    hs₄ ?_
  have hlast : g ≤ g₄ := hle.trans (hle₂.trans (hle₃.trans hle₄))
  exact {
    handle := hnumber ⟨hsession, hloops⟩
    slot := optionRel_imp (fun _ _ h => h.mono hlast) hl
    body := ⟨hsession, hle₄.labels _ _ hbody⟩
    test := ⟨hsession, htest⟩
    exit := .none
    bound := ho.mono hlast }

theorem openFor {l l' : Option Local} {a a' b b' : Operand} (hl : Option.Rel (Local.Paired g) l l')
    (ha : a.Paired g a') (hb : b.Paired g b') :
    T.InStep g (Emit.openFor l a b) (Emit.openFor l' a' b') LoopHandle.Paired := by
  refine (hT.newLoop hl hb).bind fun g' hle k k' hk => ?_
  have hrest : T.InStep g' (do
        Emit.markHere k.body
        Emit.openConstruct (.counted k)
        pure k.handle)
      (do
        Emit.markHere k'.body
        Emit.openConstruct (.counted k')
        pure k'.handle) LoopHandle.Paired :=
    (hT.markHere hk.body).seq fun _ _ => (hT.openConstruct (.counted hk)).seq fun _ _ =>
      inStep_pure fun _ hle => hk.handle.mono hle
  cases hl with
  | none => exact hrest
  | some hl =>
    exact (hT.load (ha.mono hle)).seq fun _ _ => (hT.storeLocal (hl.mono hle)).seq fun _ _ =>
      (hT.jumpTo hk.test).seq fun _ _ => hrest

theorem markExit {k k' : LoopState} (h : k.Paired g k') :
    T.Keeps g (Emit.markExit k) (Emit.markExit k') := by
  unfold Emit.markExit
  generalize k.exit = l, k'.exit = l', h.exit = hexit
  cases hexit with
  | none => exact keeps_pure _ _
  | some hl => exact hT.markHere hl

theorem closeFor : T.Keeps g Emit.closeFor Emit.closeFor := by
  refine hT.takeCounted.bind fun g' _ k k' hk => ?_
  have hback : T.Keeps g' (do Emit.jumpIfLess k.body; Emit.markExit k)
      (do Emit.jumpIfLess k'.body; Emit.markExit k') :=
    (hT.jumpIfLess hk.body).seq fun _ _ => hT.markExit hk
  dsimp only
  rw [hk.bound.type]
  generalize k.slot = l, k'.slot = l', hk.slot = hslot
  cases hslot with
  | none => exact (hT.jumpTo hk.body).seq fun _ _ => hT.markExit hk
  | some hl =>
    refine (hT.loadLocal hl).seq fun _ _ => (hT.loadInt 1).seq fun _ _ =>
      (hT.traced _ _ rfl).seq fun _ _ => (hT.storeLocal hl).seq fun _ _ =>
        (hT.markHere hk.test).seq fun _ _ => (hT.loadLocal hl).seq fun _ _ =>
          (hT.load hk.bound).seq fun _ _ => ?_
    split
    · exact hT.loadLength.seq fun _ _ => hback
    · exact hback

theorem openEach {l l' e e' : Local} (hl : l.Paired g l') (t : Ty) (he : e.Paired g e')
    (m : Method) :
    T.InStep g (Emit.openEach l t e m) (Emit.openEach l' t e' m) LoopHandle.Paired := by
  refine (hT.newLoop (.some hl) (.variable he)).bind fun g' hle k k' hk => ?_
  refine (hT.jumpTo hk.test).seq fun _ _ => (hT.markHere hk.body).seq fun _ _ =>
    (hT.callWith m (.some hk.bound) .nil).seq fun _ _ => ?_
  rw [hl.1]
  exact (hT.convertTop _ _).seq fun _ _ => (hT.storeLocal (hl.mono hle)).seq fun _ _ =>
    (hT.openConstruct (.enumerated hk)).seq fun _ _ => inStep_pure fun _ hle => hk.handle.mono hle

theorem closeEach (m : Method) : T.Keeps g (Emit.closeEach m) (Emit.closeEach m) :=
  hT.takeEnumerated.bind fun _ _ _ _ hk => (hT.markHere hk.test).seq fun _ _ =>
    (hT.callWith m (.some hk.bound) .nil).seq fun _ _ => (hT.jumpIfTrue hk.body).seq fun _ _ =>
      hT.markExit hk

/-- The labels behind loops that belong together do, whether or not they were defined before. -/
theorem exitOf {h h' : LoopHandle} (hh : h.Paired g h') :
    T.InStep g (Emit.exitOf h) (Emit.exitOf h') Label.Paired := by
  refine inStep_get.bind fun g₁ hle₁ s s' hs => ?_
  have hcs := hT.constructs hs
  have heq : ∀ k k' : LoopHandle, k.Paired g₁ k' → (k = h ↔ k' = h') := fun k k' hk =>
    hT.loops hs hk (hh.mono hle₁)
  dsimp only
  -- the two find paired loops, or none
  generalize Construct.findLoop? s.constructs h = k, Construct.findLoop? s'.constructs h' = k',
    Construct.paired_findLoop? hcs heq = hfind
  cases hfind with
  | none => exact refuseInnermost _ (optionRel_head? hcs)
  | @some k k' hk =>
    dsimp only
    generalize k.exit = l, k'.exit = l', hk.exit = hexit
    cases hexit with
    | some hl => exact inStep_pure fun _ hle => hl.mono hle
    | none =>
      refine hT.newLabel.bind fun g₂ hle₂ l l' hl => Keeps.seq ?_ fun _ _ =>
        inStep_pure fun _ hle => hl.mono hle
      intro g₃ hle₃ s₁ s₁' hs₁
      refine .of_ok (Emit.run_modify _ s₁ _) (Emit.run_modify _ s₁' _) le_rfl
        (hT.withConstructs hs₁ (Construct.paired_setExit (hT.constructs hs₁) (fun k k' hk => ?_)
          (hl.mono hle₃))) trivial
      exact hT.loops hs₁ hk (hh.mono (hle₁.trans (hle₂.trans hle₃)))

theorem leave {h h' : LoopHandle} (hh : h.Paired g h') :
    T.Keeps g (Emit.leave h) (Emit.leave h') :=
  (hT.exitOf hh).bind fun _ _ _ _ hl => (hT.noteLabel hl _).seq fun _ _ => hT.jump (.always hl)

theorem leaveIfTrue {h h' : LoopHandle} (hh : h.Paired g h') :
    T.Keeps g (Emit.leaveIfTrue h) (Emit.leaveIfTrue h') :=
  (hT.exitOf hh).bind fun _ _ _ _ hl => (hT.noteLabel hl _).seq fun _ _ => hT.jump (.ifTrue hl)

theorem leaveIfFalse {h h' : LoopHandle} (hh : h.Paired g h') :
    T.Keeps g (Emit.leaveIfFalse h) (Emit.leaveIfFalse h') :=
  (hT.exitOf hh).bind fun _ _ _ _ hl => (hT.noteLabel hl _).seq fun _ _ => hT.jump (.ifFalse hl)

theorem openWhile : T.Keeps g Emit.openWhile Emit.openWhile :=
  hT.newLabel.bind fun _ _ _ _ hl => (hT.markHere hl).seq fun _ _ => hT.openConstruct (.whileLoop hl)

theorem openWhileBody (c : Comparison) : T.Keeps g (Emit.openWhileBody c) (Emit.openWhileBody c) :=
  hT.takeWhileHead.bind fun _ _ _ _ hl => (hT.openIf c).seq fun _ _ =>
    hT.openConstruct (.whileLoop hl)

theorem closeWhile : T.Keeps g Emit.closeWhile Emit.closeWhile :=
  hT.takeWhileHead.bind fun _ _ _ _ hl => (hT.jumpTo hl).seq fun _ _ => hT.closeIf

/-! ### Switches -/

theorem newLabels (n : Nat) :
    T.InStep g (Emit.newLabels n) (Emit.newLabels n) fun g => List.Forall₂ (Label.Paired g) := by
  induction n generalizing g with
  | zero => exact inStep_pure fun _ _ => .nil
  | succ n ih =>
    exact hT.newLabel.bind fun _ _ _ _ hl => ih.bind fun _ hle _ _ hls =>
      inStep_pure fun _ hle' => .cons (hl.mono (hle.trans hle')) (hls.imp fun _ _ h => h.mono hle')

theorem noteLabels {ls ls' : List Label} (h : List.Forall₂ (Label.Paired g) ls ls') :
    T.Keeps g (Emit.noteLabels ls) (Emit.noteLabels ls') := by
  induction h with
  | nil => exact keeps_pure _ _
  | cons hl _ ih => exact (hT.noteLabel hl _).seq fun _ _ => ih

theorem openSwitch (n : Nat) :
    T.InStep g (Emit.openSwitch n) (Emit.openSwitch n) fun g => List.Forall₂ (Label.Paired g) := by
  refine hT.newLabel.bind fun _ _ _ _ hd => hT.newLabel.bind fun _ hle₁ _ _ hf =>
    (hT.newLabels n).bind fun _ hle₂ _ _ hls => ?_
  have hd' := hd.mono (hle₁.trans hle₂)
  exact (hT.note _).seq fun _ _ => (hT.noteLabels hls).seq fun _ _ => (hT.note _).seq fun _ _ =>
    (hT.jump (.switch hls)).seq fun _ _ => (hT.jumpTo hd').seq fun _ _ =>
      (hT.openConstruct (.switch _ hd' (hf.mono hle₂))).seq fun _ _ =>
        inStep_pure fun _ hle => hls.imp fun _ _ h => h.mono hle

theorem openCase {l l' : Label} (h : l.Paired g l') (name : String) :
    T.Keeps g (Emit.openCase l name) (Emit.openCase l' name) :=
  (hT.note _).seq fun _ _ => hT.markHere h

theorem closeCase : T.Keeps g Emit.closeCase Emit.closeCase :=
  hT.currentSwitch.bind fun _ _ _ _ hp => (hT.jumpTo hp.2.1).seq fun _ _ => hT.note _

theorem openDefault : T.Keeps g Emit.openDefault Emit.openDefault := by
  refine hT.currentSwitch.bind fun g' _ p p' hp => Keeps.seq ?_ fun _ _ => hT.markHere hp.1
  intro g₁ hle s s' hs
  exact .of_ok (Emit.run_modify _ s _) (Emit.run_modify _ s' _) le_rfl
    (hT.withConstructs hs (.cons (.switch true (hp.1.mono hle) (hp.2.1.mono hle))
      (List.forall₂_drop 1 (hT.constructs hs)))) trivial

theorem closeSwitch : T.Keeps g Emit.closeSwitch Emit.closeSwitch := by
  refine hT.takeSwitch.bind fun g' _ p p' hp => (hT.note _).seq fun _ _ => ?_
  rw [hp.2.2]
  split
  · exact hT.markHere hp.2.1
  · exact (hT.markHere hp.1).seq fun _ _ => hT.markHere hp.2.1

/-! ### Text -/

theorem arrayText (t : Ty) {e e' : Emit Unit} (h : T.Keeps g e e') :
    T.Keeps g (Emit.arrayText t e) (Emit.arrayText t e') := by
  refine (hT.newLocal _ _).bind fun g₁ hle₁ a a' ha => (hT.storeLocal ha).seq fun _ _ =>
    (hT.loadText _).seq fun _ _ => (hT.newLocal _ _).bind fun g₂ hle₂ x x' hx =>
      (hT.storeLocal hx).seq fun _ _ => (hT.newLocal _ _).bind fun g₃ hle₃ i i' hi => ?_
  have ha₃ : (Operand.variable a).Paired g₃ (.variable a') := .variable (ha.mono (hle₂.trans hle₃))
  have hx₃ : x.Paired g₃ x' := hx.mono hle₃
  exact (hT.openFor (.some hi) (.constant _) ha₃).keeps.seq fun _ _ => (hT.loadLocal hx₃).seq fun _ _ =>
    (hT.loadItemOf ha₃ (.variable hi)).seq fun _ _ =>
      (h.later (hle₁.trans (hle₂.trans hle₃))).seq fun _ _ => (hT.loadText _).seq fun _ _ =>
        (hT.call _).seq fun _ _ => (hT.storeLocal hx₃).seq fun _ _ => hT.closeFor.seq fun _ _ =>
          (hT.loadLocal hx₃).seq fun _ _ => (hT.loadText _).seq fun _ _ => hT.call _

theorem referenceText {e e' : Emit Unit} (h : T.Keeps g e e') :
    T.Keeps g (Emit.referenceText e) (Emit.referenceText e') :=
  (hT.traced _ _ rfl).seq fun _ _ => hT.loadNull.seq fun _ _ => (hT.openIf _).seq fun _ _ =>
    (hT.traced _ _ rfl).seq fun _ _ => (hT.loadText _).seq fun _ _ => hT.openElse.seq fun _ _ =>
      h.seq fun _ _ => hT.closeIf

theorem toFullText (t : Ty) : T.Keeps g (Emit.toFullText t) (Emit.toFullText t) := by
  induction t using Emit.toFullText.induct with
  | case1 element ih => exact hT.referenceText (hT.arrayText _ ih)
  | case2 t hne hvalue =>
    rw [Emit.toFullText.eq_2 t hne, if_pos hvalue]
    exact (hT.traced _ _ rfl).seq fun _ _ => hT.call _
  | case3 t hne hvalue =>
    rw [Emit.toFullText.eq_2 t hne, if_neg hvalue]
    exact hT.referenceText (hT.call _)

end Structured

/-! ## Every operation -/

section operations

variable {o : Operation} {ρ ρ' : Renaming}

/-- A call that has nothing to answer. -/
theorem Keeps.done {e e' : Emit Unit} (h : T.Keeps g e e') :
    T.InStep g (Operation.perform.done e) (Operation.perform.done e') Answer.Paired :=
  h.seq fun _ _ => inStep_pure fun _ _ => .done

/-- Every **straight-line operation** is in step with itself under other names. -/
theorem Straight.perform (hT : T.Straight) (ho : o.isStraight) (h : ρ.Paired g o ρ') :
    T.InStep g (o.rename ρ).perform (o.rename ρ').perform Answer.Paired := by
  have hl := h.locals
  cases o with
  | arg i =>
    refine (hT.arg i).map fun _ a a' ha => ?_
    rw [ha]
    exact .argument a
  | newLocal t name => exact (hT.newLocal t name).map fun _ _ _ hl => .variable hl
  | newLocalWith t name o =>
    exact (hT.newLocalWith t name (Operand.paired_rename hl)).map fun _ _ _ hl => .variable hl
  | assign l o =>
    obtain ⟨hl, ho⟩ := List.forall_mem_cons.1 hl
    exact (hT.assign hl (Operand.paired_rename ho)).done
  | load o => exact (hT.load (Operand.paired_rename hl)).done
  | store o => exact (hT.store (Operand.paired_rename hl)).done
  | loadByAddress o => exact (hT.loadByAddress (Operand.paired_rename hl)).done
  | increment o => exact (hT.increment (Operand.paired_rename hl)).done
  | decrement o => exact (hT.decrement (Operand.paired_rename hl)).done
  | loadConstant c => exact (hT.loadConstant c).done
  | loadText x => exact (hT.loadText x).done
  | loadNull => exact hT.loadNull.done
  | loadArg a => exact (hT.loadArg a).done
  | storeArg a => exact (hT.storeArg a).done
  | loadArgAddress a => exact (hT.loadArgAddress a).done
  | loadLocal l => exact (hT.loadLocal (hl l List.mem_cons_self)).done
  | storeLocal l => exact (hT.storeLocal (hl l List.mem_cons_self)).done
  | loadLocalAddress l => exact (hT.loadLocalAddress (hl l List.mem_cons_self)).done
  | loadToken t => exact (hT.loadToken t).done
  | loadZero t => exact (hT.loadZero t).done
  | ret => exact hT.ret.done
  | convertTop source target => exact (hT.convertTop source target).done
  | convertPointee source target => exact (hT.convert source target true).done
  | instantiate c os => exact (hT.instantiate c (Operand.paired_map_rename hl)).done
  | getMember m =>
    refine (hT.getMember m).map fun _ t t' ht => ?_
    rw [ht]
    exact .type t
  | putMember m => exact (hT.putMember m).done
  | call m => exact (hT.call m).done
  | callWith r m os =>
    obtain ⟨hr, hos⟩ := List.forall_mem_append.1 hl
    refine (hT.callWith m ?_ (Operand.paired_map_rename hos)).done
    cases r with
    | none => exact .none
    | some o => exact .some (Operand.paired_rename (by simpa using hr))
  | makeArray t o => exact (hT.makeArray t (Operand.paired_rename hl)).done
  | loadLength => exact hT.loadLength.done
  | loadItem t => exact (hT.loadItem t).done
  | loadItemAddress t => exact (hT.loadItemAddress t).done
  | storeItem t => exact (hT.storeItem t).done
  | loadItemOf a i =>
    obtain ⟨ha, hi⟩ := List.forall_mem_append.1 hl
    exact (hT.loadItemOf (Operand.paired_rename ha) (Operand.paired_rename hi)).done
  | storeItemOf a i v =>
    obtain ⟨hai, hv⟩ := List.forall_mem_append.1 hl
    obtain ⟨ha, hi⟩ := List.forall_mem_append.1 hai
    exact (hT.storeItemOf (Operand.paired_rename ha) (Operand.paired_rename hi)
      (Operand.paired_rename hv)).done
  | toText t => exact (hT.toText t).done
  | joinTwo => exact (hT.call _).done
  | joinThree => exact (hT.call _).done
  | formatText format os => exact (hT.formatText format (Operand.paired_map_rename hl)).done
  | _ => first | exact absurd ho Bool.false_ne_true | exact (hT.traced _ _ rfl).done

/-- **Every operation** is in step with itself under other names. -/
theorem Structured.perform (hT : T.Structured) (h : ρ.Paired g o ρ') :
    T.InStep g (o.rename ρ).perform (o.rename ρ').perform Answer.Paired := by
  -- straight-line calls were compared before; here are those that touch labels and constructs
  by_cases ho : o.isStraight
  · exact hT.toStraight.perform ho h
  have hl := h.locals
  cases o with
  | newLabel => exact hT.newLabel.map fun _ _ _ hl => .label hl
  | markHere l => exact (hT.markHere (h.labels l List.mem_cons_self)).done
  | jumpTo l => exact (hT.jumpTo (h.labels l List.mem_cons_self)).done
  | jumpIfTrue l => exact (hT.jumpIfTrue (h.labels l List.mem_cons_self)).done
  | jumpIfFalse l => exact (hT.jumpIfFalse (h.labels l List.mem_cons_self)).done
  | jumpIfLess l => exact (hT.jumpIfLess (h.labels l List.mem_cons_self)).done
  | jumpIfGreater l => exact (hT.jumpIfGreater (h.labels l List.mem_cons_self)).done
  | jumpIfLessOrEqual l => exact (hT.jumpIfLessOrEqual (h.labels l List.mem_cons_self)).done
  | toFullText t => exact (hT.toFullText t).done
  | openIfTrue => exact hT.openIfTrue.done
  | openIfFalse => exact hT.openIfFalse.done
  | openIf c => exact (hT.openIf c).done
  | openIfCompared a c b =>
    obtain ⟨ha, hb⟩ := List.forall_mem_append.1 hl
    exact (hT.openIfCompared (Operand.paired_rename ha) c (Operand.paired_rename hb)).done
  | openElse => exact hT.openElse.done
  | openElseIf a c b =>
    obtain ⟨ha, hb⟩ := List.forall_mem_append.1 hl
    exact (hT.openElseIf (Operand.paired_rename ha) c (Operand.paired_rename hb)).done
  | closeIf => exact hT.closeIf.done
  | openIfNotZero o => exact (hT.openIfNotZero (Operand.paired_rename hl)).done
  | openIfNotEmpty l => exact (hT.openIfNotEmpty (hl l List.mem_cons_self)).done
  | openElseIfEmpty l => exact (hT.openElseIfEmpty (hl l List.mem_cons_self)).done
  | openFor l a b =>
    obtain ⟨hla, hb⟩ := List.forall_mem_append.1 hl
    obtain ⟨hl, ha⟩ := List.forall_mem_append.1 hla
    refine (hT.openFor ?_ (Operand.paired_rename ha) (Operand.paired_rename hb)).map
      fun _ _ _ hk => .loop hk
    cases l with
    | none => exact .none
    | some l => exact .some (hl l List.mem_cons_self)
  | closeFor => exact hT.closeFor.done
  | openEach l t e m =>
    obtain ⟨hl, he⟩ := List.forall_mem_cons.1 hl
    exact (hT.openEach hl t (he e List.mem_cons_self) m).map fun _ _ _ hk => .loop hk
  | closeEach m => exact (hT.closeEach m).done
  | leave k => exact (hT.leave (h.loops k List.mem_cons_self)).done
  | leaveIfTrue k => exact (hT.leaveIfTrue (h.loops k List.mem_cons_self)).done
  | leaveIfFalse k => exact (hT.leaveIfFalse (h.loops k List.mem_cons_self)).done
  | openSwitch n => exact (hT.openSwitch n).map fun _ _ _ hls => .labels hls
  | openCase l name => exact (hT.openCase (h.labels l List.mem_cons_self) name).done
  | closeCase => exact hT.closeCase.done
  | openDefault => exact hT.openDefault.done
  | closeSwitch => exact hT.closeSwitch.done
  | openWhile => exact hT.openWhile.done
  | openWhileBody c => exact (hT.openWhileBody c).done
  | closeWhile => exact hT.closeWhile.done
  | _ => exact absurd rfl ho

end operations

end Tandem

end Stackwright
