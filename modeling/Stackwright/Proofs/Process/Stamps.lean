import Mathlib.Logic.Function.Basic
import Stackwright.Proofs.Structure.Sparing

/-! # Other stamps

Every label and every loop carries the number of its session as a **stamp**. A map of stamps is carried
over to all that holds them, up to whole sessions, and everything else stays as it is. What a session
knows of its labels and its loops is the same under every map that sends no two stamps to one.

* **`Session.restamp σ s`** — the session with other stamps.
* **`Marks.entry_restamp`**, **`Construct.findLoop?_restamp`** — checks of stamps come to the same. -/

namespace Stackwright

variable {σ : Nat → Nat}

/-! ## Tokens -/

/-- The label with another **stamp**. -/
def Label.restamp (σ : Nat → Nat) (l : Label) : Label := ⟨σ l.session, l.id⟩

/-- The loop with another stamp. -/
def LoopHandle.restamp (σ : Nat → Nat) (h : LoopHandle) : LoopHandle := ⟨σ h.session, h.id⟩

/-- What puts other stamps in the place of those that an operation names. -/
def Renaming.restamp (σ : Nat → Nat) : Renaming := ⟨fun l => l, Label.restamp σ, LoopHandle.restamp σ⟩

/-- A label is shown without its stamp. -/
@[simp] theorem Label.text_restamp (l : Label) : (l.restamp σ).text = l.text := rfl

theorem Label.restamp_inj (hσ : σ.Injective) {l m : Label} : l.restamp σ = m.restamp σ ↔ l = m := by
  constructor
  · intro h
    obtain ⟨hsession, hid⟩ := Label.mk.inj h
    exact Label.ext (hσ hsession) hid
  · exact fun h => congrArg _ h

theorem LoopHandle.restamp_inj (hσ : σ.Injective) {h k : LoopHandle} :
    h.restamp σ = k.restamp σ ↔ h = k := by
  constructor
  · intro heq
    obtain ⟨hsession, hid⟩ := LoopHandle.mk.inj heq
    exact LoopHandle.ext (hσ hsession) hid
  · exact fun h => congrArg _ h

/-- An operand names no label and no loop. -/
@[simp] theorem Operand.rename_restamp (o : Operand) : o.rename (.restamp σ) = o := by
  cases o <;> rfl

/-- A **straight-line** operation names none either. -/
theorem Operation.rename_restamp {o : Operation} (ho : o.isStraight) : o.rename (.restamp σ) = o := by
  have hall : ∀ os : List Operand, os.map (Operand.rename (.restamp σ)) = os := fun os => by
    simp [funext Operand.rename_restamp]
  have hsome : ∀ o : Option Operand, o.map (Operand.rename (.restamp σ)) = o := fun o => by
    cases o <;> simp
  have hlocal : ∀ l : Local, (Renaming.restamp σ).locals l = l := fun _ => rfl
  cases o <;>
    first | rfl | exact absurd ho Bool.false_ne_true | simp [rename, hall, hsome, hlocal]

/-! ## Code, constructs and refusals -/

/-- The jump with other targets. -/
def Jump.map {τ υ : Type} (f : τ → υ) : Jump τ → Jump υ
  | .always t => .always (f t)
  | .ifTrue t => .ifTrue (f t)
  | .ifFalse t => .ifFalse (f t)
  | .compare c t => .compare c (f t)
  | .switch ts => .switch (ts.map f)

@[simp] theorem Jump.targets_map {τ υ : Type} (f : τ → υ) (j : Jump τ) :
    (j.map f).targets = j.targets.map f := by
  cases j <;> rfl

/-- The instruction with other targets. -/
def Instruction.map {τ υ : Type} (f : τ → υ) : Instruction τ → Instruction υ
  | .op o => .op o
  | .jump j => .jump (j.map f)
  | .ret => .ret

/-- The open loop with other stamps. -/
def LoopState.restamp (σ : Nat → Nat) (k : LoopState) : LoopState where
  handle := k.handle.restamp σ
  slot := k.slot
  body := k.body.restamp σ
  test := k.test.restamp σ
  exit := k.exit.map (Label.restamp σ)
  bound := k.bound

/-- The construct with other stamps. -/
def Construct.restamp (σ : Nat → Nat) : Construct → Construct
  | .conditional o f => .conditional (o.restamp σ) (f.restamp σ)
  | .counted k => .counted (k.restamp σ)
  | .enumerated k => .enumerated (k.restamp σ)
  | .switch d f given => .switch (d.restamp σ) (f.restamp σ) given
  | .whileLoop l => .whileLoop (l.restamp σ)

/-- The refusal with other stamps. -/
def BuildError.restamp (σ : Nat → Nat) : BuildError → BuildError
  | .unknownLabel l => .unknownLabel (l.restamp σ)
  | .labelAlreadyMarked l => .labelAlreadyMarked (l.restamp σ)
  | .labelNotMarked l => .labelNotMarked (l.restamp σ)
  | e => e

/-- The answer with other stamps. -/
def Answer.restamp (σ : Nat → Nat) : Answer → Answer
  | .label l => .label (l.restamp σ)
  | .labels ls => .labels (ls.map (Label.restamp σ))
  | .loop k => .loop (k.restamp σ)
  | a => a

/-- A refusal that names no label has no stamp. -/
theorem BuildError.restamp_of_label? {e : BuildError} (h : e.label? = none) : e.restamp σ = e := by
  cases e <;> first | rfl | cases h

/-- A refusal is **worded** without its stamp. -/
@[simp] theorem BuildError.message_restamp (e : BuildError) : (e.restamp σ).message = e.message := by
  cases e <;> rfl

namespace Construct

variable {c : Construct} {cs : List Construct} {h : LoopHandle} {l : Label}

@[simp] theorem kind_restamp (c : Construct) : (c.restamp σ).kind = c.kind := by
  cases c <;> rfl

@[simp] theorem loop?_restamp (c : Construct) :
    (c.restamp σ).loop? = c.loop?.map (LoopState.restamp σ) := by
  cases c <;> rfl

@[simp] theorem isLoop_restamp (hσ : σ.Injective) :
    (c.restamp σ).isLoop (h.restamp σ) = c.isLoop h := by
  have hhandle : ∀ k : LoopHandle, (k.restamp σ == h.restamp σ) = (k == h) := by
    intro k
    rw [Bool.eq_iff_iff, beq_iff_eq, beq_iff_eq]
    exact LoopHandle.restamp_inj hσ
  cases c <;> first | rfl | exact hhandle _

theorem withExit_restamp : (c.withExit l).restamp σ = (c.restamp σ).withExit (l.restamp σ) := by
  cases c <;> rfl

/-- The loop of a handle is **found** under every stamp. -/
theorem findLoop?_restamp (hσ : σ.Injective) :
    findLoop? (cs.map (restamp σ)) (h.restamp σ) = (findLoop? cs h).map (LoopState.restamp σ) := by
  induction cs with
  | nil => rfl
  | cons c cs ih =>
    unfold findLoop? at ih ⊢
    rw [List.map_cons, List.find?_cons, List.find?_cons, isLoop_restamp hσ]
    cases c.isLoop h with
    | true => exact c.loop?_restamp
    | false => exact ih

theorem setExit_restamp (hσ : σ.Injective) :
    (setExit h l cs).map (restamp σ) = setExit (h.restamp σ) (l.restamp σ) (cs.map (restamp σ)) := by
  induction cs with
  | nil => rfl
  | cons c cs ih =>
    rw [List.map_cons, setExit, setExit, isLoop_restamp hσ]
    split
    · rw [List.map_cons, withExit_restamp]
    · rw [List.map_cons, ih]

end Construct

/-! ## Marks -/

/-- The marks of a session with another stamp. -/
def Marks.restamp (σ : Nat → Nat) (t : Marks) : Marks := { t with session := σ t.session }

namespace Marks

variable {t : Marks} {l : Label} {ls : List Label}

@[simp] theorem next_restamp (t : Marks) : (t.restamp σ).next = t.next.restamp σ := rfl

@[simp] theorem mark_restamp (t : Marks) (l : Label) (p : Nat) :
    (t.restamp σ).mark (l.restamp σ) p = (t.mark l p).restamp σ := rfl

@[simp] theorem target_restamp (t : Marks) (ls : List Label) :
    (t.restamp σ).target (ls.map (Label.restamp σ)) = (t.target ls).restamp σ := by
  induction ls generalizing t with
  | nil => rfl
  | cons l ls ih => exact ih (t.change l fun e => { e with targeted := true })

/-- A label is **known** under every stamp, or under none. -/
theorem known_restamp (hσ : σ.Injective) : (t.restamp σ).Known (l.restamp σ) ↔ t.Known l :=
  and_congr_left' hσ.eq_iff

theorem entry_restamp (hσ : σ.Injective) :
    (t.restamp σ).entry (l.restamp σ) = (t.entry l).mapError (BuildError.restamp σ) := by
  by_cases hl : t.Known l
  · obtain ⟨e, he, hentry⟩ := hl.entry
    rw [he]
    exact entry_eq_ok.2 ⟨congrArg σ hl.1, hentry⟩
  · rw [entry_of_not_known hl, entry_of_not_known (mt (known_restamp hσ).1 hl)]
    rfl

theorem checkKnown_restamp (hσ : σ.Injective) :
    (t.restamp σ).checkKnown (ls.map (Label.restamp σ)) =
      (t.checkKnown ls).mapError (BuildError.restamp σ) := by
  induction ls with
  | nil => rfl
  | cons l ls ih =>
    have hcons : ∀ (t : Marks) (l : Label) (ls : List Label),
        t.checkKnown (l :: ls) = discard (t.entry l) >>= fun _ => t.checkKnown ls := fun _ _ _ => rfl
    rw [List.map_cons, hcons, hcons, entry_restamp hσ, ih]
    cases t.entry l <;> rfl

theorem checkUnmarked_restamp (hσ : σ.Injective) :
    (t.restamp σ).checkUnmarked (l.restamp σ) =
      (t.checkUnmarked l).mapError (BuildError.restamp σ) := by
  unfold checkUnmarked
  rw [entry_restamp hσ]
  cases t.entry l with
  | error e => rfl
  | ok e =>
    obtain ⟨position, targeted⟩ := e
    cases position <;> rfl

theorem position_restamp (hσ : σ.Injective) :
    (t.restamp σ).position (l.restamp σ) = (t.position l).mapError (BuildError.restamp σ) := by
  unfold position
  rw [entry_restamp hσ]
  cases t.entry l with
  | error e => rfl
  | ok e =>
    obtain ⟨position, targeted⟩ := e
    cases position <;> rfl

theorem check_restamp : (t.restamp σ).check = t.check.mapError (BuildError.restamp σ) := by
  have hentries : (t.restamp σ).entries = t.entries := rfl
  unfold check
  rw [hentries]
  cases t.entries.findIdx? fun e => e.targeted && e.position.isNone <;> rfl

end Marks

/-! ## Sessions -/

/-- The session with **other stamps**. -/
def Session.restamp (σ : Nat → Nat) (s : Session) : Session :=
  { s with
    constructs := s.constructs.map (Construct.restamp σ)
    labels := s.labels.restamp σ
    code := s.code.map (Instruction.map (Label.restamp σ))
    finish := s.finish.restamp σ }

namespace Session

variable (s : Session)

theorem recorded_restamp (os : List Op) : (s.restamp σ).recorded os = (s.recorded os).restamp σ := by
  have hcode : (s.code ++ (os.map Instruction.op).toArray).map (Instruction.map (Label.restamp σ)) =
      s.code.map (Instruction.map (Label.restamp σ)) ++ (os.map Instruction.op).toArray := by
    rw [Array.map_append]
    simp [Instruction.map, Function.comp_def]
  simp only [restamp, recorded, hcode]

theorem pushed_restamp (i : Instruction Label) :
    ({ s.restamp σ with
        code := (s.restamp σ).code.push (i.map (Label.restamp σ)) } : Session) =
      ({ s with code := s.code.push i } : Session).restamp σ := by
  simp only [restamp, Array.map_push]

theorem written_restamp (t : Tracer) (x : String) :
    (s.restamp σ).written t x = (s.written t x).restamp σ := by
  have hreport : t.report (s.restamp σ) x = t.report s x := rfl
  unfold written
  split
  · rfl
  · rw [hreport, recorded_restamp]
    rfl

theorem declared_restamp (t : Ty) (name : String) :
    (s.restamp σ).declared t name = (s.declared t name).restamp σ := rfl

theorem withConstructs_restamp (cs : List Construct) :
    (s.restamp σ).withConstructs (cs.map (Construct.restamp σ)) = (s.withConstructs cs).restamp σ := rfl

/-- A fresh session under another number. -/
theorem fresh_restamp (number : Nat) (name : String) (signature : Signature) (sink : Sink) :
    fresh (σ number) name signature sink = (fresh number name signature sink).restamp σ := by
  simp [fresh, restamp, Marks.restamp, Marks.define, Marks.next, Label.restamp]

end Session

end Stackwright
