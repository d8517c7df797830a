import Mathlib.Logic.Relation
import Stackwright.Builder
import Stackwright.Proofs.Code.Marks

/-! # How a session changes

Every emission call is made of a few **changes** of its session: an instruction is recorded, a label is
defined or marked, a construct is opened or closed, a local is declared, something is made known. What
every change keeps is kept by every call, so an invariant of sessions needs one case for each change.

* **`Session.Change s s'`** — one change.
* **`Session.Grows s s'`** — any number of changes.
* **`Session.Inner s`** — the labels that the open constructs remember are not the label at the end of
  the procedure, which is the first label of its session and is handed to nobody. -/

namespace Stackwright

/-! ## Labels of a construct -/

/-- The labels that an open loop remembers. -/
def LoopState.labels (s : LoopState) : List Label := s.body :: s.test :: s.exit.toList

/-- The labels that an open construct remembers. -/
def Construct.labels : Construct → List Label
  | .conditional otherwise finish => [otherwise, finish]
  | .counted s | .enumerated s => s.labels
  | .switch default finish _ => [default, finish]
  | .whileLoop head => [head]

namespace Session

/-! ## Changes -/

/-- One **change** of a session. -/
inductive Change (s : Session) : Session → Prop
  /-- An instruction that goes nowhere is recorded. -/
  | record (i : Instruction Label) (h : i.targets = []) : Change s { s with code := s.code.push i }
  /-- A jump to labels other than the one at the end is recorded, and it is noted that something jumps
  to them. -/
  | jump (j : Jump Label) (h : s.labels.checkKnown j.targets = .ok ())
      (hl : ∀ l ∈ j.targets, l.id ≠ 0) :
      Change s { s with labels := s.labels.target j.targets, code := s.code.push (.jump j) }
  /-- The next label is defined. -/
  | define : Change s { s with labels := s.labels.define }
  /-- A label other than the one at the end is marked at the current position. -/
  | mark (l : Label) (h : s.labels.checkUnmarked l = .ok ()) (hl : l.id ≠ 0) :
      Change s { s with labels := s.labels.mark l s.code.size }
  /-- A construct is opened. -/
  | opened (c : Construct) (h : ∀ l ∈ c.labels, l.id ≠ 0) :
      Change s { s with constructs := c :: s.constructs }
  /-- The innermost construct is closed, if there is one. -/
  | closed : Change s { s with constructs := s.constructs.drop 1 }
  /-- A loop gets a label behind it. -/
  | exit (h : LoopHandle) (l : Label) (hl : l.id ≠ 0) :
      Change s { s with constructs := Construct.setExit h l s.constructs }
  /-- A local is declared. -/
  | declare (t : Ty) (name : String) : Change s { s with locals := s.locals.push (t, name) }
  /-- The local for the operands of formatted text is chosen. -/
  | format (l : Local) : Change s { s with formatArray := some l }
  /-- The next loop gets its number. -/
  | loop : Change s { s with nextLoop := s.nextLoop + 1 }
  /-- Something is made known. -/
  | notify (n : Notice) : Change s { s with notices := s.notices.push n }
  /-- The next transcript line gets its number. -/
  | line (n : Nat) : Change s { s with nextLine := n }
  /-- What was made known is handed over. -/
  | deliver : Change s { s with notices := #[] }

/-- A session **grows** into another by any number of changes. -/
def Grows : Session → Session → Prop := Relation.ReflTransGen Change

variable {s s' s'' : Session}

theorem Grows.refl (s : Session) : s.Grows s := Relation.ReflTransGen.refl

theorem Grows.trans (h : s.Grows s') (h' : s'.Grows s'') : s.Grows s'' :=
  Relation.ReflTransGen.trans h h'

theorem Change.grows (h : s.Change s') : s.Grows s' := .single h

/-- What every change keeps is kept by growing. -/
theorem Grows.keeps {P : Session → Prop} (hP : ∀ {a b : Session}, a.Change b → P a → P b)
    (h : s.Grows s') (hs : P s) : P s' := by
  induction h with
  | refl => exact hs
  | tail _ hc ih => exact hP hc ih

/-- A reading of sessions that no change changes is the same after growing. -/
theorem Grows.reads {α : Type} {f : Session → α} (hf : ∀ {a b : Session}, a.Change b → f b = f a)
    (h : s.Grows s') : f s' = f s := by
  refine h.keeps (P := fun x => f x = f s) ?_ rfl
  intro a b hc ha
  rw [hf hc, ha]

/-! ## What every change keeps -/

/-- A change keeps the number of the session and what was fixed when it began. -/
theorem Change.fixed (h : s.Change s') :
    (s'.name, s'.signature, s'.sink, s'.finish, s'.labels.session) =
      (s.name, s.signature, s.sink, s.finish, s.labels.session) := by
  cases h with
  | jump j h => simp only [Marks.session_target]
  | _ => rfl

theorem Grows.fixed (h : s.Grows s') :
    (s'.name, s'.signature, s'.sink, s'.finish, s'.labels.session) =
      (s.name, s.signature, s.sink, s.finish, s.labels.session) :=
  h.reads Change.fixed

/-! ## Labels inside the procedure -/

/-- The end label is defined, and no open construct remembers it. -/
structure Inner (s : Session) : Prop where
  /-- No open construct remembers the end label. -/
  constructs : ∀ c ∈ s.constructs, ∀ l ∈ c.labels, l.id ≠ 0
  /-- The end label is defined. -/
  labels : 0 < s.labels.entries.size

/-- The exit of a loop is the only label that setting it adds to the constructs. -/
theorem labels_of_mem_setExit {h : LoopHandle} {l m : Label} {c : Construct} {cs : List Construct}
    (hc : c ∈ Construct.setExit h l cs) (hm : m ∈ c.labels) :
    m = l ∨ ∃ c' ∈ cs, m ∈ c'.labels := by
  induction cs with
  | nil => simp [Construct.setExit] at hc
  | cons b cs ih =>
    rw [Construct.setExit] at hc
    split at hc
    · rcases List.mem_cons.1 hc with rfl | hc
      · have hb : m = l ∨ m ∈ b.labels := by
          cases b <;> simp_all [Construct.withExit, Construct.labels, LoopState.labels] <;> tauto
        exact hb.imp_right fun hb => ⟨b, List.mem_cons_self, hb⟩
      · exact .inr ⟨c, List.mem_cons_of_mem _ hc, hm⟩
    · rcases List.mem_cons.1 hc with rfl | hc
      · exact .inr ⟨c, List.mem_cons_self, hm⟩
      · exact (ih hc).imp_right fun ⟨c', hc', hm'⟩ => ⟨c', List.mem_cons_of_mem _ hc', hm'⟩

theorem Change.inner (h : s.Change s') (hs : s.Inner) : s'.Inner := by
  cases h with
  | define => exact ⟨hs.constructs, by simp⟩
  | mark l => exact ⟨hs.constructs, by simpa using hs.labels⟩
  | jump j => exact ⟨hs.constructs, by simpa using hs.labels⟩
  | opened c hc =>
    refine ⟨fun c' hc' => ?_, hs.labels⟩
    rcases List.mem_cons.1 hc' with rfl | hc'
    · exact hc
    · exact hs.constructs c' hc'
  | closed => exact ⟨fun c hc => hs.constructs c (List.mem_of_mem_drop hc), hs.labels⟩
  | exit b l hl =>
    refine ⟨fun c hc m hm => ?_, hs.labels⟩
    rcases labels_of_mem_setExit hc hm with rfl | ⟨c', hc', hm'⟩
    · exact hl
    · exact hs.constructs c' hc' m hm'
  | _ => exact ⟨hs.constructs, hs.labels⟩

theorem Grows.inner (h : s.Grows s') (hs : s.Inner) : s'.Inner := h.keeps Change.inner hs

theorem Grows.finish (h : s.Grows s') : s'.finish = s.finish := by
  have h := h.fixed
  simp_all

theorem Grows.number (h : s.Grows s') : s'.labels.session = s.labels.session := by
  have h := h.fixed
  simp_all

/-- No label is given back. -/
theorem Change.labels_size (h : s.Change s') : s.labels.entries.size ≤ s'.labels.entries.size := by
  cases h with
  | define => simp
  | _ => simp

theorem Grows.labels_size (h : s.Grows s') : s.labels.entries.size ≤ s'.labels.entries.size :=
  h.keeps (P := fun x => s.labels.entries.size ≤ x.labels.entries.size)
    (fun hc ha => Nat.le_trans ha hc.labels_size) (Nat.le_refl _)

/-- A local stays where it is. -/
theorem Change.locals (h : s.Change s') {k : Nat} {t : Ty × String} (hk : s.locals[k]? = some t) :
    s'.locals[k]? = some t := by
  cases h with
  | declare u name =>
    have hlt : k < s.locals.size := (Array.getElem?_eq_some_iff.1 hk).1
    rw [Array.getElem?_push, if_neg (Nat.ne_of_lt hlt), hk]
  | _ => exact hk

theorem Grows.locals (h : s.Grows s') {k : Nat} {t : Ty × String} (hk : s.locals[k]? = some t) :
    s'.locals[k]? = some t :=
  h.keeps (P := fun x => x.locals[k]? = some t) (fun hc ha => hc.locals ha) hk

/-- The numbers of the loops count up. -/
theorem Change.nextLoop (h : s.Change s') : s.nextLoop ≤ s'.nextLoop := by
  cases h with
  | loop => exact Nat.le_succ _
  | _ => exact Nat.le_refl _

theorem Grows.nextLoop (h : s.Grows s') : s.nextLoop ≤ s'.nextLoop :=
  h.keeps (P := fun x => s.nextLoop ≤ x.nextLoop) (fun hc ha => Nat.le_trans ha hc.nextLoop)
    (Nat.le_refl _)

end Session

end Stackwright
