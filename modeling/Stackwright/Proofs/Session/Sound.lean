import Stackwright.Proofs.Session.Changes

/-! # Sound sessions

What ties the code of a session to its marks: every target of a recorded jump is known and noted, only
those are noted, no position lies past the code, and the end label waits to be marked. Every change keeps
it, so it holds of every session that a fresh one grows into. Growing also never takes an instruction
back and never moves a label.

* **`Session.Sound s`** — the code and the marks of a session agree.
* **`Session.Extends s s'`** — the code goes on where it ended, and marked labels stay where they are. -/

namespace Stackwright

namespace Session

variable {s s' : Session} {l : Label} {p : Nat}

/-- A label that a recorded jump goes to. -/
def JumpsTo (s : Session) (l : Label) : Prop := ∃ i ∈ s.code, l ∈ i.targets

/-- A **sound** session. -/
structure Sound (s : Session) : Prop where
  /-- The open constructs remember labels inside the procedure. -/
  inner : s.Inner
  /-- The end label is the first one of the session. -/
  finish : s.finish = ⟨s.labels.session, 0⟩
  /-- The end label is not marked yet. -/
  ahead : ¬ s.labels.Marked s.finish
  /-- The marks note exactly the labels that recorded jumps go to. -/
  noted : ∀ l, s.labels.Targeted l ↔ s.JumpsTo l
  /-- No recorded jump goes to the end label. -/
  inside : ∀ l, s.JumpsTo l → l.id ≠ 0
  /-- No label is marked past the code. -/
  within : ∀ l p, s.labels.MarkedAt l p → p ≤ s.code.size

/-! ## Soundness is kept -/

/-- A recorded instruction jumps to its own targets, besides those before it. -/
theorem jumpsTo_push {i : Instruction Label} (h : s'.code = s.code.push i) :
    s'.JumpsTo l ↔ s.JumpsTo l ∨ l ∈ i.targets := by
  simp only [JumpsTo, h, Array.mem_push]
  constructor
  · rintro ⟨j, hj | rfl, hl⟩
    · exact .inl ⟨j, hj, hl⟩
    · exact .inr hl
  · rintro (⟨j, hj, hl⟩ | hl)
    · exact ⟨j, .inl hj, hl⟩
    · exact ⟨i, .inr rfl, hl⟩

/-- A label inside the procedure is not the end label. -/
theorem Sound.ne_finish (hs : s.Sound) (hl : l.id ≠ 0) : s.finish ≠ l := by
  rintro rfl
  rw [hs.finish] at hl
  exact hl rfl

theorem Sound.finish_known (hs : s.Sound) : s.labels.Known s.finish := by
  rw [hs.finish]
  exact ⟨rfl, hs.inner.labels⟩

theorem Change.sound (h : s.Change s') (hs : s.Sound) : s'.Sound := by
  have hinner : s'.Inner := h.inner hs.inner
  -- only a jump notes a target, and only a mark marks; the others leave both alone
  cases h with
  | record i hi =>
    have hjumps : ∀ l, ({ s with code := s.code.push i } : Session).JumpsTo l ↔ s.JumpsTo l := by
      intro l
      rw [jumpsTo_push (s := s) rfl, hi]
      simp
    refine ⟨hinner, hs.finish, hs.ahead, fun l => ?_, fun l hl => ?_, fun l p hp => ?_⟩
    · exact (hs.noted l).trans (hjumps l).symm
    · exact hs.inside l ((hjumps l).1 hl)
    · have := hs.within l p hp
      simp only [Array.size_push]
      omega
  | jump j hj hl =>
    have hknown := Marks.checkKnown_eq_ok.1 hj
    refine ⟨hinner, ?_, ?_, fun l => ?_, fun l hj => ?_, fun l p hp => ?_⟩
    · simpa using hs.finish
    · rintro ⟨p, hp⟩
      exact hs.ahead ⟨p, Marks.markedAt_target.1 hp⟩
    · rw [Marks.targeted_target hknown, jumpsTo_push (s := s) rfl, hs.noted l]
      rfl
    · rcases (jumpsTo_push (s := s) rfl).1 hj with hj | hj
      · exact hs.inside l hj
      · exact hl l hj
    · have := hs.within l p (Marks.markedAt_target.1 hp)
      simp only [Array.size_push]
      omega
  | define =>
    refine ⟨hinner, hs.finish, ?_, fun l => ?_, hs.inside, fun l p hp => ?_⟩
    · rintro ⟨p, hp⟩
      exact hs.ahead ⟨p, Marks.markedAt_define.1 hp⟩
    · exact Marks.targeted_define.trans (hs.noted l)
    · exact hs.within l p (Marks.markedAt_define.1 hp)
  | mark l hl hid =>
    have hknown := (Marks.checkUnmarked_eq_ok.1 hl).1
    refine ⟨hinner, hs.finish, ?_, fun m => ?_, hs.inside, fun m p hp => ?_⟩
    · rintro ⟨p, hp⟩
      rcases (Marks.markedAt_mark hknown).1 hp with ⟨he, -⟩ | ⟨-, hp⟩
      · exact hs.ne_finish hid he
      · exact hs.ahead ⟨p, hp⟩
    · exact Marks.targeted_mark.trans (hs.noted m)
    · rcases (Marks.markedAt_mark hknown).1 hp with ⟨-, rfl⟩ | ⟨-, hp⟩
      · exact Nat.le_refl _
      · exact hs.within m p hp
  | _ => exact ⟨hinner, hs.finish, hs.ahead, hs.noted, hs.inside, hs.within⟩

theorem Grows.sound (h : s.Grows s') (hs : s.Sound) : s'.Sound := h.keeps Change.sound hs

/-- A fresh session is sound. -/
theorem sound_fresh (number : Nat) (name : String) (signature : Signature) (sink : Sink) :
    (fresh number name signature sink).Sound where
  inner := ⟨fun _ hc => absurd hc List.not_mem_nil, Nat.zero_lt_one⟩
  finish := rfl
  ahead := by
    rintro ⟨p, hp⟩
    obtain ⟨-, e, he, -⟩ := Marks.markedAt_define.1 hp
    cases he
  noted l := by
    constructor
    · intro h
      obtain ⟨-, e, he, -⟩ := Marks.targeted_define.1 h
      cases he
    · rintro ⟨i, hi, -⟩
      exact absurd hi (Array.not_mem_empty i)
  inside := by
    rintro l ⟨i, hi, -⟩
    exact absurd hi (Array.not_mem_empty i)
  within l p hp := by
    obtain ⟨-, e, he, -⟩ := Marks.markedAt_define.1 hp
    cases he

/-! ## Nothing is taken back -/

/-- The code goes on where it ended, marked labels stay where they are, and the others are marked later. -/
structure Extends (s s' : Session) : Prop where
  /-- An instruction stays at its position. -/
  code : ∀ (n : Nat) (i : Instruction Label), s.code[n]? = some i → s'.code[n]? = some i
  /-- The code gets no shorter. -/
  size : s.code.size ≤ s'.code.size
  /-- A marked label stays at its position. -/
  marks : ∀ l p, s.labels.MarkedAt l p → s'.labels.MarkedAt l p
  /-- A label that was not marked gets a position behind the code. -/
  later : ∀ l p, s'.labels.MarkedAt l p → s.labels.MarkedAt l p ∨ s.code.size ≤ p

theorem Extends.refl (s : Session) : s.Extends s :=
  ⟨fun _ _ h => h, Nat.le_refl _, fun _ _ h => h, fun _ _ h => .inl h⟩

theorem Extends.trans {s'' : Session} (h : s.Extends s') (h' : s'.Extends s'') : s.Extends s'' where
  code n i hn := h'.code n i (h.code n i hn)
  size := Nat.le_trans h.size h'.size
  marks l p hp := h'.marks l p (h.marks l p hp)
  later l p hp := by
    rcases h'.later l p hp with hp | hp
    · exact h.later l p hp
    · exact .inr (Nat.le_trans h.size hp)

/-- Recording an instruction leaves the others where they are. -/
theorem getElem?_push_of_some {α : Type} {a : Array α} {x y : α} {n : Nat} (h : a[n]? = some y) :
    (a.push x)[n]? = some y := by
  have hn : n < a.size := (Array.getElem?_eq_some_iff.1 h).1
  rw [Array.getElem?_push, if_neg (Nat.ne_of_lt hn), h]

theorem Change.extends (h : s.Change s') : s.Extends s' := by
  cases h with
  | record i =>
    exact ⟨fun n j hj => getElem?_push_of_some hj, by simp, fun _ _ hp => hp, fun _ _ hp => .inl hp⟩
  | jump j hj =>
    exact ⟨fun n i hi => getElem?_push_of_some hi, by simp,
      fun _ _ hp => Marks.markedAt_target.2 hp, fun _ _ hp => .inl (Marks.markedAt_target.1 hp)⟩
  | define =>
    exact ⟨fun _ _ hi => hi, Nat.le_refl _, fun _ _ hp => Marks.markedAt_define.2 hp,
      fun _ _ hp => .inl (Marks.markedAt_define.1 hp)⟩
  | mark l hl =>
    obtain ⟨hknown, hfree⟩ := Marks.checkUnmarked_eq_ok.1 hl
    refine ⟨fun _ _ hi => hi, Nat.le_refl _, fun m p hp => ?_, fun m p hp => ?_⟩
    · refine (Marks.markedAt_mark hknown).2 (.inr ⟨?_, hp⟩)
      -- a label that has a position is not the one that may be marked
      rintro rfl
      exact hfree ⟨p, hp⟩
    · rcases (Marks.markedAt_mark hknown).1 hp with ⟨-, rfl⟩ | ⟨-, hp⟩
      · exact .inr (Nat.le_refl _)
      · exact .inl hp
  | _ => exact ⟨fun _ _ hi => hi, Nat.le_refl _, fun _ _ hp => hp, fun _ _ hp => .inl hp⟩

theorem Grows.extends (h : s.Grows s') : s.Extends s' := by
  induction h with
  | refl => exact .refl s
  | tail _ hc ih => exact ih.trans hc.extends

end Session

end Stackwright
