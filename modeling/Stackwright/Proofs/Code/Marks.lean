import Mathlib.Data.List.Basic
import Stackwright.Code.Marks

/-! # Marks by the number of a label

What each operation on the marks of a session does to the mark at a number, and what each check on them
says. A label is **known** when it belongs to the session and its number was given out; it is **marked**
when it is known and has a position. -/

namespace Stackwright

attribute [ext] Label

namespace Marks

variable {t : Marks} {l : Label} {ls : List Label} {i p : Nat}

/-- The session defined the label. -/
def Known (t : Marks) (l : Label) : Prop := l.session = t.session ∧ l.id < t.entries.size

/-- The session marked the label at a position. -/
def MarkedAt (t : Marks) (l : Label) (p : Nat) : Prop :=
  l.session = t.session ∧ ∃ e, t.entries[l.id]? = some e ∧ e.position = some p

/-- The session marked the label. -/
def Marked (t : Marks) (l : Label) : Prop := ∃ p, t.MarkedAt l p

/-- The session noted that an instruction jumps to the label. -/
def Targeted (t : Marks) (l : Label) : Prop :=
  l.session = t.session ∧ ∃ e, t.entries[l.id]? = some e ∧ e.targeted = true

theorem MarkedAt.known (h : t.MarkedAt l p) : t.Known l := by
  obtain ⟨hs, e, he, -⟩ := h
  exact ⟨hs, (Array.getElem?_eq_some_iff.1 he).1⟩

/-- A label is marked at one position only. -/
theorem MarkedAt.unique {q : Nat} (h : t.MarkedAt l p) (h' : t.MarkedAt l q) : p = q := by
  obtain ⟨-, e, he, hp⟩ := h
  obtain ⟨-, e', he', hq⟩ := h'
  rw [he] at he'
  obtain rfl := Option.some.inj he'
  rw [hp] at hq
  exact Option.some.inj hq

/-! ## The mark at a number -/

/-- Changing a label changes the mark at its number alone. -/
theorem getElem?_change (t : Marks) (l : Label) (f : Mark → Mark) (i : Nat) :
    (t.change l f).entries[i]? = if l.id = i then t.entries[i]?.map f else t.entries[i]? := by
  rw [change, Array.getElem?_modify]

@[simp] theorem session_change (t : Marks) (l : Label) (f : Mark → Mark) :
    (t.change l f).session = t.session := rfl

@[simp] theorem size_change (t : Marks) (l : Label) (f : Mark → Mark) :
    (t.change l f).entries.size = t.entries.size := by
  rw [change, Array.size_modify]

@[simp] theorem session_define (t : Marks) : t.define.session = t.session := rfl

@[simp] theorem size_define (t : Marks) : t.define.entries.size = t.entries.size + 1 := by
  rw [define, Array.size_push]

/-- A defined label is unmarked, and nothing jumps to it; the others stay as they are. -/
theorem getElem?_define (t : Marks) (i : Nat) :
    t.define.entries[i]? = if i = t.entries.size then some {} else t.entries[i]? := by
  rw [define, Array.getElem?_push]

@[simp] theorem session_mark (t : Marks) (l : Label) (p : Nat) : (t.mark l p).session = t.session :=
  rfl

@[simp] theorem size_mark (t : Marks) (l : Label) (p : Nat) :
    (t.mark l p).entries.size = t.entries.size := size_change ..

/-- Marking a label sets the position at its number. -/
theorem getElem?_mark (t : Marks) (l : Label) (p i : Nat) :
    (t.mark l p).entries[i]? =
      if l.id = i then t.entries[i]?.map fun e => { e with position := some p }
      else t.entries[i]? := getElem?_change ..

@[simp] theorem session_target (t : Marks) (ls : List Label) : (t.target ls).session = t.session := by
  induction ls generalizing t with
  | nil => rfl
  | cons l ls ih => exact ih _

@[simp] theorem size_target (t : Marks) (ls : List Label) :
    (t.target ls).entries.size = t.entries.size := by
  induction ls generalizing t with
  | nil => rfl
  | cons l ls ih => rw [target, List.foldl_cons, ← target, ih, size_change]

/-- Jumps to labels set the flag at their numbers and nothing else. -/
theorem getElem?_target (t : Marks) (ls : List Label) (i : Nat) :
    (t.target ls).entries[i]? =
      t.entries[i]?.map fun e => { e with targeted := e.targeted || ls.any (·.id == i) } := by
  induction ls generalizing t with
  | nil => simp [target]
  | cons l ls ih =>
    rw [target, List.foldl_cons, ← target, ih, getElem?_change]
    by_cases hi : l.id = i
    · rw [if_pos hi, Option.map_map]
      simp [hi, Function.comp_def]
    · rw [if_neg hi]
      have hl : (l.id == i) = false := by simpa using hi
      simp only [List.any_cons, hl, Bool.false_or]

/-! ## The checks -/

/-- A label has a mark exactly when it is known. -/
theorem entry_eq_ok {e : Mark} :
    t.entry l = .ok e ↔ l.session = t.session ∧ t.entries[l.id]? = some e := by
  unfold entry
  split
  · rename_i h he
    rw [he]
    simp_all
  · rename_i h
    constructor
    · intro h'
      cases h'
    · rintro ⟨hs, he⟩
      exact absurd he (h e (beq_iff_eq.2 hs))

theorem entry_of_not_known (h : ¬ t.Known l) : t.entry l = .error (.unknownLabel l) := by
  unfold entry
  split
  · rename_i e hs he
    exact absurd ⟨beq_iff_eq.1 hs, (Array.getElem?_eq_some_iff.1 he).1⟩ h
  · rfl

theorem Known.entry (h : t.Known l) : ∃ e, t.entry l = .ok e ∧ t.entries[l.id]? = some e := by
  have he := Array.getElem?_eq_getElem h.2
  exact ⟨_, entry_eq_ok.2 ⟨h.1, he⟩, he⟩

/-- Labels pass as known exactly when each of them is. -/
theorem checkKnown_eq_ok : t.checkKnown ls = .ok () ↔ ∀ l ∈ ls, t.Known l := by
  induction ls with
  | nil => simp [checkKnown, List.forM, pure, Except.pure]
  | cons l ls ih =>
    have hcons : t.checkKnown (l :: ls) = discard (t.entry l) >>= fun _ => t.checkKnown ls := rfl
    rw [hcons, List.forall_mem_cons, ← ih]
    by_cases hl : t.Known l
    · obtain ⟨e, he, -⟩ := hl.entry
      simp [he, hl, discard, Functor.mapConst, Except.map, bind, Except.bind, Functor.discard]
    · simp [entry_of_not_known hl, hl, discard, Functor.mapConst, Except.map, bind, Except.bind,
        Functor.discard]

/-- A known label passes, and leaves the others to be checked. -/
theorem checkKnown_cons (h : t.Known l) : t.checkKnown (l :: ls) = t.checkKnown ls := by
  obtain ⟨e, he, -⟩ := h.entry
  have hcons : t.checkKnown (l :: ls) = discard (t.entry l) >>= fun _ => t.checkKnown ls := rfl
  rw [hcons, he]
  rfl

/-- The first label that is not known is the error. -/
theorem checkKnown_cons_unknown (h : ¬ t.Known l) :
    t.checkKnown (l :: ls) = .error (.unknownLabel l) := by
  have hcons : t.checkKnown (l :: ls) = discard (t.entry l) >>= fun _ => t.checkKnown ls := rfl
  rw [hcons, entry_of_not_known h]
  rfl

/-- A label that is not known may not be marked. -/
theorem checkUnmarked_of_unknown (h : ¬ t.Known l) :
    t.checkUnmarked l = .error (.unknownLabel l) := by
  rw [checkUnmarked, entry_of_not_known h]
  rfl

/-- Neither may one that is marked. -/
theorem checkUnmarked_of_marked (h : t.Marked l) :
    t.checkUnmarked l = .error (.labelAlreadyMarked l) := by
  obtain ⟨p, hs, e, he, hp⟩ := h
  rw [checkUnmarked, entry_eq_ok.2 ⟨hs, he⟩]
  simp [bind, Except.bind, hp]

/-- A label may be marked exactly when it is known and has no position yet. -/
theorem checkUnmarked_eq_ok : t.checkUnmarked l = .ok () ↔ t.Known l ∧ ¬ t.Marked l := by
  by_cases hl : t.Known l
  · obtain ⟨e, he, hi⟩ := hl.entry
    cases hp : e.position with
    | none =>
      have hm : ¬ t.Marked l := by
        rintro ⟨p, -, e', he', hp'⟩
        rw [hi] at he'
        obtain rfl := Option.some.inj he'
        rw [hp] at hp'
        cases hp'
      simp [checkUnmarked, he, hp, hl, hm, bind, Except.bind]
    | some p =>
      have hm : t.Marked l := ⟨p, hl.1, e, hi, hp⟩
      simp [checkUnmarked, he, hp, hm, bind, Except.bind]
  · simp [checkUnmarked, entry_of_not_known hl, hl, bind, Except.bind]

/-- The position of a label is where it was marked. -/
theorem position_eq_ok : t.position l = .ok p ↔ t.MarkedAt l p := by
  by_cases hl : t.Known l
  · obtain ⟨e, he, hi⟩ := hl.entry
    cases hp : e.position with
    | none => simp [Marks.position, MarkedAt, he, hi, hp, bind, Except.bind]
    | some q => simp [Marks.position, MarkedAt, he, hi, hp, hl.1, bind, Except.bind]
  · have hm : ¬ t.MarkedAt l p := fun h => hl h.known
    simp [Marks.position, entry_of_not_known hl, hm, bind, Except.bind]

/-! ## Positions and jumps -/

/-- A label that was just defined has no position. -/
theorem markedAt_define : t.define.MarkedAt l p ↔ t.MarkedAt l p := by
  simp only [MarkedAt, session_define, getElem?_define]
  by_cases hl : l.id = t.entries.size
  · simp [hl]
  · rw [if_neg hl]

/-- Nothing jumps to a label that was just defined. -/
theorem targeted_define : t.define.Targeted l ↔ t.Targeted l := by
  simp only [Targeted, session_define, getElem?_define]
  by_cases hl : l.id = t.entries.size
  · simp [hl]
  · rw [if_neg hl]

/-- Marking a known label gives that label a new position and leaves the others where they are. -/
theorem markedAt_mark {m : Label} {q : Nat} (hl : t.Known l) :
    (t.mark l p).MarkedAt m q ↔ (m = l ∧ q = p) ∨ (m ≠ l ∧ t.MarkedAt m q) := by
  simp only [MarkedAt, session_mark, getElem?_mark]
  by_cases hm : m = l
  · subst hm
    rw [if_pos rfl, Array.getElem?_eq_getElem hl.2]
    simp [hl.1, eq_comm]
  · have hid : m.session = t.session → l.id ≠ m.id := by
      intro hs he
      apply hm
      obtain ⟨ms, mi⟩ := m
      obtain ⟨ls, li⟩ := l
      have := hl.1
      simp_all
    simp only [hm, false_and, false_or, ne_eq, not_false_eq_true, true_and]
    refine and_congr_right fun hs => ?_
    rw [if_neg (hid hs)]

/-- Besides the labels that were marked before, the label is marked. -/
theorem marked_mark {m : Label} (hl : t.Known l) : (t.mark l p).Marked m ↔ m = l ∨ t.Marked m := by
  simp only [Marked, markedAt_mark hl]
  by_cases hm : m = l <;> simp [hm]

/-- A label that was just defined is not marked. -/
theorem marked_define {m : Label} : t.define.Marked m ↔ t.Marked m := by
  simp only [Marked, markedAt_define]

/-- Marking a label does not say that anything jumps to it. -/
theorem targeted_mark {m : Label} : (t.mark l p).Targeted m ↔ t.Targeted m := by
  simp only [Targeted, session_mark, getElem?_mark]
  by_cases hm : l.id = m.id
  · rw [if_pos hm]
    simp
  · rw [if_neg hm]

/-- Jumping to labels does not move them. -/
theorem markedAt_target {m : Label} : (t.target ls).MarkedAt m p ↔ t.MarkedAt m p := by
  simp [MarkedAt, getElem?_target]

theorem marked_target {m : Label} : (t.target ls).Marked m ↔ t.Marked m := by
  simp only [Marked, markedAt_target]

/-- Besides the labels that were jumped to before, something jumps to the new targets. -/
theorem targeted_target {m : Label} (h : ∀ l ∈ ls, t.Known l) :
    (t.target ls).Targeted m ↔ t.Targeted m ∨ m ∈ ls := by
  simp only [Targeted, session_target, getElem?_target]
  by_cases hs : m.session = t.session
  · -- labels of one session are told apart by their numbers
    have hany : ls.any (·.id == m.id) = true ↔ m ∈ ls := by
      rw [List.any_eq_true]
      constructor
      · rintro ⟨l, hl, hid⟩
        have hlm : l = m := by
          obtain ⟨k, i⟩ := l
          obtain ⟨k', i'⟩ := m
          have := (h _ hl).1
          simp_all
        exact hlm ▸ hl
      · intro hm
        exact ⟨m, hm, beq_self_eq_true _⟩
    constructor
    · rintro ⟨-, e, he, ht⟩
      obtain ⟨e', he', rfl⟩ := Option.map_eq_some_iff.1 he
      rw [Bool.or_eq_true, hany] at ht
      exact ht.imp_left fun ht => ⟨hs, e', he', ht⟩
    · rintro (⟨-, e, he, ht⟩ | hm)
      · exact ⟨hs, _, by rw [he]; rfl, by simp [ht]⟩
      · have hk := Array.getElem?_eq_getElem (h m hm).2
        exact ⟨hs, _, by rw [hk]; rfl, by simp [hany.2 hm]⟩
  · have hm : m ∉ ls := fun hm => hs (h m hm).1
    simp [hs, hm]

theorem Targeted.known (h : t.Targeted l) : t.Known l := by
  obtain ⟨hs, e, he, -⟩ := h
  exact ⟨hs, (Array.getElem?_eq_some_iff.1 he).1⟩

/-! ## The check at the end -/

/-- A number whose label something jumps to although it is not marked. -/
def Dangling (t : Marks) (i : Nat) : Prop :=
  ∃ e, t.entries[i]? = some e ∧ e.targeted = true ∧ e.position = none

theorem dangling_iff {i : Nat} :
    t.Dangling i ↔ ∃ h : i < t.entries.size,
      (t.entries[i].targeted && t.entries[i].position.isNone) = true := by
  constructor
  · rintro ⟨e, he, ht, hp⟩
    obtain ⟨hi, rfl⟩ := Array.getElem?_eq_some_iff.1 he
    exact ⟨hi, by simp [ht, hp]⟩
  · rintro ⟨hi, h⟩
    rw [Bool.and_eq_true, Option.isNone_iff_eq_none] at h
    exact ⟨_, Array.getElem?_eq_getElem hi, h.1, h.2⟩

/-- A number is dangling exactly when its label is jumped to and not marked. -/
theorem dangling_iff_label : t.Dangling i ↔ t.Targeted ⟨t.session, i⟩ ∧ ¬ t.Marked ⟨t.session, i⟩ := by
  constructor
  · rintro ⟨e, he, ht, hp⟩
    refine ⟨⟨rfl, e, he, ht⟩, ?_⟩
    rintro ⟨p, -, e', he', hp'⟩
    rw [he] at he'
    obtain rfl := Option.some.inj he'
    rw [hp] at hp'
    cases hp'
  · rintro ⟨⟨-, e, he, ht⟩, hm⟩
    refine ⟨e, he, ht, ?_⟩
    cases hp : e.position with
    | none => rfl
    | some p => exact absurd ⟨p, rfl, e, he, hp⟩ hm

/-- The final check passes exactly when no label is left dangling. -/
theorem check_eq_ok : t.check = .ok () ↔ ∀ i, ¬ t.Dangling i := by
  unfold check
  split
  · rename_i i hi
    rw [Array.findIdx?_eq_some_iff_getElem] at hi
    obtain ⟨hlt, hi, -⟩ := hi
    constructor
    · intro h
      cases h
    · intro h
      exact absurd (dangling_iff.2 ⟨hlt, hi⟩) (h i)
  · rename_i h
    rw [Array.findIdx?_eq_none_iff] at h
    refine ⟨fun _ i hd => ?_, fun _ => rfl⟩
    obtain ⟨hi, hd⟩ := dangling_iff.1 hd
    rw [h _ (Array.getElem_mem hi)] at hd
    cases hd

/-- If a label is left dangling, the final check reports the first one. -/
theorem check_of_dangling (h : t.Dangling i) (hmin : ∀ j < i, ¬ t.Dangling j) :
    t.check = .error (.labelNotMarked ⟨t.session, i⟩) := by
  obtain ⟨hi, hd⟩ := dangling_iff.1 h
  have hfind : (t.entries.findIdx? fun e => e.targeted && e.position.isNone) = some i := by
    rw [Array.findIdx?_eq_some_iff_getElem]
    refine ⟨hi, hd, fun j hj hd' => ?_⟩
    exact hmin j hj (dangling_iff.2 ⟨_, hd'⟩)
  rw [check, hfind]

end Marks

end Stackwright
