import Mathlib.Data.List.Forall2
import Stackwright.Emission.Text
import Stackwright.Proofs.Code.Linking
import Stackwright.Proofs.Emission.Silent

/-! # Code that is written

Emission calls that write the same code wherever they are made, when nothing is traced: they record it,
mark every label that it jumps to, and leave the rest of their session as it is. Such calls are written
one after the other, and behind the guard against null and inside the counted loop that the text of a
value needs.

* **`Session.Spells s n is`** — the code of a session links to `is` from a position on.
* **`Session.Wrote s s' slots is`** — a session went on with linked code.
* **`Emit.Writes e slots code`** — an emission call always writes this code. -/

namespace Stackwright

/-! ## The code -/

/-- Operations as instructions. -/
def Op.straight (os : List Op) : List (Instruction Nat) := os.map .op

@[simp] theorem Op.length_straight (os : List Op) : (Op.straight os).length = os.length :=
  List.length_map _

/-- Code for a reference that is not null, behind a **guard** that shows null itself. -/
def nullGuard (n : Nat) (body : List (Instruction Nat)) : List (Instruction Nat) :=
  Op.straight [.dup, .push .null] ++ [.jump (.compare .notEqualTo (n + 6))] ++
    Op.straight [.pop, .push (.text "<null>")] ++ [.jump (.always (n + 6 + body.length))] ++ body

/-- Code that is run for each index below the length of an array, in a **counted loop**: the index is in
the local `l`, and the array in the local `a`. -/
def countLoop (l a n : Nat) (body : List (Instruction Nat)) : List (Instruction Nat) :=
  Op.straight [.push (.ofInt32 0), .storeLocal l (some .i32)] ++
    [.jump (.always (n + 3 + body.length + 4))] ++ body ++
    (Op.straight [.loadLocal l, .push (.ofInt32 1), .add, .storeLocal l (some .i32), .loadLocal l,
      .loadLocal a, .itemCount, .convert .i32] ++ [.jump (.compare .lessThan (n + 3))])

/-! ## What a session wrote -/

namespace Session

/-- From a position on, the code of a session **links to** given instructions. -/
def Spells (s : Session) (n : Nat) (is : List (Instruction Nat)) : Prop :=
  ∀ (j : Nat) (i' : Instruction Nat), is[j]? = some i' →
    ∃ i, s.code[n + j]? = some i ∧ i.link s.labels = .ok i'

/-- A session **went on** with linked code and further locals, and with everything else as it was but for
labels and loops of its own. -/
structure Wrote (s s' : Session) (slots : Nat) (is : List (Instruction Nat)) : Prop where
  /-- The session grew. -/
  grows : s.Grows s'
  /-- The code goes on with the linked code. -/
  spells : s'.Spells s.code.size is
  /-- Nothing else is recorded. -/
  size : s'.code.size = s.code.size + is.length
  /-- What is known of the labels stays. -/
  marks : ∀ i < s.labels.entries.size, s'.labels.entries[i]? = s.labels.entries[i]?
  /-- There are more locals. -/
  slots : s'.locals.size = s.locals.size + slots
  /-- The open constructs are the same. -/
  constructs : s'.constructs = s.constructs
  /-- The local for the operands of formatted text is the same. -/
  formatArray : s'.formatArray = s.formatArray
  /-- Every label of its own is marked. -/
  fresh : ∀ l, s'.labels.Known l → s.labels.entries.size ≤ l.id → s'.labels.Marked l
  /-- Nothing is made known. -/
  notices : s'.notices = s.notices
  /-- No line is written. -/
  nextLine : s'.nextLine = s.nextLine

variable {s s' s'' : Session} {n a b : Nat} {is is' : List (Instruction Nat)}

/-- An instruction that is linked stays linked when the session goes on. -/
theorem Extends.link (h : s.Extends s') {i : Instruction Label} {i' : Instruction Nat}
    (hi : i.link s.labels = .ok i') : i.link s'.labels = .ok i' := by
  have hposition : ∀ l p, s.labels.position l = .ok p → s'.labels.position l = .ok p := by
    intro l p hp
    exact Marks.position_eq_ok.2 (h.marks l p (Marks.position_eq_ok.1 hp))
  cases i with
  | op o => exact hi
  | ret => exact hi
  | jump j =>
    obtain ⟨j', hj, rfl⟩ := map_eq_ok.1 hi
    exact map_eq_ok.2 ⟨j', Jump.mapTargets_of_imp hposition hj, rfl⟩

theorem Spells.extends (h : s.Spells n is) (hs : s.Extends s') : s'.Spells n is := by
  intro j i' hj
  obtain ⟨i, hi, hlink⟩ := h j i' hj
  exact ⟨i, hs.code _ i hi, hs.link hlink⟩

theorem Spells.append (h : s.Spells n is) (h' : s.Spells (n + is.length) is') :
    s.Spells n (is ++ is') := by
  intro j i' hj
  rcases Nat.lt_or_ge j is.length with hlt | hge
  · rw [List.getElem?_append_left hlt] at hj
    exact h j i' hj
  · rw [List.getElem?_append_right hge] at hj
    have hposition : n + j = n + is.length + (j - is.length) := by omega
    rw [hposition]
    exact h' _ i' hj

/-- Code is spelled by what its instructions link to. -/
theorem spells_of_link {code : List (Instruction Label)}
    (h : ∀ (j : Nat) (i : Instruction Label), code[j]? = some i → s.code[n + j]? = some i)
    (hlink : List.Forall₂ (fun i i' => i.link s.labels = .ok i') code is) : s.Spells n is := by
  intro j i' hj
  obtain ⟨hlen, hget⟩ := List.forall₂_iff_get.1 hlink
  obtain ⟨hlt, rfl⟩ := List.getElem?_eq_some_iff.1 hj
  have hlt' : j < code.length := by omega
  exact ⟨code[j], h j _ (List.getElem?_eq_getElem hlt'), hget j hlt' hlt⟩

/-- Where code was recorded. -/
theorem getElem?_of_recorded {code : List (Instruction Label)} (h : s'.code = s.code ++ code.toArray)
    {j : Nat} {i : Instruction Label} (hi : code[j]? = some i) :
    s'.code[s.code.size + j]? = some i := by
  rw [h, Array.getElem?_append_right (Nat.le_add_right ..), Nat.add_sub_cancel_left,
    List.getElem?_toArray, hi]

/-- The labels that were known are marked as they were. -/
theorem Wrote.markedAt (h : s.Wrote s' a is) {l : Label} (hl : l.id < s.labels.entries.size) {p : Nat} :
    s'.labels.MarkedAt l p ↔ s.labels.MarkedAt l p := by
  rw [Marks.MarkedAt, Marks.MarkedAt, h.marks l.id hl, h.grows.number]

/-- A label that is marked stays marked. -/
theorem Grows.marked (h : s.Grows s') {l : Label} (hl : s.labels.Marked l) : s'.labels.Marked l := by
  obtain ⟨p, hp⟩ := hl
  exact ⟨p, h.extends.marks l p hp⟩

/-- What is written after something else. -/
theorem Wrote.trans (h : s.Wrote s' a is) (h' : s'.Wrote s'' b is') :
    s.Wrote s'' (a + b) (is ++ is') where
  grows := h.grows.trans h'.grows
  spells := by
    refine (h.spells.extends h'.grows.extends).append ?_
    rw [← h.size]
    exact h'.spells
  size := by rw [h'.size, h.size, List.length_append, Nat.add_assoc]
  marks i hi := by
    have hsize : s.labels.entries.size ≤ s'.labels.entries.size := h.grows.labels_size
    rw [h'.marks i (Nat.lt_of_lt_of_le hi hsize), h.marks i hi]
  slots := by rw [h'.slots, h.slots, Nat.add_assoc]
  constructs := h'.constructs.trans h.constructs
  formatArray := h'.formatArray.trans h.formatArray
  fresh l hl hsize := by
    rcases Nat.lt_or_ge l.id s'.labels.entries.size with hlt | hge
    · exact h'.grows.marked (h.fresh l ⟨hl.1.trans h'.grows.number, hlt⟩ hsize)
    · exact h'.fresh l hl hge
  notices := h'.notices.trans h.notices
  nextLine := h'.nextLine.trans h.nextLine

/-- Recorded operations are written as they are. -/
theorem wrote_recorded (s : Session) (os : List Op) : s.Wrote (s.recorded os) 0 (Op.straight os) where
  grows := s.grows_recorded os
  spells := by
    refine spells_of_link (fun j i hi => getElem?_of_recorded (s.code_recorded os) hi) ?_
    rw [Op.straight, List.forall₂_map_left_iff, List.forall₂_map_right_iff]
    exact List.forall₂_same.2 fun o _ => rfl
  size := by simp
  marks _ _ := rfl
  slots := rfl
  constructs := rfl
  formatArray := rfl
  fresh _ hl hsize := absurd hl.2 (Nat.not_lt.2 hsize)
  notices := rfl
  nextLine := rfl

end Session

namespace Emit

variable {e e' : Emit Unit} {a b : Nat} {c c' : Nat → Nat → List (Instruction Nat)}

/-- A call that **always writes** code and declares locals, whatever the session. -/
def Writes (e : Emit Unit) (slots : Nat) (code : Nat → Nat → List (Instruction Nat)) : Prop :=
  ∀ s : Session, 0 < s.labels.entries.size → ∃ s', (e.run .silent).run s = .ok () s' ∧
    s.Wrote s' slots (code s.code.size s.locals.size)

theorem Writes.seq (h : e.Writes a c) (h' : e'.Writes b c') :
    (do e; e' : Emit Unit).Writes (a + b)
      fun n k => c n k ++ c' (n + (c n k).length) (k + a) := by
  intro s hs
  obtain ⟨s₁, hrun, hwrote⟩ := h s hs
  obtain ⟨s₂, hrun', hwrote'⟩ := h' s₁ (Nat.lt_of_lt_of_le hs hwrote.grows.labels_size)
  refine ⟨s₂, ?_, ?_⟩
  · rw [run_bind, hrun]
    exact hrun'
  · rw [hwrote.size, hwrote.slots] at hwrote'
    exact hwrote.trans hwrote'

theorem writes_of_recorded {os : List Op}
    (h : ∀ s : Session, (e.run .silent).run s = .ok () (s.recorded os)) :
    e.Writes 0 fun _ _ => Op.straight os :=
  fun s _ => ⟨_, h s, s.wrote_recorded os⟩

theorem writes_traced (text : String) (o : Op) :
    (traced text o).Writes 0 fun _ _ => Op.straight [o] :=
  writes_of_recorded fun s => run_traced_silent s text o

theorem writes_loadLocal (l : Local) :
    (loadLocal l).Writes 0 fun _ _ => Op.straight [.loadLocal l.index] :=
  writes_of_recorded fun s => run_loadLocal_silent s l

theorem writes_storeLocal (l : Local) :
    (storeLocal l).Writes 0 fun _ _ => Op.straight [.storeLocal l.index l.type.storedAs?] :=
  writes_of_recorded fun s => run_storeLocal_silent s l

/-- A call with a new local writes what it writes with the next free one. -/
theorem Writes.declare {T : Ty} {name : String} {f : Local → Emit Unit}
    {C : Nat → Nat → Nat → List (Instruction Nat)} (h : ∀ k, (f ⟨k, T⟩).Writes b (C k)) :
    (newLocal T name >>= f).Writes (b + 1) fun n k => C k n (k + 1) := by
  intro s hs
  obtain ⟨s', hrun, hwrote⟩ := h s.locals.size (s.declared T name) hs
  have hsize : (s.declared T name).locals.size = s.locals.size + 1 := Array.size_push ..
  refine ⟨s', ?_, ?_⟩
  · rw [run_bind, run_newLocal_silent]
    exact hrun
  · rw [hsize] at hwrote
    exact ⟨((Session.Grows.refl s).declared T name).trans hwrote.grows, hwrote.spells, hwrote.size, hwrote.marks,
      by rw [hwrote.slots, hsize, Nat.add_assoc, Nat.add_comm 1], hwrote.constructs,
      hwrote.formatArray, hwrote.fresh, hwrote.notices, hwrote.nextLine⟩

/-! ## References -/

/-- What comes before the text of a reference that is not null. -/
def guardHead : Emit Unit := do
  traced "Dup" .dup
  loadNull
  openIf .equalTo
  traced "Pop" .pop
  loadText "<null>"
  openElse

theorem referenceText_eq (e : Emit Unit) : referenceText e = (do guardHead; e; closeIf) := by
  simp only [referenceText, guardHead, bind_assoc]

end Emit

namespace Session

/-- The session behind the test of a guard, which has shown null. -/
def tested (s : Session) : Session :=
  ((s.recorded [.dup, .push .null]).defined.defined.jumped
    (.compare .notEqualTo s.defined.labels.next)).recorded [.pop, .push (.text "<null>")]

/-- The session behind the jump from there to the end of the guard. -/
def left (s : Session) : Session := s.tested.jumped (.always s.labels.next)

/-- The session behind the head of a guard: the first label is the end of the guard, the second one the
text of what is not null. -/
def guarded (s : Session) : Session :=
  (s.left.markedHere s.defined.labels.next).withConstructs
    (.conditional s.labels.next s.labels.next :: s.constructs)

variable (s : Session)

@[simp] theorem session_next (t : Marks) : t.next.session = t.session := rfl

@[simp] theorem id_next (t : Marks) : t.next.id = t.entries.size := rfl

@[simp] theorem labels_tested :
    s.tested.labels = s.labels.define.define.target [s.defined.labels.next] := rfl

@[simp] theorem labels_left :
    s.left.labels =
      (s.labels.define.define.target [s.defined.labels.next]).target [s.labels.next] := rfl

/-- What the head of a guard records. -/
theorem code_guarded :
    s.guarded.code = s.code ++ ([.op .dup, .op (.push .null),
      .jump (.compare .notEqualTo s.defined.labels.next), .op .pop, .op (.push (.text "<null>")),
      .jump (.always s.labels.next)] : List (Instruction Label)).toArray := by
  apply Array.toList_inj.1
  simp [guarded, left, tested]

theorem size_guarded : s.guarded.code.size = s.code.size + 6 := by
  simp [code_guarded]

@[simp] theorem constructs_left : s.left.constructs = s.constructs := by
  simp [left, tested]

theorem size_left : s.left.code.size = s.code.size + 6 := by
  simp [left, tested]

theorem locals_guarded : s.guarded.locals = s.locals := by
  simp [guarded, left, tested]

/-- What the head of a guard does to the labels. -/
theorem labels_guarded :
    s.guarded.labels = s.left.labels.mark s.defined.labels.next (s.code.size + 6) := by
  rw [← size_left]
  rfl

/-- A label that is not given out yet is not marked. -/
theorem not_marked_of_size_le {l : Label} (h : s.labels.entries.size ≤ l.id) :
    ¬ s.labels.Marked l := by
  rintro ⟨p, hp⟩
  exact absurd hp.known.2 (Nat.not_lt.2 h)

/-- The text of what is not null begins behind the head. -/
theorem markedAt_guarded : s.guarded.labels.MarkedAt s.defined.labels.next (s.code.size + 6) := by
  rw [labels_guarded]
  refine (Marks.markedAt_mark ⟨rfl, ?_⟩).2 (.inl ⟨rfl, rfl⟩)
  simp

/-- The end of the guard is known, and waits to be marked. -/
theorem known_guarded : s.guarded.labels.Known s.labels.next := by
  rw [labels_guarded]
  refine ⟨rfl, ?_⟩
  simp only [labels_left, Marks.size_mark, Marks.size_target, Marks.size_define, id_next]
  omega

theorem not_marked_guarded : ¬ s.guarded.labels.Marked s.labels.next := by
  rintro ⟨p, hp⟩
  have hknown : s.left.labels.Known s.defined.labels.next := ⟨rfl, by simp⟩
  rw [labels_guarded, Marks.markedAt_mark hknown, labels_left, Marks.markedAt_target,
    Marks.markedAt_target, Marks.markedAt_define, Marks.markedAt_define] at hp
  rcases hp with ⟨heq, -⟩ | ⟨-, hp⟩
  · have hid := congrArg Label.id heq
    simp at hid
  · exact s.not_marked_of_size_le (Nat.le_refl _) ⟨p, hp⟩

/-- The labels that were there are neither of the two new ones. -/
theorem marks_guarded {i : Nat} (hi : i < s.labels.entries.size) :
    s.guarded.labels.entries[i]? = s.labels.entries[i]? := by
  have hother : s.labels.entries.size + 1 ≠ i := by omega
  have hfinish : s.labels.entries.size ≠ i := by omega
  have hid : (s.labels.entries.size == i) = false ∧ (s.labels.entries.size + 1 == i) = false := by
    simp only [beq_eq_false_iff_ne]
    exact ⟨hfinish, hother⟩
  rw [labels_guarded, Marks.getElem?_mark]
  simp [Marks.getElem?_target, Marks.getElem?_define, hother, hother.symm, hfinish.symm, hid]

/-- Before the label of the text is marked, it waits. -/
theorem not_marked_left : ¬ s.left.labels.Marked s.defined.labels.next := by
  rintro ⟨p, hp⟩
  rw [labels_left, Marks.markedAt_target, Marks.markedAt_target, Marks.markedAt_define,
    Marks.markedAt_define] at hp
  refine s.not_marked_of_size_le ?_ ⟨p, hp⟩
  simp

theorem grows_guarded (hs : 0 < s.labels.entries.size) : s.Grows s.guarded := by
  have hdefined : s.Grows (s.recorded [.dup, .push .null]).defined.defined :=
    ((Grows.refl s).recorded [.dup, .push .null]).defined.defined
  have htested : s.Grows s.tested := by
    have hjumped := hdefined.jumped (j := .compare .notEqualTo s.defined.labels.next)
    simp only [Jump.targets, List.mem_singleton, forall_eq] at hjumped
    exact (hjumped ⟨rfl, by simp⟩ (by simp)).recorded [.pop, .push (.text "<null>")]
  have hleft : s.Grows s.left := by
    have hjumped := htested.jumped (j := .always s.labels.next)
    simp only [Jump.targets, List.mem_singleton, forall_eq] at hjumped
    have hknown : s.labels.next.id < s.tested.labels.entries.size := by
      simp only [id_next, labels_tested, defined_labels, Marks.size_target, Marks.size_define]
      omega
    exact hjumped ⟨rfl, hknown⟩ (Nat.pos_iff_ne_zero.1 hs)
  have hmarked : s.Grows (s.left.markedHere s.defined.labels.next) :=
    hleft.markedHere ⟨rfl, by simp⟩ s.not_marked_left (by simp)
  have hlabels : ∀ l ∈ (Construct.conditional s.labels.next s.labels.next).labels, l.id ≠ 0 := by
    simpa [Construct.labels, Nat.pos_iff_ne_zero] using hs
  have hopened := hmarked.opened hlabels
  rw [markedHere_constructs, constructs_left] at hopened
  exact hopened

variable {s} {s₁ : Session} {body : List (Instruction Nat)}

/-- What was written behind the head of a guard left the end of the guard alone. -/
theorem Wrote.end_guarded (h : s.guarded.Wrote s₁ a body) :
    s₁.labels.Known s.labels.next ∧ ¬ s₁.labels.Marked s.labels.next := by
  refine ⟨⟨h.grows.number.symm, Nat.lt_of_lt_of_le s.known_guarded.2 h.grows.labels_size⟩, ?_⟩
  rintro ⟨p, hp⟩
  exact s.not_marked_guarded ⟨p, (h.markedAt s.known_guarded.2).1 hp⟩

/-- The session behind a guard. -/
def unguarded (s s₁ : Session) : Session :=
  (s₁.markedHere s.labels.next).withConstructs s.constructs

theorem Wrote.grows_unguarded (h : s.guarded.Wrote s₁ a body) (hs : 0 < s.labels.entries.size) :
    s₁.Grows (s.unguarded s₁) := by
  obtain ⟨hknown, hfree⟩ := h.end_guarded
  have hmarked := (Grows.refl s₁).markedHere hknown hfree (Nat.pos_iff_ne_zero.1 hs)
  have hclosed := hmarked.closed
  rw [markedHere_constructs, h.constructs] at hclosed
  exact hclosed

/-- The end of the guard is behind what was written. -/
theorem Wrote.markedAt_unguarded (h : s.guarded.Wrote s₁ a body) :
    (s.unguarded s₁).labels.MarkedAt s.labels.next (s.code.size + 6 + body.length) := by
  have hsize : s₁.code.size = s.code.size + 6 + body.length := by rw [h.size, size_guarded]
  rw [← hsize]
  exact (Marks.markedAt_mark h.end_guarded.1).2 (.inl ⟨rfl, rfl⟩)

/-- The two labels of a guard are marked, and so are the labels behind its head. -/
theorem Wrote.fresh_unguarded (h : s.guarded.Wrote s₁ a body) (hs : 0 < s.labels.entries.size)
    (m : Label) (hm : (s.unguarded s₁).labels.Known m) (hsize : s.labels.entries.size ≤ m.id) :
    (s.unguarded s₁).labels.Marked m := by
  have hgrows : s₁.Grows (s.unguarded s₁) := h.grows_unguarded hs
  have hsession : m.session = s.labels.session :=
    hm.1.trans ((s.grows_guarded hs).trans (h.grows.trans hgrows)).number
  have hhead : s.guarded.labels.entries.size = s.labels.entries.size + 2 := by
    simp [labels_guarded]
  rcases Nat.lt_or_ge m.id (s.labels.entries.size + 2) with hlt | hge
  · rcases Nat.eq_or_lt_of_le hsize with heq | hgt
    · obtain rfl : m = s.labels.next := Label.ext hsession heq.symm
      exact ⟨_, h.markedAt_unguarded⟩
    · obtain rfl : m = s.defined.labels.next := Label.ext hsession (by simp; omega)
      exact ⟨_, (h.grows.trans hgrows).extends.marks _ _ s.markedAt_guarded⟩
  · have hknown : s₁.labels.Known m :=
      ⟨hsession.trans ((s.grows_guarded hs).trans h.grows).number.symm,
        by simpa [unguarded] using hm.2⟩
    exact hgrows.marked (h.fresh m hknown (hhead ▸ hge))

/-- What is written behind the head of a guard is guarded code. -/
theorem Wrote.unguarded (h : s.guarded.Wrote s₁ a body) (hs : 0 < s.labels.entries.size) :
    s.Wrote (s.unguarded s₁) a (nullGuard s.code.size body) := by
  have hgrows : s₁.Grows (s.unguarded s₁) := h.grows_unguarded hs
  have hextends : s.guarded.Extends (s.unguarded s₁) := (h.grows.trans hgrows).extends
  -- both labels of the guard are marked by now, so its jumps have their places
  have htext := hextends.marks _ _ s.markedAt_guarded
  have hend := h.markedAt_unguarded
  have hbody := h.spells.extends hgrows.extends
  rw [size_guarded] at hbody
  refine ⟨(s.grows_guarded hs).trans (h.grows.trans hgrows), ?_, ?_, fun i hi => ?_, ?_, rfl, ?_,
    h.fresh_unguarded hs, ?_, ?_⟩
  · refine Spells.append (spells_of_link (fun j i hi =>
      hextends.code _ _ (getElem?_of_recorded s.code_guarded hi)) ?_) hbody
    · refine .cons rfl (.cons rfl (.cons ?_ (.cons rfl (.cons rfl (.cons ?_ .nil)))))
      · rw [Instruction.link, Jump.mapTargets, Marks.position_eq_ok.2 htext]
        rfl
      · rw [Instruction.link, Jump.mapTargets, Marks.position_eq_ok.2 hend]
        rfl
  · show s₁.code.size = _
    rw [h.size, size_guarded]
    simp [nullGuard]
    omega
  · have hnew : s.labels.next.id ≠ i := Nat.ne_of_gt hi
    show (s₁.labels.mark _ _).entries[i]? = _
    rw [Marks.getElem?_mark, if_neg hnew, h.marks i (Nat.lt_trans hi s.known_guarded.2),
      s.marks_guarded hi]
  · show s₁.locals.size = _
    rw [h.slots, locals_guarded]
  · show s₁.formatArray = _
    rw [h.formatArray]
    simp [guarded, left, tested]
  · rw [show (s.unguarded s₁).notices = s₁.notices from rfl, h.notices]
    simp [guarded, left, tested]
  · rw [show (s.unguarded s₁).nextLine = s₁.nextLine from rfl, h.nextLine]
    simp [guarded, left, tested]

end Session

namespace Emit

theorem run_guardHead (s : Session) : (guardHead.run .silent).run s = .ok () s.guarded := by
  have hnull : (loadNull.run .silent).run (s.recorded [.dup]) =
      .ok () (s.recorded [.dup, .push .null]) := by
    rw [loadNull, run_traced_silent, Session.recorded_recorded]
    rfl
  have htext : ∀ s : Session, ((loadText "<null>").run .silent).run (s.recorded [.pop]) =
      .ok () (s.recorded [.pop, .push (.text "<null>")]) := by
    intro s
    rw [loadText, run_traced_silent, Session.recorded_recorded]
    rfl
  rw [guardHead, run_bind_ok (run_traced_silent _ _ _), run_bind_ok hnull,
    run_bind_ok (run_openIf_silent _ _), run_bind_ok (run_traced_silent _ _ _),
    run_bind_ok (htext _)]
  -- the alternative opens at a label that the session defined and never marked
  have hotherwise : ¬ s.tested.labels.Marked s.defined.labels.next := by
    rintro ⟨p, hp⟩
    exact s.not_marked_left ⟨p, Marks.markedAt_target.2 hp⟩
  have hsize : s.labels.next.id < s.tested.labels.entries.size := by
    simp only [Session.id_next, Session.labels_tested, Session.defined_labels, Marks.size_target,
      Marks.size_define]
    omega
  have htested : (openElse.run .silent).run (s.tested.withConstructs
      (.conditional s.defined.labels.next s.labels.next :: s.constructs)) = .ok () s.guarded :=
    run_openElse_silent _ rfl ⟨rfl, hsize⟩ ⟨rfl, by simp⟩ hotherwise
  exact htested

/-- The text of a reference is written behind a guard. -/
theorem Writes.guard (h : e.Writes a c) :
    (referenceText e).Writes a fun n k => nullGuard n (c (n + 6) k) := by
  intro s hs
  have hgrows : s.Grows s.guarded := s.grows_guarded hs
  obtain ⟨s₁, hrun, hwrote⟩ := h s.guarded (Nat.lt_of_lt_of_le hs hgrows.labels_size)
  obtain ⟨hknown, hfree⟩ := hwrote.end_guarded
  have hunguarded := hwrote.unguarded hs
  rw [s.size_guarded, s.locals_guarded] at hunguarded
  refine ⟨_, ?_, hunguarded⟩
  rw [referenceText_eq, run_bind_ok (run_guardHead s), run_bind_ok hrun]
  exact run_closeIf_silent s₁ hwrote.constructs hknown hfree

end Emit

/-! ## Counted loops -/

namespace Session

variable (s : Session) (l a : Local)

/-- What a loop over the items of an array remembers. -/
def loopOver : LoopState where
  handle := ⟨s.labels.session, s.nextLoop⟩
  slot := some l
  body := s.labels.next
  test := s.defined.labels.next
  exit := none
  bound := .variable a

/-- The session behind the jump to the test of a loop. -/
def begun : Session :=
  (s.numbered.defined.defined.recorded
    [.push (.ofInt32 0), .storeLocal l.index (some .i32)]).jumped (.always s.defined.labels.next)

/-- The session at the body of a loop. -/
def looped : Session :=
  ((s.begun l).markedHere s.labels.next).withConstructs (.counted (s.loopOver l a) :: s.constructs)

theorem code_begun :
    (s.begun l).code = s.code ++ ([.op (.push (.ofInt32 0)), .op (.storeLocal l.index (some .i32)),
      .jump (.always s.defined.labels.next)] : List (Instruction Label)).toArray := by
  apply Array.toList_inj.1
  simp [begun]

theorem size_begun : (s.begun l).code.size = s.code.size + 3 := by
  simp [code_begun]

@[simp] theorem labels_begun :
    (s.begun l).labels = s.labels.define.define.target [s.defined.labels.next] := rfl

@[simp] theorem constructs_begun : (s.begun l).constructs = s.constructs := by
  simp [begun]

theorem labels_looped :
    (s.looped l a).labels = (s.begun l).labels.mark s.labels.next (s.code.size + 3) := by
  rw [← s.size_begun l]
  rfl

theorem size_looped : (s.looped l a).code.size = s.code.size + 3 := s.size_begun l

theorem locals_looped : (s.looped l a).locals = s.locals := by
  simp [looped, begun]

/-- Before the body of a loop is marked, it waits. -/
theorem not_marked_begun : ¬ (s.begun l).labels.Marked s.labels.next := by
  rintro ⟨p, hp⟩
  rw [labels_begun, Marks.markedAt_target, Marks.markedAt_define, Marks.markedAt_define] at hp
  exact s.not_marked_of_size_le (Nat.le_refl _) ⟨p, hp⟩

theorem known_begun : (s.begun l).labels.Known s.labels.next :=
  ⟨rfl, by
    simp only [id_next, labels_begun, defined_labels, Marks.size_target, Marks.size_define]
    omega⟩

/-- The body of a loop is behind the jump to its test. -/
theorem markedAt_looped : (s.looped l a).labels.MarkedAt s.labels.next (s.code.size + 3) := by
  rw [labels_looped]
  exact (Marks.markedAt_mark (s.known_begun l)).2 (.inl ⟨rfl, rfl⟩)

/-- The test of a loop is known, and waits to be marked. -/
theorem known_looped : (s.looped l a).labels.Known s.defined.labels.next := by
  rw [labels_looped]
  exact ⟨rfl, by simp⟩

theorem not_marked_looped : ¬ (s.looped l a).labels.Marked s.defined.labels.next := by
  rintro ⟨p, hp⟩
  rw [labels_looped, Marks.markedAt_mark (s.known_begun l), labels_begun, Marks.markedAt_target,
    Marks.markedAt_define, Marks.markedAt_define] at hp
  rcases hp with ⟨heq, -⟩ | ⟨-, hp⟩
  · have hid := congrArg Label.id heq
    simp at hid
  · exact s.not_marked_of_size_le (by simp) ⟨p, hp⟩

/-- The labels that were there are neither of the two new ones. -/
theorem marks_looped {i : Nat} (hi : i < s.labels.entries.size) :
    (s.looped l a).labels.entries[i]? = s.labels.entries[i]? := by
  have htest : s.labels.entries.size + 1 ≠ i := by omega
  have hbody : s.labels.entries.size ≠ i := by omega
  have hid : (s.labels.entries.size + 1 == i) = false := by simpa using htest
  rw [labels_looped, Marks.getElem?_mark]
  simp [Marks.getElem?_target, Marks.getElem?_define, hbody, htest.symm, hbody.symm, hid]

theorem grows_looped (hs : 0 < s.labels.entries.size) : s.Grows (s.looped l a) := by
  have hne : s.labels.next.id ≠ 0 := Nat.pos_iff_ne_zero.1 hs
  have hbegun : s.Grows (s.begun l) := by
    have hjumped := ((Grows.refl s).numbered.defined.defined.recorded
      [.push (.ofInt32 0), .storeLocal l.index (some .i32)]).jumped
        (j := .always s.defined.labels.next)
    simp only [Jump.targets, List.mem_singleton, forall_eq] at hjumped
    exact hjumped ⟨rfl, by simp⟩ (by simp)
  have hmarked := hbegun.markedHere (s.known_begun l) (s.not_marked_begun l) hne
  have hlabels : ∀ m ∈ (Construct.counted (s.loopOver l a)).labels, m.id ≠ 0 := by
    simp only [Construct.labels, LoopState.labels, loopOver, Option.toList_none, List.mem_cons,
      List.not_mem_nil, or_false, forall_eq_or_imp, forall_eq]
    exact ⟨hne, by simp⟩
  have hopened := hmarked.opened hlabels
  rw [markedHere_constructs, constructs_begun] at hopened
  exact hopened

variable {s l a} {s₁ : Session} {b : Nat} {body : List (Instruction Nat)}

/-- What was written in the body of a loop left the test of the loop alone. -/
theorem Wrote.end_looped (h : (s.looped l a).Wrote s₁ b body) :
    s₁.labels.Known s.defined.labels.next ∧ ¬ s₁.labels.Marked s.defined.labels.next := by
  have hknown := s.known_looped l a
  refine ⟨⟨h.grows.number.symm, Nat.lt_of_lt_of_le hknown.2 h.grows.labels_size⟩, ?_⟩
  rintro ⟨p, hp⟩
  exact s.not_marked_looped l a ⟨p, (h.markedAt hknown.2).1 hp⟩

/-- The session at the test of a loop, behind its step. -/
def counted (s s₁ : Session) (l : Local) : Session :=
  ((s₁.withConstructs s.constructs).recorded [.loadLocal l.index, .push (.ofInt32 1), .add,
    .storeLocal l.index (some .i32)]).markedHere s.defined.labels.next

/-- The session behind a loop. -/
def unlooped (s s₁ : Session) (l a : Local) : Session :=
  ((s.counted s₁ l).recorded [.loadLocal l.index, .loadLocal a.index, .itemCount,
    .convert .i32]).jumped (.compare .lessThan s.labels.next)

theorem code_unlooped :
    (s.unlooped s₁ l a).code = s₁.code ++ ([.op (.loadLocal l.index), .op (.push (.ofInt32 1)),
      .op .add, .op (.storeLocal l.index (some .i32)), .op (.loadLocal l.index),
      .op (.loadLocal a.index), .op .itemCount, .op (.convert .i32),
      .jump (.compare .lessThan s.labels.next)] : List (Instruction Label)).toArray := by
  apply Array.toList_inj.1
  simp [unlooped, counted]

theorem labels_unlooped :
    (s.unlooped s₁ l a).labels =
      (s₁.labels.mark s.defined.labels.next (s₁.code.size + 4)).target [s.labels.next] := by
  simp [unlooped, counted, Jump.targets]

theorem labels_counted :
    (s.counted s₁ l).labels = s₁.labels.mark s.defined.labels.next (s₁.code.size + 4) := by
  simp [counted]

theorem Wrote.grows_unlooped (h : (s.looped l a).Wrote s₁ b body) (hs : 0 < s.labels.entries.size) :
    s₁.Grows (s.unlooped s₁ l a) := by
  obtain ⟨hknown, hfree⟩ := h.end_looped
  have hclosed := (Grows.refl s₁).closed
  rw [h.constructs] at hclosed
  have hcounted : s₁.Grows (s.counted s₁ l) :=
    (hclosed.recorded _).markedHere hknown hfree (by simp)
  have hjumped := (hcounted.recorded [.loadLocal l.index, .loadLocal a.index, .itemCount,
    .convert .i32]).jumped (j := .compare .lessThan s.labels.next)
  simp only [Jump.targets, List.mem_singleton, forall_eq] at hjumped
  refine hjumped ⟨?_, ?_⟩ (Nat.pos_iff_ne_zero.1 hs)
  · rw [labels_recorded, labels_counted, Marks.session_mark]
    exact hknown.1
  · rw [labels_recorded, labels_counted, Marks.size_mark]
    have hid : s.labels.next.id < s.defined.labels.next.id := by simp
    exact Nat.lt_trans hid hknown.2

/-- The test of a loop is in front of its last instructions. -/
theorem Wrote.markedAt_unlooped (h : (s.looped l a).Wrote s₁ b body) :
    (s.unlooped s₁ l a).labels.MarkedAt s.defined.labels.next
      (s.code.size + 3 + body.length + 4) := by
  have hsize : s₁.code.size = s.code.size + 3 + body.length := by rw [h.size, size_looped]
  rw [labels_unlooped, ← hsize, Marks.markedAt_target]
  exact (Marks.markedAt_mark h.end_looped.1).2 (.inl ⟨rfl, rfl⟩)

/-- The two labels of a loop are marked, and so are the labels in its body. -/
theorem Wrote.fresh_unlooped (h : (s.looped l a).Wrote s₁ b body) (hs : 0 < s.labels.entries.size)
    (m : Label) (hm : (s.unlooped s₁ l a).labels.Known m) (hsize : s.labels.entries.size ≤ m.id) :
    (s.unlooped s₁ l a).labels.Marked m := by
  have hgrows : s₁.Grows (s.unlooped s₁ l a) := h.grows_unlooped hs
  have hsession : m.session = s.labels.session :=
    hm.1.trans ((s.grows_looped l a hs).trans (h.grows.trans hgrows)).number
  have hhead : (s.looped l a).labels.entries.size = s.labels.entries.size + 2 := by
    simp [labels_looped]
  rcases Nat.lt_or_ge m.id (s.labels.entries.size + 2) with hlt | hge
  · rcases Nat.eq_or_lt_of_le hsize with heq | hgt
    · obtain rfl : m = s.labels.next := Label.ext hsession heq.symm
      exact ⟨_, (h.grows.trans hgrows).extends.marks _ _ (s.markedAt_looped l a)⟩
    · obtain rfl : m = s.defined.labels.next := Label.ext hsession (by simp; omega)
      exact ⟨_, h.markedAt_unlooped⟩
  · have hknown : s₁.labels.Known m :=
      ⟨hsession.trans ((s.grows_looped l a hs).trans h.grows).number.symm,
        by simpa [labels_unlooped] using hm.2⟩
    exact hgrows.marked (h.fresh m hknown (hhead ▸ hge))

/-- What is written in the body of a loop is looped code. -/
theorem Wrote.unlooped (h : (s.looped l a).Wrote s₁ b body) (hs : 0 < s.labels.entries.size) :
    s.Wrote (s.unlooped s₁ l a) b (countLoop l.index a.index s.code.size body) := by
  obtain ⟨hknown, hfree⟩ := h.end_looped
  have hgrows : s₁.Grows (s.unlooped s₁ l a) := h.grows_unlooped hs
  have hextends : (s.looped l a).Extends (s.unlooped s₁ l a) := (h.grows.trans hgrows).extends
  have hsize : s₁.code.size = s.code.size + 3 + body.length := by rw [h.size, size_looped]
  have hstart := hextends.marks _ _ (s.markedAt_looped l a)
  have htest := h.markedAt_unlooped
  have hbody := h.spells.extends hgrows.extends
  rw [size_looped] at hbody
  -- the step and the test behind the body, with the jump back to where the body starts
  have hback : (s.unlooped s₁ l a).Spells s₁.code.size
      (Op.straight [.loadLocal l.index, .push (.ofInt32 1), .add, .storeLocal l.index (some .i32),
        .loadLocal l.index, .loadLocal a.index, .itemCount, .convert .i32] ++
        [.jump (.compare .lessThan (s.code.size + 3))]) := by
    refine spells_of_link (fun j i hi => getElem?_of_recorded code_unlooped hi) ?_
    refine .cons rfl (.cons rfl (.cons rfl (.cons rfl (.cons rfl (.cons rfl (.cons rfl (.cons rfl
      (.cons ?_ .nil))))))))
    rw [Instruction.link, Jump.mapTargets, Marks.position_eq_ok.2 hstart]
    rfl
  refine ⟨(s.grows_looped l a hs).trans (h.grows.trans hgrows), ?_, ?_, fun i hi => ?_, ?_, rfl, ?_,
    h.fresh_unlooped hs, ?_, ?_⟩
  · refine Spells.append (Spells.append (spells_of_link (fun j i hi =>
      hextends.code _ _ (getElem?_of_recorded (s.code_begun l) hi)) ?_) hbody) ?_
    · refine .cons rfl (.cons rfl (.cons ?_ .nil))
      rw [Instruction.link, Jump.mapTargets, Marks.position_eq_ok.2 htest]
      rfl
    · have hposition : s.code.size + (Op.straight [.push (.ofInt32 0),
          .storeLocal l.index (some .i32)] ++
          [Instruction.jump (.always (s.code.size + 3 + body.length + 4))] ++ body).length =
          s₁.code.size := by
        simp [hsize]
        omega
      rw [hposition]
      exact hback
  · rw [code_unlooped, Array.size_append, hsize]
    simp [countLoop]
    omega
  · -- older labels are neither the start nor the test of the loop
    have hbegin : (s.labels.entries.size == i) = false := by simpa using Nat.ne_of_gt hi
    have hid : s.defined.labels.next.id ≠ i := by
      simp
      omega
    have hold : i < (s.looped l a).labels.entries.size :=
      Nat.lt_of_lt_of_le hi (s.grows_looped l a hs).labels_size
    rw [labels_unlooped, Marks.getElem?_target, Marks.getElem?_mark, if_neg hid, h.marks i hold,
      s.marks_looped l a hi]
    simp [hbegin]
  · show s₁.locals.size = _
    rw [h.slots, locals_looped]
  · show s₁.formatArray = _
    rw [h.formatArray]
    simp [looped, begun]
  · rw [show (s.unlooped s₁ l a).notices = s₁.notices from rfl, h.notices]
    simp [looped, begun]
  · rw [show (s.unlooped s₁ l a).nextLine = s₁.nextLine from rfl, h.nextLine]
    simp [looped, begun]

end Session

namespace Emit

variable {e : Emit Unit} {b : Nat} {c : Nat → Nat → List (Instruction Nat)} {l a : Local}

theorem run_loadZero (s : Session) :
    ((load (.constant (.scalar (.i32 0)))).run .silent).run s =
      .ok () (s.recorded [.push (.ofInt32 0)]) := run_traced_silent s _ _

/-- A loop from zero is begun by storing zero and jumping to its test. -/
theorem run_openFor_silent (s : Session) (hl : l.type.storedAs? = some .i32) :
    ((openFor (some l) (.constant (.scalar (.i32 0))) (.variable a)).run .silent).run s =
      .ok (s.loopOver l a).handle (s.looped l a) := by
  let s₁ : Session := s.numbered.defined.defined
  have hloop : ((newLoop (some l) (.variable a)).run .silent).run s = .ok (s.loopOver l a) s₁ :=
    run_newLoop _ _ _ _
  have hstore : ((storeLocal l).run .silent).run (s₁.recorded [.push (.ofInt32 0)]) =
      .ok () (s₁.recorded [.push (.ofInt32 0), .storeLocal l.index (some .i32)]) := by
    rw [run_storeLocal_silent, Session.recorded_recorded, hl]
    rfl
  -- the test is a label that the loop has just defined
  have hjump : ((jumpTo (s.loopOver l a).test).run .silent).run
      (s₁.recorded [.push (.ofInt32 0), .storeLocal l.index (some .i32)]) =
        .ok () (s.begun l) := by
    have hknown : (s₁.recorded [.push (.ofInt32 0), .storeLocal l.index (some .i32)]).labels.checkKnown
        (Jump.always s.defined.labels.next).targets = .ok () := by
      rw [Marks.checkKnown_eq_ok]
      simp only [Jump.targets, List.mem_singleton, forall_eq]
      exact ⟨rfl, by simp [s₁]⟩
    exact (run_bind_ok (run_note_silent _ _)).trans (run_jump _ _ hknown)
  have hmark : ((markHere (s.loopOver l a).body).run .silent).run (s.begun l) =
      .ok () ((s.begun l).markedHere s.labels.next) :=
    run_markHere_silent _ (Marks.checkUnmarked_eq_ok.2 ⟨s.known_begun l, s.not_marked_begun l⟩)
  rw [openFor, run_bind_ok hloop, run_bind_ok (run_loadZero s₁), run_bind_ok hstore,
    run_bind_ok hjump]
  dsimp only
  rw [run_bind_ok hmark, run_bind_ok (run_openConstruct _ _ _)]
  rw [Session.markedHere_constructs, Session.constructs_begun]
  rfl

/-- A loop over the items of an array is closed by its step and its test. -/
theorem run_closeFor_silent {s s₁ : Session} (ha : a.type.isArray)
    (hl : l.type.storedAs? = some .i32)
    (hconstructs : s₁.constructs = .counted (s.loopOver l a) :: s.constructs)
    (hend : s₁.labels.Known s.defined.labels.next ∧ ¬ s₁.labels.Marked s.defined.labels.next) :
    (closeFor.run .silent).run s₁ = .ok () (s.unlooped s₁ l a) := by
  let s₂ : Session := s₁.withConstructs s.constructs
  let step : List Op := [.loadLocal l.index, .push (.ofInt32 1), .add, .storeLocal l.index (some .i32)]
  have hload : ((loadLocal l).run .silent).run s₂ = .ok () (s₂.recorded [.loadLocal l.index]) :=
    run_loadLocal_silent _ _
  have hone : ((loadInt 1).run .silent).run (s₂.recorded [.loadLocal l.index]) =
      .ok () (s₂.recorded [.loadLocal l.index, .push (.ofInt32 1)]) := by
    rw [loadInt, run_traced_silent, Session.recorded_recorded]
    rfl
  have hadd : ((traced "Add" .add).run .silent).run
      (s₂.recorded [.loadLocal l.index, .push (.ofInt32 1)]) =
        .ok () (s₂.recorded [.loadLocal l.index, .push (.ofInt32 1), .add]) := by
    rw [run_traced_silent, Session.recorded_recorded]
    rfl
  have hstore : ((storeLocal l).run .silent).run
      (s₂.recorded [.loadLocal l.index, .push (.ofInt32 1), .add]) = .ok () (s₂.recorded step) := by
    rw [run_storeLocal_silent, Session.recorded_recorded, hl]
    rfl
  have hmark : ((markHere (s.loopOver l a).test).run .silent).run (s₂.recorded step) =
      .ok () (s.counted s₁ l) :=
    run_markHere_silent _ (Marks.checkUnmarked_eq_ok.2 hend)
  -- from here on the test: the index against the number of items
  let s₃ : Session := s.counted s₁ l
  have hindex : ((loadLocal l).run .silent).run s₃ = .ok () (s₃.recorded [.loadLocal l.index]) :=
    run_loadLocal_silent _ _
  have harray : ((load (.variable a)).run .silent).run (s₃.recorded [.loadLocal l.index]) =
      .ok () (s₃.recorded [.loadLocal l.index, .loadLocal a.index]) := by
    rw [load, run_loadLocal_silent, Session.recorded_recorded]
    rfl
  have hlength : (loadLength.run .silent).run
      (s₃.recorded [.loadLocal l.index, .loadLocal a.index]) = .ok () (s₃.recorded
        [.loadLocal l.index, .loadLocal a.index, .itemCount, .convert .i32]) := by
    rw [loadLength, run_bind_ok (run_traced_silent _ _ _), run_traced_silent,
      Session.recorded_recorded, Session.recorded_recorded]
    rfl
  have hknown : (s₃.recorded [.loadLocal l.index, .loadLocal a.index, .itemCount,
      .convert .i32]).labels.checkKnown (Jump.compare .lessThan s.labels.next).targets = .ok () := by
    have hid : s.labels.next.id < s.defined.labels.next.id := by simp
    rw [Marks.checkKnown_eq_ok]
    simp only [Jump.targets, List.mem_singleton, forall_eq]
    rw [Session.labels_recorded, Session.labels_counted]
    exact ⟨hend.1.1, by simpa using Nat.lt_trans hid hend.1.2⟩
  have hback : ((jumpIfLess (s.loopOver l a).body).run .silent).run (s₃.recorded
      [.loadLocal l.index, .loadLocal a.index, .itemCount, .convert .i32]) =
        .ok () (s.unlooped s₁ l a) :=
    (run_bind_ok (run_note_silent _ _)).trans (run_jump _ _ hknown)
  rw [closeFor, run_bind_ok (run_takeCounted _ _ hconstructs)]
  show ((do
    loadLocal l
    loadInt 1
    traced "Add" .add
    storeLocal l
    markHere (s.loopOver l a).test
    loadLocal l
    load (.variable a)
    if a.type.isArray then loadLength
    jumpIfLess (s.loopOver l a).body
    markExit (s.loopOver l a) : Emit Unit).run .silent).run s₂ = _
  rw [run_bind_ok hload, run_bind_ok hone, run_bind_ok hadd, run_bind_ok hstore, run_bind_ok hmark,
    run_bind_ok hindex, run_bind_ok harray]
  dsimp only
  rw [if_pos ha, run_bind_ok hlength, run_bind_ok hback]
  rfl

/-- The body of a counted loop is written inside the loop. -/
theorem Writes.loop (h : e.Writes b c) (ha : a.type.isArray) (hl : l.type.storedAs? = some .i32) :
    (do
      let _ ← openFor (some l) (.constant (.scalar (.i32 0))) (.variable a)
      e
      closeFor : Emit Unit).Writes b
      fun n k => countLoop l.index a.index n (c (n + 3) k) := by
  intro s hs
  have hgrows : s.Grows (s.looped l a) := s.grows_looped l a hs
  obtain ⟨s₁, hrun, hwrote⟩ := h (s.looped l a) (Nat.lt_of_lt_of_le hs hgrows.labels_size)
  have hunlooped := hwrote.unlooped hs
  rw [s.size_looped, s.locals_looped] at hunlooped
  refine ⟨_, ?_, hunlooped⟩
  rw [run_bind_ok (run_openFor_silent s hl), run_bind_ok hrun]
  exact run_closeFor_silent ha hl hwrote.constructs hwrote.end_looped

end Emit

end Stackwright
