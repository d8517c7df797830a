import Stackwright.Proofs.Tracing.Dumps
import Stackwright.Proofs.Tracing.Structured

/-! # With and without shown values

Showing values while tracing in full adds code, locals, labels and loops of its own, and so gives the others
later numbers. Besides a session that logs, a session that traces in full keeps the numbers that are not its
own in the same order; their labels are marked and jumped to alike, its own labels are all marked, and the
transcript has the same lines but for the numbers of labels.

* **`Renumbers r n m`** — numbers below `n` belong to numbers below `m`, in order.
* **`Text.Alike g x y`** — the same text, but for the number of a label.
* **`Session.Alike g s s'`** — what the two sessions have in common. -/

namespace Stackwright

/-! ## Numbers in order -/

/-- Each number below a bound **belongs to one** below another bound, in the same order. -/
structure Renumbers (r : Nat → Nat → Prop) (n m : Nat) : Prop where
  /-- Each number belongs to one. -/
  total : ∀ i < n, ∃ k, r i k
  /-- Only numbers below the bounds belong together. -/
  bounds : ∀ i k, r i k → i < n ∧ k < m
  /-- The order is the same. -/
  order : ∀ i k i' k', r i k → r i' k' → (i < i' ↔ k < k')

namespace Renumbers

variable {r : Nat → Nat → Prop} {n m : Nat}

theorem eq_iff (h : Renumbers r n m) {i k i' k' : Nat} (hr : r i k) (hr' : r i' k') :
    i = i' ↔ k = k' := by
  have hlt := h.order i k i' k' hr hr'
  have hgt := h.order i' k' i k hr' hr
  omega

/-- The second bound may grow. -/
theorem more (h : Renumbers r n m) {m' : Nat} (hm : m ≤ m') : Renumbers r n m' where
  total := h.total
  bounds i k hr := ⟨(h.bounds i k hr).1, Nat.lt_of_lt_of_le (h.bounds i k hr).2 hm⟩
  order := h.order

/-- The two next numbers belong together. -/
theorem push (h : Renumbers r n m) :
    Renumbers (fun i k => r i k ∨ i = n ∧ k = m) (n + 1) (m + 1) where
  total i hi := by
    rcases Nat.lt_succ_iff_lt_or_eq.1 hi with hi | rfl
    · obtain ⟨k, hk⟩ := h.total i hi
      exact ⟨k, .inl hk⟩
    · exact ⟨m, .inr ⟨rfl, rfl⟩⟩
  bounds i k hr := by
    rcases hr with hr | ⟨rfl, rfl⟩
    · have := h.bounds i k hr
      omega
    · omega
  order i k i' k' hr hr' := by
    rcases hr with hr | ⟨rfl, rfl⟩ <;> rcases hr' with hr' | ⟨rfl, rfl⟩
    · exact h.order i k i' k' hr hr'
    · have := h.bounds i k hr
      omega
    · have := h.bounds i' k' hr'
      omega
    · omega

end Renumbers

namespace Pairing

/-- Two more locals belong together. -/
def withSlot (g : Pairing) (n m : Nat) : Pairing :=
  { g with slots := fun i k => g.slots i k ∨ i = n ∧ k = m }

/-- Two more labels belong together. -/
def withLabel (g : Pairing) (n m : Nat) : Pairing :=
  { g with labels := fun i k => g.labels i k ∨ i = n ∧ k = m }

/-- Two more loops belong together. -/
def withLoop (g : Pairing) (n m : Nat) : Pairing :=
  { g with loops := fun i k => g.loops i k ∨ i = n ∧ k = m }

theorem le_withSlot (g : Pairing) (n m : Nat) : g ≤ g.withSlot n m :=
  ⟨fun _ _ h => .inl h, fun _ _ h => h, fun _ _ h => h⟩

theorem le_withLabel (g : Pairing) (n m : Nat) : g ≤ g.withLabel n m :=
  ⟨fun _ _ h => h, fun _ _ h => .inl h, fun _ _ h => h⟩

theorem le_withLoop (g : Pairing) (n m : Nat) : g ≤ g.withLoop n m :=
  ⟨fun _ _ h => h, fun _ _ h => h, fun _ _ h => .inl h⟩

end Pairing

/-- Labels that belong together did so before, or they are the two that were added. -/
theorem Label.Paired.of_withLabel {g : Pairing} {n m : Nat} {l l' : Label}
    (h : l.Paired (g.withLabel n m) l') : l.Paired g l' ∨ (l.id = n ∧ l'.id = m) :=
  h.2.imp_left fun hr => ⟨h.1, hr⟩

/-! ## Transcripts -/

/-- The same text, **but for the number** of a label. -/
inductive Text.Alike (g : Pairing) : String → String → Prop
  /-- The text names no label. -/
  | same (x : String) : Alike g x x
  /-- The text names a label. -/
  | label {l l' : Label} (h : l.Paired g l') (x y : String) :
      Alike g (x ++ l.text ++ y) (x ++ l'.text ++ y)

/-- The same line, or a message for the log. -/
inductive Notice.Alike (g : Pairing) : Notice → Notice → Prop
  | line (n : Nat) {x x' : String} (h : Text.Alike g x x') : Alike g (.line n x) (.line n x')
  | message (l l' : LogLevel) (x x' : String) : Alike g (.message l x) (.message l' x')

theorem Text.Alike.mono {g g' : Pairing} (hle : g ≤ g') {x x' : String} (h : Text.Alike g x x') :
    Text.Alike g' x x' := by
  cases h with
  | same => exact .same _
  | label h => exact .label (h.mono hle) _ _

theorem Notice.Alike.mono {g g' : Pairing} (hle : g ≤ g') {n n' : Notice} (h : n.Alike g n') :
    n.Alike g' n' := by
  cases h with
  | line n h => exact .line n (h.mono hle)
  | message l l' x x' => exact .message l l' x x'

/-- Texts that name no label are the same. -/
theorem Text.Alike.of_eq {g : Pairing} {x x' : String} (h : x' = x) : Text.Alike g x x' := by
  rw [h]
  exact .same x

/-! ## Sessions -/

/-- What a session that logs and one that traces in full **have in common**. -/
structure Session.Alike (g : Pairing) (s s' : Session) : Prop where
  /-- What was fixed when they began is the same. -/
  fixed : (s'.name, s'.signature, s'.sink, s'.finish, s'.labels.session) =
    (s.name, s.signature, s.sink, s.finish, s.labels.session)
  /-- The locals are in order. -/
  slots : Renumbers g.slots s.locals.size s'.locals.size
  /-- Locals that belong together have one type and one name. -/
  locals : ∀ i k, g.slots i k → s'.locals[k]? = s.locals[i]?
  /-- The labels are in order. -/
  labels : Renumbers g.labels s.labels.entries.size s'.labels.entries.size
  /-- The labels at the end belong together. -/
  finish : s.finish.Paired g s'.finish
  /-- Labels that belong together are both marked or both not. -/
  marked : ∀ l l' : Label, l.Paired g l' → (s.labels.Marked l ↔ s'.labels.Marked l')
  /-- Labels that belong together are both jumped to or both not. -/
  targeted : ∀ l l' : Label, l.Paired g l' → (s.labels.Targeted l ↔ s'.labels.Targeted l')
  /-- The other labels are marked. -/
  spare : ∀ l, s'.labels.Known l → (∀ i, ¬ g.labels i l.id) → s'.labels.Marked l
  /-- The loops are in order. -/
  loops : Renumbers g.loops s.nextLoop s'.nextLoop
  /-- The open constructs belong together. -/
  constructs : List.Forall₂ (Construct.Paired g) s.constructs s'.constructs
  /-- The locals for the operands of formatted text belong together. -/
  formatArray : Option.Rel (Local.Paired g) s.formatArray s'.formatArray
  /-- The next line has the same number. -/
  nextLine : s'.nextLine = s.nextLine
  /-- The same was made known. -/
  notices : List.Forall₂ (Notice.Alike g) s.notices.toList s'.notices.toList

namespace Session

variable {g g' : Pairing} {s s' : Session}

/-- What was made known stays the same when a line follows. -/
theorem forall₂_push {g : Pairing} {a a' : Array Notice} {n n' : Notice}
    (h : List.Forall₂ (Notice.Alike g) a.toList a'.toList) (hn : n.Alike g n') :
    List.Forall₂ (Notice.Alike g) (a.push n).toList (a'.push n').toList := by
  rw [Array.toList_push, Array.toList_push]
  exact List.rel_append h (.cons hn .nil)

namespace Alike

variable (h : s.Alike g s')

include h

theorem session : s'.labels.session = s.labels.session := by
  have hfixed := h.fixed
  simp only [Prod.mk.injEq] at hfixed
  exact hfixed.2.2.2.2

theorem signature : s'.signature = s.signature := by
  have hfixed := h.fixed
  simp only [Prod.mk.injEq] at hfixed
  exact hfixed.2.1

/-- A label is known where the one that belongs to it is. -/
theorem known {l l' : Label} (hl : l.Paired g l') : s.labels.Known l ↔ s'.labels.Known l' := by
  have hbounds := h.labels.bounds _ _ hl.2
  simp only [Marks.Known, hl.1, h.session, hbounds.1, hbounds.2]

/-- Different labels belong to different ones. -/
theorem label_eq {l l' m m' : Label} (hl : l.Paired g l') (hm : m.Paired g m') : l = m ↔ l' = m' := by
  rw [Label.ext_iff, Label.ext_iff, hl.1, hm.1, h.labels.eq_iff hl.2 hm.2]

theorem loop_eq {k k' j j' : LoopHandle} (hk : k.Paired g k') (hj : j.Paired g j') :
    k = j ↔ k' = j' := by
  rw [LoopHandle.ext_iff, LoopHandle.ext_iff, hk.1, hj.1, h.loops.eq_iff hk.2 hj.2]

/-! ## Changes -/

/-- Operations that belong together, or any others, leave all but the code as it is. -/
theorem recorded (os os' : List Op) : (s.recorded os).Alike g (s'.recorded os') :=
  { h with }

theorem returned : ({ s with code := s.code.push .ret } : Session).Alike g
    { s' with code := s'.code.push .ret } :=
  { h with }

theorem written {x x' : String} (hx : Text.Alike g x x') :
    (s.written (.ofLevel .log) x).Alike g (s'.written (.ofLevel .full) x') := by
  have hline : (Notice.line s.nextLine x).Alike g (.line s'.nextLine x') := by
    rw [h.nextLine]
    exact .line _ hx
  unfold Session.written
  rw [if_neg (by simp [Tracer.ofLevel]), if_neg (by simp [Tracer.ofLevel])]
  exact { h with
    nextLine := congrArg (· + 1) h.nextLine
    notices := forall₂_push h.notices hline }

theorem declared (t : Ty) (name : String) :
    (s.declared t name).Alike (g.withSlot s.locals.size s'.locals.size) (s'.declared t name) := by
  have hle := g.le_withSlot s.locals.size s'.locals.size
  exact { h with
    slots := by
      rw [declared_locals, declared_locals, Array.size_push, Array.size_push]
      exact h.slots.push
    locals := by
      rintro i k (hr | ⟨rfl, rfl⟩)
      · have hbounds := h.slots.bounds i k hr
        rw [declared_locals, declared_locals, Array.getElem?_push, Array.getElem?_push,
          if_neg (Nat.ne_of_lt hbounds.1), if_neg (Nat.ne_of_lt hbounds.2), h.locals i k hr]
      · rw [declared_locals, declared_locals, Array.getElem?_push_size, Array.getElem?_push_size]
    constructs := h.constructs.imp fun _ _ hc => hc.mono hle
    formatArray := optionRel_imp (fun _ _ hl => hl.mono hle) h.formatArray
    notices := h.notices.imp fun _ _ hn => hn.mono hle }

theorem defined : s.defined.Alike (g.withLabel s.labels.entries.size s'.labels.entries.size)
    s'.defined := by
  have hle := g.le_withLabel s.labels.entries.size s'.labels.entries.size
  -- the new labels are paired with each other, and neither is marked or jumped to
  have hnew : ∀ {t : Session} {l : Label}, l.id = t.labels.entries.size → ¬ t.labels.Known l :=
    fun hid hk => absurd hk.2 (Nat.not_lt.2 (Nat.le_of_eq hid.symm))
  exact { h with
    labels := by
      rw [defined_labels, defined_labels, Marks.size_define, Marks.size_define]
      exact h.labels.push
    finish := h.finish.mono hle
    marked := by
      intro l l' hl
      rw [defined_labels, defined_labels, Marks.marked_define, Marks.marked_define]
      rcases hl.of_withLabel with hl | ⟨hid, hid'⟩
      · exact h.marked l l' hl
      · exact iff_of_false (fun ⟨p, hp⟩ => hnew hid hp.known) fun ⟨p, hp⟩ => hnew hid' hp.known
    targeted := by
      intro l l' hl
      rw [defined_labels, defined_labels, Marks.targeted_define, Marks.targeted_define]
      rcases hl.of_withLabel with hl | ⟨hid, hid'⟩
      · exact h.targeted l l' hl
      · exact iff_of_false (fun ht => hnew hid ht.known) fun ht => hnew hid' ht.known
    spare := by
      intro l hl hr
      have hne : l.id ≠ s'.labels.entries.size := fun hid => hr _ (.inr ⟨rfl, hid⟩)
      have hlt : l.id < s'.labels.entries.size := by
        have := hl.2
        rw [defined_labels, Marks.size_define] at this
        omega
      rw [defined_labels, Marks.marked_define]
      exact h.spare l ⟨hl.1, hlt⟩ fun i hi => hr i (.inl hi)
    constructs := h.constructs.imp fun _ _ hc => hc.mono hle
    notices := h.notices.imp fun _ _ hn => hn.mono hle }

theorem numbered : s.numbered.Alike (g.withLoop s.nextLoop s'.nextLoop) s'.numbered := by
  have hle := g.le_withLoop s.nextLoop s'.nextLoop
  exact { h with
    loops := h.loops.push
    constructs := h.constructs.imp fun _ _ hc => hc.mono hle
    notices := h.notices.imp fun _ _ hn => hn.mono hle }

theorem markedHere {l l' : Label} (hl : l.Paired g l') (hk : s.labels.Known l) :
    (s.markedHere l).Alike g (s'.markedHere l') := by
  have hk' := (h.known hl).1 hk
  exact { h with
    labels := by simpa using h.labels
    marked := by
      intro m m' hm
      rw [markedHere_labels, markedHere_labels, Marks.marked_mark hk, Marks.marked_mark hk',
        h.label_eq hm hl, h.marked m m' hm]
    targeted := by
      intro m m' hm
      rw [markedHere_labels, markedHere_labels, Marks.targeted_mark, Marks.targeted_mark]
      exact h.targeted m m' hm
    spare := by
      intro m hm hr
      have hknown : s'.labels.Known m := ⟨hm.1, by simpa using hm.2⟩
      rw [markedHere_labels, Marks.marked_mark hk']
      exact .inr (h.spare m hknown hr) }

/-- Targets that belong together are the same labels. -/
theorem mem_targets {ls ls' : List Label} (hls : List.Forall₂ (Label.Paired g) ls ls') {m m' : Label}
    (hm : m.Paired g m') : m ∈ ls ↔ m' ∈ ls' := by
  induction hls with
  | nil => simp
  | cons hl _ ih => rw [List.mem_cons, List.mem_cons, ih, h.label_eq hm hl]

theorem jumped {j j' : Jump Label} (hj : j.Paired g j') (hk : ∀ l ∈ j.targets, s.labels.Known l)
    (hk' : ∀ l ∈ j'.targets, s'.labels.Known l) : (s.jumped j).Alike g (s'.jumped j') :=
  { h with
    fixed := by simpa [Session.jumped] using h.fixed
    labels := by simpa using h.labels
    marked := by
      intro m m' hm
      rw [jumped_labels, jumped_labels, Marks.marked_target, Marks.marked_target]
      exact h.marked m m' hm
    targeted := by
      intro m m' hm
      rw [jumped_labels, jumped_labels, Marks.targeted_target hk, Marks.targeted_target hk',
        h.targeted m m' hm, h.mem_targets hj.targets hm]
    spare := by
      intro m hm hr
      rw [jumped_labels, Marks.marked_target]
      exact h.spare m ⟨by simpa using hm.1, by simpa using hm.2⟩ hr }

theorem withConstructs {cs cs' : List Construct} (hcs : List.Forall₂ (Construct.Paired g) cs cs') :
    (s.withConstructs cs).Alike g (s'.withConstructs cs') :=
  { h with constructs := hcs }

/-- A dump is no part of what the sessions have in common. -/
theorem wrote {s'' : Session} {slots : Nat} {is : List (Instruction Nat)}
    (hw : s'.Wrote s'' slots is) : s.Alike g s'' where
  fixed := hw.grows.fixed.trans h.fixed
  slots := h.slots.more (hw.slots ▸ Nat.le_add_right ..)
  locals i k hr := by
    have hbounds := h.slots.bounds i k hr
    have hget := Array.getElem?_eq_getElem hbounds.2
    rw [hw.grows.locals hget, ← hget, h.locals i k hr]
  labels := h.labels.more hw.grows.labels_size
  finish := hw.grows.finish ▸ h.finish
  marked l l' hl := by
    have hlt := (h.labels.bounds _ _ hl.2).2
    rw [h.marked l l' hl]
    simp only [Marks.Marked, hw.markedAt hlt]
  targeted l l' hl := by
    have hlt := (h.labels.bounds _ _ hl.2).2
    rw [h.targeted l l' hl, Marks.Targeted, Marks.Targeted, hw.marks _ hlt, hw.grows.number]
  spare l hl hr := by
    rcases Nat.lt_or_ge l.id s'.labels.entries.size with hlt | hge
    · exact hw.grows.marked (h.spare l ⟨hl.1.trans hw.grows.number, hlt⟩ hr)
    · exact hw.fresh l hl hge
  loops := h.loops.more hw.grows.nextLoop
  constructs := hw.constructs ▸ h.constructs
  formatArray := hw.formatArray ▸ h.formatArray
  nextLine := hw.nextLine.trans h.nextLine
  notices := hw.notices ▸ h.notices

end Alike

end Session

end Stackwright
