import Stackwright.Proofs.Builder.Fitting
import Stackwright.Proofs.Tracing.Beside

/-! # Code with interludes

A session that traces in full records what one that logs does, and interludes between. So the code of the second
is woven of the code of the first and of interludes: there is a way through both at once that passes an instruction
of both, or an interlude of the second. Since labels that belong together are marked where the two have got to, a
jump of both leads to where such a way goes on.

* **`Session.Weave g s s' x y`** — one step of such a way.
* **`Session.Woven g s s'`** — the code of the second session is woven of that of the first and of interludes.
* **`Session.Traced sink g s s'`** — what a session that logs and one that traces in full to a sink have in common,
  their code among it.
* **`Tandem.structured_shown`** — no emission call parts them. -/

namespace Stackwright

open Relation (ReflTransGen)

/-! ## Sessions -/

/-- The same instruction, with the local and the labels that belong to its own. -/
inductive Instruction.Paired (g : Pairing) : Instruction Label → Instruction Label → Prop
  | op {o o' : Op} (h : o.Paired g o') : Paired g (.op o) (.op o')
  | jump {j j' : Jump Label} (h : j.Paired g j') : Paired g (.jump j) (.jump j')
  | ret : Paired g .ret .ret

theorem Instruction.Paired.mono {g g' : Pairing} (hle : g ≤ g') {i i' : Instruction Label} (h : i.Paired g i') :
    i.Paired g' i' := by
  cases h with
  | op h => exact .op (h.mono hle)
  | jump h => exact .jump (h.mono hle)
  | ret => exact .ret

namespace Session

/-- A local that belongs to none of the first session. -/
def Own (g : Pairing) (s' : Session) (k : Nat) : Prop := k < s'.locals.size ∧ ∀ i, ¬ g.slots i k

/-- One step through the code of two sessions: an instruction of both, or an interlude of the second. -/
inductive Weave (g : Pairing) (s s' : Session) : Nat × Nat → Nat × Nat → Prop
  /-- The instructions belong together. -/
  | both {n n' : Nat} {i i' : Instruction Label} (hi : s.code[n]? = some i) (hi' : s'.code[n']? = some i')
      (h : i.Paired g i') : Weave g s s' (n, n') (n + 1, n' + 1)
  /-- The first session has nothing here. -/
  | aside {n n' : Nat} {is : List (Instruction Nat)} (his : s'.Spells n' is)
      (h : Interlude s'.sink (s'.Own g) n' is) : Weave g s s' (n, n') (n, n' + is.length)

/-- The code of the second session is **woven** of the code of the first one and of interludes, and behind labels
that belong together, too. -/
structure Woven (g : Pairing) (s s' : Session) : Prop where
  /-- There is a way through the code. -/
  whole : ReflTransGen (Weave g s s') (0, 0) (s.code.size, s'.code.size)
  /-- There is one from each label on. -/
  behind : ∀ (l l' : Label) (n n' : Nat), l.Paired g l' → s.labels.MarkedAt l n → s'.labels.MarkedAt l' n' →
    ReflTransGen (Weave g s s') (n, n') (s.code.size, s'.code.size)

/-- Two sessions go on **abreast**, with no new local for what had one. -/
structure Abreast (g g' : Pairing) (s s' t t' : Session) : Prop where
  /-- The first session goes on. -/
  left : s.Extends t
  /-- So does the second one. -/
  right : s'.Extends t'
  /-- What belonged together does. -/
  pairing : g ≤ g'
  /-- Traces go where they went. -/
  sink : t'.sink = s'.sink
  /-- There are no fewer locals. -/
  locals : s'.locals.size ≤ t'.locals.size
  /-- The locals of the second session that belonged to none of the first do not. -/
  slots : ∀ i k, g'.slots i k → g.slots i k ∨ s'.locals.size ≤ k

section abreast

variable {g g' : Pairing} {s s' t t' : Session} {x y : Nat × Nat}

theorem Weave.abreast (h : Weave g s s' x y) (ho : Abreast g g' s s' t t') : Weave g' t t' x y := by
  cases h with
  | both hi hi' h => exact .both (ho.left.code _ _ hi) (ho.right.code _ _ hi') (h.mono ho.pairing)
  | aside his h =>
    refine .aside (his.extends ho.right) (ho.sink ▸ h.mono fun k hk => ⟨Nat.lt_of_lt_of_le hk.1 ho.locals, ?_⟩)
    intro i hi
    rcases ho.slots i k hi with hi | hle
    · exact hk.2 i hi
    · exact Nat.not_lt.2 hle hk.1

/-- A way through the code is one when the sessions go on. -/
theorem Weave.way (h : ReflTransGen (Weave g s s') x y) (ho : Abreast g g' s s' t t') :
    ReflTransGen (Weave g' t t') x y := by
  induction h with
  | refl => exact .refl
  | tail _ hstep ih => exact ih.tail (hstep.abreast ho)

/-- Code that is woven stays so when the sessions go on with code that is, and what they mark is marked behind
it. -/
theorem Woven.abreast (h : Woven g s s') (ho : Abreast g g' s s' t t')
    (htail : ReflTransGen (Weave g' t t') (s.code.size, s'.code.size) (t.code.size, t'.code.size))
    (hmarks : ∀ (l l' : Label) (n n' : Nat), l.Paired g' l' → t.labels.MarkedAt l n → t'.labels.MarkedAt l' n' →
      l.Paired g l' ∧ s.labels.MarkedAt l n ∧ s'.labels.MarkedAt l' n' ∨ n = t.code.size ∧ n' = t'.code.size) :
    Woven g' t t' where
  whole := (Weave.way h.whole ho).trans htail
  behind l l' n n' hl hn hn' := by
    obtain ⟨hl, hn, hn'⟩ | ⟨rfl, rfl⟩ := hmarks l l' n n' hl hn hn'
    · exact (Weave.way (h.behind l l' n n' hl hn hn') ho).trans htail
    · exact .refl

/-- Neither session marks anything. -/
theorem Woven.unmarked (h : Woven g s s') (ho : Abreast g g s s' t t')
    (htail : ReflTransGen (Weave g t t') (s.code.size, s'.code.size) (t.code.size, t'.code.size))
    (hleft : ∀ l n, t.labels.MarkedAt l n → s.labels.MarkedAt l n)
    (hright : ∀ l n, t'.labels.MarkedAt l n → s'.labels.MarkedAt l n) : Woven g t t' :=
  h.abreast ho htail fun l l' n n' hl hn hn' => .inl ⟨hl, hleft l n hn, hright l' n' hn'⟩

end abreast

/-! ### Changes -/

namespace Woven

variable {g : Pairing} {s s' : Session} (h : s.Woven g s')

include h

/-- An instruction of both sessions is recorded. -/
theorem pushed {i i' : Instruction Label} (hi : i.Paired g i') {t t' : Session} (ho : Abreast g g s s' t t')
    (hcode : t.code = s.code.push i) (hcode' : t'.code = s'.code.push i')
    (hleft : ∀ l n, t.labels.MarkedAt l n → s.labels.MarkedAt l n)
    (hright : ∀ l n, t'.labels.MarkedAt l n → s'.labels.MarkedAt l n) : t.Woven g t' := by
  refine h.unmarked ho ?_ hleft hright
  rw [hcode, hcode', Array.size_push, Array.size_push]
  refine .single (.both ?_ ?_ hi)
  · rw [hcode, Array.getElem?_push_size]
  · rw [hcode', Array.getElem?_push_size]

theorem recorded {o o' : Op} (ho : o.Paired g o') : (s.recorded [o]).Woven g (s'.recorded [o']) := by
  refine h.pushed (.op ho) ⟨(s.grows_recorded [o]).extends, (s'.grows_recorded [o']).extends, le_rfl, rfl, le_rfl,
    fun _ _ h => .inl h⟩ ?_ ?_ (fun _ _ h => h) fun _ _ h => h
  · simp
  · simp

theorem returned : ({ s with code := s.code.push .ret } : Session).Woven g { s' with code := s'.code.push .ret } :=
  h.pushed .ret ⟨(Change.record .ret rfl).grows.extends, (Change.record .ret rfl).grows.extends, le_rfl, rfl, le_rfl,
    fun _ _ h => .inl h⟩ rfl rfl (fun _ _ h => h) fun _ _ h => h

theorem jumped {j j' : Jump Label} (hj : j.Paired g j') : (s.jumped j).Woven g (s'.jumped j') :=
  h.pushed (.jump hj) ⟨s.extends_jumped j, s'.extends_jumped j', le_rfl, rfl, le_rfl, fun _ _ h => .inl h⟩ rfl rfl
    (fun _ _ hp => Marks.markedAt_target.1 hp) fun _ _ hp => Marks.markedAt_target.1 hp

/-- Nothing is recorded or marked. -/
theorem kept {t t' : Session} (ho : Abreast g g s s' t t') (hcode : t.code = s.code) (hcode' : t'.code = s'.code)
    (hlabels : t.labels = s.labels) (hlabels' : t'.labels = s'.labels) : t.Woven g t' := by
  refine h.unmarked ho ?_ (fun _ _ hp => hlabels ▸ hp) fun _ _ hp => hlabels' ▸ hp
  rw [hcode, hcode']

theorem withConstructs (cs cs' : List Construct) : (s.withConstructs cs).Woven g (s'.withConstructs cs') :=
  h.kept ⟨s.extends_withConstructs cs, s'.extends_withConstructs cs', le_rfl, rfl, le_rfl, fun _ _ h => .inl h⟩
    rfl rfl rfl rfl

theorem formatted (l l' : Local) :
    ({ s with formatArray := some l } : Session).Woven g { s' with formatArray := some l' } :=
  h.kept ⟨(Change.format l).grows.extends, (Change.format l').grows.extends, le_rfl, rfl, le_rfl,
    fun _ _ h => .inl h⟩ rfl rfl rfl rfl

theorem notified (n n' : Notice) : ({ s with notices := s.notices.push n } : Session).Woven g
    { s' with notices := s'.notices.push n' } :=
  h.kept ⟨(Change.notify n).grows.extends, (Change.notify n').grows.extends, le_rfl, rfl, le_rfl,
    fun _ _ h => .inl h⟩ rfl rfl rfl rfl

theorem delivered : ({ s with notices := #[] } : Session).Woven g { s' with notices := #[] } :=
  h.kept ⟨Change.deliver.grows.extends, Change.deliver.grows.extends, le_rfl, rfl, le_rfl, fun _ _ h => .inl h⟩
    rfl rfl rfl rfl

/-- What the second session writes on its own is an interlude. -/
theorem wentOn {s'' : Session} {is : List (Instruction Nat)} (hw : s'.WentOn s'' is)
    (hi : Interlude s''.sink (s''.Own g) s'.code.size is)
    (hmarks : ∀ (l l' : Label) (n : Nat), l.Paired g l' → s''.labels.MarkedAt l' n → s'.labels.MarkedAt l' n) :
    s.Woven g s'' := by
  have ho : Abreast g g s s' s s'' := ⟨.refl s, hw.grows.extends, le_rfl, hw.grows.sink, hw.grows.locals_size,
    fun _ _ h => .inl h⟩
  refine h.abreast ho ?_ fun l l' n n' hl hn hn' => .inl ⟨hl, hn, hmarks l l' n' hl hn'⟩
  rw [hw.size]
  exact .single (.aside hw.spells hi)

/-- A line is reported by the second session alone. -/
theorem written (x x' : String) :
    (s.written (.ofLevel .log) x).Woven g (s'.written (.ofLevel .full) x') := by
  have hleft : Abreast g g s s' (s.written (.ofLevel .log) x) s' :=
    ⟨(s.grows_written _ x).extends, .refl s', le_rfl, rfl, le_rfl, fun _ _ h => .inl h⟩
  have hlogged : (s.written (.ofLevel .log) x).Woven g s' := by
    refine h.kept hleft ?_ rfl (by simp) rfl
    rw [code_written]
    simp [Tracer.report, Tracer.ofLevel]
  refine hlogged.wentOn (s'.wentOn_written _ x') ?_ fun l l' n _ hn => by simpa using hn
  exact .report _

/-- A value is shown by the second session alone. -/
theorem shown (t : Ty) {s'' : Session} (hbounds : ∀ i k, g.slots i k → k < s'.locals.size)
    (hlabels : ∀ i k, g.labels i k → k < s'.labels.entries.size)
    (hw : s'.Wrote s'' (t.textSlots + 1) (t.dumpCode s'.sink s'.code.size s'.locals.size)) : s.Woven g s'' := by
  refine h.wentOn hw.wentOn ?_ fun l l' n hl hn => (hw.markedAt (hlabels _ _ hl.2)).1 hn
  rw [hw.grows.sink]
  refine .dump t fun i hi => ⟨?_, fun k hk => ?_⟩
  · have := hw.slots
    omega
  · have := hbounds _ _ hk
    omega

theorem declared (t : Ty) (name : String) :
    (s.declared t name).Woven (g.withSlot s.locals.size s'.locals.size) (s'.declared t name) := by
  have ho : Abreast g (g.withSlot s.locals.size s'.locals.size) s s' (s.declared t name) (s'.declared t name) := {
    left := (Change.declare t name).grows.extends
    right := (Change.declare t name).grows.extends
    pairing := g.le_withSlot _ _
    sink := rfl
    locals := by simp
    slots := by
      rintro i k (hr | ⟨-, rfl⟩)
      · exact .inl hr
      · exact .inr (Nat.le_refl _) }
  exact h.abreast ho .refl fun l l' n n' hl hn hn' => .inl ⟨hl, hn, hn'⟩

theorem defined : s.defined.Woven (g.withLabel s.labels.entries.size s'.labels.entries.size) s'.defined := by
  have ho : Abreast g (g.withLabel s.labels.entries.size s'.labels.entries.size) s s' s.defined s'.defined :=
    ⟨Change.define.grows.extends, Change.define.grows.extends, g.le_withLabel _ _, rfl, le_rfl, fun _ _ h => .inl h⟩
  refine h.abreast ho .refl fun l l' n n' hl hn hn' => ?_
  have hn : s.labels.MarkedAt l n := Marks.markedAt_define.1 hn
  have hn' : s'.labels.MarkedAt l' n' := Marks.markedAt_define.1 hn'
  -- the new labels are not marked yet
  obtain hl | ⟨hid, -⟩ := hl.of_withLabel
  · exact .inl ⟨hl, hn, hn'⟩
  · exact absurd hn.known.2 (Nat.not_lt.2 (Nat.le_of_eq hid.symm))

theorem numbered : s.numbered.Woven (g.withLoop s.nextLoop s'.nextLoop) s'.numbered := by
  have ho : Abreast g (g.withLoop s.nextLoop s'.nextLoop) s s' s.numbered s'.numbered :=
    ⟨Change.loop.grows.extends, Change.loop.grows.extends, g.le_withLoop _ _, rfl, le_rfl, fun _ _ h => .inl h⟩
  exact h.abreast ho .refl fun l l' n n' hl hn hn' => .inl ⟨hl, hn, hn'⟩

/-- Labels that belong together are marked where both sessions have got to. -/
theorem markedHere (halike : s.Alike g s') {l l' : Label} (hl : l.Paired g l') (hk : s.labels.Known l)
    (hm : ¬ s.labels.Marked l) : (s.markedHere l).Woven g (s'.markedHere l') := by
  have hk' := (halike.known hl).1 hk
  have hm' := mt (halike.marked l l' hl).2 hm
  have ho : Abreast g g s s' (s.markedHere l) (s'.markedHere l') :=
    ⟨extends_markedHere hk hm, extends_markedHere hk' hm', le_rfl, rfl, le_rfl, fun _ _ h => .inl h⟩
  refine h.abreast ho .refl fun m m' n n' hmm hn hn' => ?_
  rw [markedHere_labels, Marks.markedAt_mark hk] at hn
  rw [markedHere_labels, Marks.markedAt_mark hk'] at hn'
  rcases hn with ⟨heq, rfl⟩ | ⟨hne, hn⟩
  · rcases hn' with ⟨-, rfl⟩ | ⟨hne', -⟩
    · exact .inr ⟨rfl, rfl⟩
    · exact absurd ((halike.label_eq hmm hl).1 heq) hne'
  · rcases hn' with ⟨heq', -⟩ | ⟨-, hn'⟩
    · exact absurd ((halike.label_eq hmm hl).2 heq') hne
    · exact .inl ⟨hmm, hn, hn'⟩

end Woven

end Session

/-! ## Tandems -/

/-- A session that logs and one that traces in full **to a sink**: what they have in common, and how the code of the
second is woven. -/
structure Session.Traced (sink : Sink) (g : Pairing) (s s' : Session) : Prop extends Session.Alike g s s' where
  /-- Traces go to the sink. -/
  sink : s'.sink = sink
  /-- The code is woven. -/
  woven : s.Woven g s'

namespace Session.Traced

variable {sink : Sink} {g : Pairing} {s s' : Session} (h : s.Traced sink g s')

include h

/-- Two lines that belong together are written, and the second one is reported. -/
theorem written {x x' : String} (hx : Text.Alike g x x') :
    (s.written (.ofLevel .log) x).Traced sink g (s'.written (.ofLevel .full) x') where
  toAlike := h.toAlike.written hx
  sink := (s'.grows_written _ x').sink.trans h.sink
  woven := h.woven.written x x'

/-- A local is declared in both. -/
theorem declared (t : Ty) (name : String) :
    (s.declared t name).Traced sink (g.withSlot s.locals.size s'.locals.size) (s'.declared t name) where
  toAlike := h.toAlike.declared t name
  sink := h.sink
  woven := h.woven.declared t name

/-- A dump of the second is an interlude. -/
theorem wrote (t : Ty) {s'' : Session}
    (hw : s'.Wrote s'' (t.textSlots + 1) (t.dumpCode s'.sink s'.code.size s'.locals.size)) : s.Traced sink g s'' where
  toAlike := h.toAlike.wrote hw
  sink := hw.grows.sink.trans h.sink
  woven := h.woven.shown t (fun i k hik => (h.slots.bounds i k hik).2) (fun i k hik => (h.labels.bounds i k hik).2) hw

end Session.Traced

namespace Tandem

variable (sink : Sink)

/-- A session that logs, **besides one that traces in full**. -/
def shown : Tandem where
  left := .ofLevel .log
  right := .ofLevel .full
  texts := Text.Alike
  sessions := Session.Traced sink

variable {sink}

theorem shown_declared {g : Pairing} {s s' : Session} (h : (shown sink).sessions g s s') (t : Ty)
    (name : String) : ∃ g', g ≤ g' ∧ g'.slots s.locals.size s'.locals.size ∧
      (shown sink).sessions g' (s.declared t name) (s'.declared t name) :=
  ⟨_, g.le_withSlot _ _, .inr ⟨rfl, rfl⟩, Session.Traced.declared h t name⟩

theorem straight_shown : (shown sink).Straight where
  signature h := h.toAlike.signature
  recorded h _ _ ho := ⟨h.toAlike.recorded _ _, h.sink, h.woven.recorded ho⟩
  returned h := ⟨h.toAlike.returned, h.sink, h.woven.returned⟩
  same _ x := .same x
  later hle h := h.mono hle
  named h l l' hl x := by
    refine .of_eq ?_
    rw [Session.nameOf, Session.nameOf, h.toAlike.locals _ _ hl.2]
  written h _ _ hx := Session.Traced.written h hx
  shown g t := by
    intro g' _ s s' h
    have hpos : 0 < s'.labels.entries.size :=
      Nat.lt_of_le_of_lt (Nat.zero_le _) (h.labels.bounds _ _ h.finish.2).2
    obtain ⟨s'', hrun, hwrote⟩ := Emit.run_showTop t hpos
    have hleft : ((Emit.probe t).run (shown sink).left).run s = .ok () s := rfl
    have hright : ((Emit.probe t).run (shown sink).right).run s' = .ok () s'' := hrun
    exact .of_ok hleft hright le_rfl (Session.Traced.wrote h t hwrote) trivial
  declared := shown_declared
  formatted :=
    inStep_formatArray
      (fun _ => inStep_newLocal shown_declared (fun h _ => Session.Traced.written h (.same _)) _ _)
      (fun h => h.toAlike.formatArray)
      fun h l l' hl => ⟨{ h.toAlike with formatArray := .some hl }, h.sink, h.woven.formatted l l'⟩

/-- What a session that logs and one that traces in full have in common **stays**. -/
theorem structured_shown : (shown sink).Structured where
  toStraight := straight_shown
  session h := h.toAlike.session
  labels h _ _ _ _ hl hm := h.toAlike.label_eq hl hm
  loops h _ _ _ _ hk hj := h.toAlike.loop_eq hk hj
  known h _ _ hl := h.toAlike.known hl
  marked h _ _ hl := h.toAlike.marked _ _ hl
  labelled hl x y := .label hl x y
  defined h := ⟨_, Pairing.le_withLabel _ _ _, .inr ⟨rfl, rfl⟩, h.toAlike.defined, h.sink, h.woven.defined⟩
  jumped h _ _ hj hk hk' := ⟨h.toAlike.jumped hj hk hk', h.sink, h.woven.jumped hj⟩
  markedHere h _ _ hl hk hm := ⟨h.toAlike.markedHere hl hk, h.sink, h.woven.markedHere h.toAlike hl hk hm⟩
  constructs h := h.toAlike.constructs
  withConstructs h _ _ hcs := ⟨h.toAlike.withConstructs hcs, h.sink, h.woven.withConstructs _ _⟩
  numbered h := ⟨_, Pairing.le_withLoop _ _ _, .inr ⟨rfl, rfl⟩, h.toAlike.numbered, h.sink, h.woven.numbered⟩

end Tandem

end Stackwright
