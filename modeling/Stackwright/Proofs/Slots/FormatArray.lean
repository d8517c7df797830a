import Stackwright.Proofs.Structure.Discipline
import Stackwright.Proofs.Tracing.Transcripts

/-! # The local for formatted text

Calls for formatted text share a local, which the first of them declares. So it is there whenever a session has
one, whatever locals a client hands in, and it is none that the client was handed. A session **beside itself** is
a tandem, and what is known of a session alone can be part of it: then every operation keeps it.

* **`Session.Formats own s`** — the local for formatted text is among those of the session, and none of some others.
* **`Builder.formats_after`** — it is among them behind any calls of a client.
* **`Builder.declared_apart`** — it is never one that the client declared. -/

namespace Stackwright

/-- The local for formatted text, if there is one, **is among the locals** of the session, whose end label is
defined. There are others that it is none of. -/
structure Session.Formats (own : Nat → Prop) (s : Session) : Prop where
  /-- The end label is defined. -/
  labels : 0 < s.labels.entries.size
  /-- The local is there. -/
  local_lt : ∀ l, s.formatArray = some l → l.index < s.locals.size
  /-- So are the others, and it is none of them. -/
  apart : ∀ i, own i → i < s.locals.size ∧ ∀ l, s.formatArray = some l → i ≠ l.index

namespace Session.Formats

variable {own : Nat → Prop} {s s' : Session}

/-- It is as long as the local stays the same and none is given back. -/
theorem of_same (hs : s.Formats own) (hlabels : s.labels.entries.size ≤ s'.labels.entries.size)
    (hlocals : s.locals.size ≤ s'.locals.size) (hformat : s'.formatArray = s.formatArray) : s'.Formats own where
  labels := Nat.lt_of_lt_of_le hs.labels hlabels
  local_lt l hl := Nat.lt_of_lt_of_le (hs.local_lt l (hformat ▸ hl)) hlocals
  apart i hi := ⟨Nat.lt_of_lt_of_le (hs.apart i hi).1 hlocals, fun l hl => (hs.apart i hi).2 l (hformat ▸ hl)⟩

/-- A line declares nothing. -/
theorem written (hs : s.Formats own) (t : Tracer) (text : String) : (s.written t text).Formats own :=
  hs.of_same (Nat.le_of_eq (by rw [labels_written])) (Nat.le_of_eq (by rw [locals_written])) (by simp)

/-- A new local is behind it. -/
theorem declared (hs : s.Formats own) (t : Ty) (name : String) : (s.declared t name).Formats own :=
  hs.of_same (Nat.le_refl _) (by simp [Session.declared]) rfl

/-- Neither does handing over what was made known. -/
theorem delivered (hs : s.Formats own) : Session.Formats own { s with notices := #[] } :=
  hs.of_same (Nat.le_refl _) (Nat.le_refl _) rfl

end Session.Formats

namespace Tandem

/-- A session **beside itself**. -/
def itself (own : Nat → Prop) (level : TraceDetail) : Tandem where
  left := .ofLevel level
  right := .ofLevel level
  texts g x x' := g ≤ .same → x' = x
  sessions g s s' := g = .same ∧ s' = s ∧ s.Formats own

variable {own : Nat → Prop} {level : TraceDetail} {g : Pairing} {s s' : Session}

/-- The dump of a value leaves the local where it is. -/
theorem run_probe (level : TraceDetail) (t : Ty) (hs : s.Formats own) :
    ∃ s₁, ((Emit.probe t).run (.ofLevel level)).run s = .ok () s₁ ∧ s₁.Formats own := by
  cases level with
  | off => exact ⟨s, rfl, hs⟩
  | log => exact ⟨s, rfl, hs⟩
  | full =>
    obtain ⟨s₁, hrun, hwrote⟩ := Emit.run_showTop t hs.labels
    exact ⟨s₁, hrun, hs.of_same hwrote.grows.labels_size (hwrote.slots ▸ Nat.le_add_right _ _) hwrote.formatArray⟩

/-- The local is looked up where it is, or declared. -/
theorem run_lookUp (t : Tracer) (hs : s.Formats own) : ∃ l s₁, (Emit.formatArray.run t).run s = .ok l s₁ ∧ s₁.Formats own := by
  unfold Emit.formatArray
  rw [Emit.run_bind, Emit.run_get]
  dsimp only
  cases hl : s.formatArray with
  | some l => exact ⟨l, s, rfl, hs⟩
  | none =>
    dsimp only
    rw [Emit.run_bind, Emit.run_newLocal]
    have hdeclared := hs.declared (.array .object) "stringFormatArray"
    have hwritten := hdeclared.written t
      ("    " ++ ("// Declare local '" ++ "stringFormatArray" ++ "' of type " ++ (Ty.array .object).path))
    refine ⟨_, _, rfl, hwritten.labels, fun m hm => ?_, fun i hi => ⟨(hwritten.apart i hi).1, fun m hm => ?_⟩⟩
    · obtain rfl := Option.some.inj hm
      show s.locals.size < (Session.written _ t _).locals.size
      rw [Session.locals_written, Session.declared, Array.size_push]
      exact Nat.lt_succ_self _
    · obtain rfl := Option.some.inj hm
      exact Nat.ne_of_lt (hs.apart i hi).1

theorem straight_itself (own : Nat → Prop) (level : TraceDetail) : (itself own level).Straight where
  signature h := by rw [h.2.1]
  recorded := by
    rintro _ s _ ⟨rfl, rfl, hs⟩ o o' ho
    exact ⟨rfl, by rw [ho.eq], hs.of_same (Nat.le_refl _) (Nat.le_refl _) rfl⟩
  returned := by
    rintro _ s _ ⟨rfl, rfl, hs⟩
    exact ⟨rfl, rfl, hs.of_same (Nat.le_refl _) (Nat.le_refl _) rfl⟩
  same _ _ _ := rfl
  later hle h hle' := h (hle.trans hle')
  named := by
    rintro _ s _ ⟨rfl, rfl, -⟩ l l' hl x -
    rw [hl.eq]
  written := by
    rintro _ s _ ⟨rfl, rfl, hs⟩ x x' hx
    rw [hx le_rfl]
    exact ⟨rfl, rfl, hs.written _ _⟩
  shown g t := by
    rintro _ _ s _ ⟨rfl, rfl, hs⟩
    obtain ⟨s₁, hrun, hs₁⟩ := run_probe level t hs
    exact .of_ok hrun hrun le_rfl ⟨rfl, rfl, hs₁⟩ trivial
  declared := by
    rintro _ s _ ⟨rfl, rfl, hs⟩ t name
    exact ⟨.same, le_rfl, rfl, rfl, rfl, hs.declared t name⟩
  formatted g := by
    rintro _ _ s _ ⟨rfl, rfl, hs⟩
    obtain ⟨l, s₁, hrun, hs₁⟩ := run_lookUp (.ofLevel level) hs
    exact .of_ok hrun hrun le_rfl ⟨rfl, rfl, hs₁⟩ l.paired_same

/-- Beside itself a session **stays**. -/
theorem structured_itself (own : Nat → Prop) (level : TraceDetail) : (itself own level).Structured where
  toStraight := straight_itself own level
  session h := by rw [h.2.1]
  labels := by
    rintro _ s _ ⟨rfl, rfl, -⟩ l l' m m' hl hm
    rw [hl.eq, hm.eq]
  loops := by
    rintro _ s _ ⟨rfl, rfl, -⟩ h h' k k' hh hk
    rw [hh.eq, hk.eq]
  known := by
    rintro _ s _ ⟨rfl, rfl, -⟩ l l' hl
    rw [hl.eq]
  marked := by
    rintro _ s _ ⟨rfl, rfl, -⟩ l l' hl
    rw [hl.eq]
  labelled := by
    intro g l l' hl x y hle
    rw [(hl.mono hle).eq]
  defined := by
    rintro _ s _ ⟨rfl, rfl, hs⟩
    exact ⟨_, le_rfl, rfl, rfl, rfl, hs.of_same (by simp [Session.defined, Marks.define]) (Nat.le_refl _) rfl⟩
  jumped := by
    rintro _ s _ ⟨rfl, rfl, hs⟩ j j' hj _ _
    rw [hj.eq]
    exact ⟨rfl, rfl, hs.of_same (by simp) (Nat.le_refl _) rfl⟩
  markedHere := by
    rintro _ s _ ⟨rfl, rfl, hs⟩ l l' hl _ _
    rw [hl.eq]
    exact ⟨rfl, rfl, hs.of_same (by simp [Session.markedHere]) (Nat.le_refl _) rfl⟩
  constructs := by
    rintro _ s _ ⟨rfl, rfl, -⟩
    exact List.forall₂_same.2 fun c _ => c.paired_same
  withConstructs := by
    rintro _ s _ ⟨rfl, rfl, hs⟩ cs cs' hcs
    rw [eq_of_forall₂ (fun _ _ => Construct.Paired.eq) hcs]
    exact ⟨rfl, rfl, hs.of_same (Nat.le_refl _) (Nat.le_refl _) rfl⟩
  numbered := by
    rintro _ s _ ⟨rfl, rfl, hs⟩
    exact ⟨_, le_rfl, rfl, rfl, rfl, hs.of_same (Nat.le_refl _) (Nat.le_refl _) rfl⟩

end Tandem

namespace Builder

variable {own : Nat → Prop} {level : TraceDetail} {b : Builder} {s s' : Session} {cs : List Call}

/-- A new session has no such local. -/
theorem formats_begin (number : Nat) (name : String) (signature : Signature) (sink : Sink) (level : TraceDetail) :
    ∃ s, (begin number name signature sink level).builder.state = .building s ∧ s.Formats fun _ => False := by
  obtain ⟨x, hrun⟩ := Emit.run_begin (.ofLevel level) (.fresh number name signature sink)
  have hnoticed : Session.Formats (fun _ => False) { Session.fresh number name signature sink with
      notices := #[.message .debug x] } := ⟨Nat.zero_lt_one, nofun, nofun⟩
  have hwritten := hnoticed.written (.ofLevel level) ("Begin method " ++ name ++ " \x7b")
  refine ⟨_, ?_, hwritten.delivered⟩
  rw [begin, submit]
  dsimp only
  rw [show (Emit.begin.run (.ofLevel level)).run (.fresh number name signature sink) = _ from hrun]
  rfl

/-- What an operation leaves has the local where it is. -/
theorem formats_perform {o : Operation} (h : b.state = .building s) (hs : s.Formats own)
    (h' : (b.perform o).builder.state = .building s') : s'.Formats own := by
  have hnames : Renaming.id.Paired .same o .id :=
    ⟨fun l _ => l.paired_same, fun l _ => l.paired_same, fun _ _ => ⟨rfl, rfl⟩⟩
  have hagree := (Tandem.structured_itself own b.level).perform hnames .same le_rfl s s ⟨rfl, rfl, hs⟩
  rw [Operation.rename_id] at hagree
  cases hrun : (o.perform.run (.ofLevel b.level)).run s with
  | ok a s₁ =>
    rw [perform_ok h hrun] at h'
    cases h'
    have hside : (o.perform.run (Tandem.itself own b.level).left).run s = .ok a s₁ := hrun
    rw [hside] at hagree
    generalize (o.perform.run (Tandem.itself own b.level).right).run s = r at hagree
    cases hagree with
    | ok _ hs₁ => exact hs₁.2.2.delivered
  | error e s₁ =>
    rw [(perform_error h hrun).2] at h'
    cases h'

/-- So do any calls. -/
theorem formats_calls (h : b.state = .building s) (hs : s.Formats own) (h' : (b.after cs).state = .building s') :
    s'.Formats own := by
  obtain ⟨os, rfl⟩ := operations_of_after h'
  induction os generalizing b s with
  | nil =>
    rw [List.map_nil, after, h] at h'
    cases h'
    exact hs
  | cons o os ih =>
    obtain ⟨s₁, hs₁⟩ : ∃ s₁, (b.perform o).builder.state = .building s₁ := building_of_after h'
    exact ih hs₁ (formats_perform h hs hs₁) h'

variable {number : Nat} {name x : String} {signature : Signature} {sink : Sink}

/-- Behind **any calls** of a client the local for formatted text is one of the session. -/
theorem formats_after (h : ((begin number name signature sink level).builder.after cs).state = .building s) :
    s.Formats fun _ => False := by
  obtain ⟨s₀, hs₀, hformats⟩ := formats_begin number name signature sink level
  exact formats_calls hs₀ hformats h

/-- A local **that a client declared** is never the one for formatted text, whatever calls follow. -/
theorem declared_apart {cs' : List Call} {t : Ty} {l : Local}
    (hb : (begin number name signature sink level).builder.after cs = b)
    (hl : (b.perform (.newLocal t x)).result = .ok (.variable l))
    (h : ((b.perform (.newLocal t x)).builder.after cs').state = .building s') :
    l.index < s'.locals.size ∧ ∀ y, s'.formatArray = some y → l.index ≠ y.index := by
  have hcalls : (b.after (.perform (.newLocal t x) :: cs')).state = .building s' := h
  obtain ⟨s, hs⟩ := building_of_after hcalls
  have hformats := formats_after (hb ▸ hs)
  have hrun : ((Operation.newLocal t x).perform.run (.ofLevel b.level)).run s = .ok (.variable ⟨s.locals.size, t⟩)
      ((s.declared t x).written (.ofLevel b.level) ("    " ++ ("// Declare local '" ++ x ++ "' of type " ++ t.path))) := by
    rw [Operation.perform, ← bind_pure_comp, Emit.run_bind, Emit.run_newLocal]
    rfl
  rw [perform_ok hs hrun] at hl h
  obtain rfl := Answer.variable.inj (Except.ok.inj hl)
  -- when it was declared the other one was there, or comes later
  have hdeclared : Session.Formats (· = s.locals.size) (s.declared t x) :=
    ⟨hformats.labels, (hformats.declared t x).local_lt, fun i hi => ⟨hi ▸ by simp [Session.declared],
      fun y hy => hi ▸ Nat.ne_of_gt (hformats.local_lt y hy)⟩⟩
  have hlater := formats_calls rfl (hdeclared.written _ _).delivered h
  exact hlater.apart s.locals.size rfl

end Builder

end Stackwright
