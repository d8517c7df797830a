import Stackwright.Builder
import Stackwright.Proofs.Tracing.Dumps
import Stackwright.Proofs.Tracing.Structured

/-! # Calls that spare the open constructs

A straight-line call loads, stores, converts and calls. Whatever is traced, it leaves the open constructs
and the labels that were there as they are: the only labels that it may define belong to the dump of a
value, and the dump marks each of them. Whether it is accepted depends on the signature of the procedure
alone, so it is known from a run on a new session.

* **`Session.Spares s s'`** — what such a call leaves alone.
* **`Emit.Sparing e`** — an emission call that spares every session, at every level.
* **`Emit.Accepted g e`** — the call is accepted by a new session of a signature. -/

namespace Stackwright

/-! ## Sessions that calls can rely on -/

/-- The labels that an open loop remembers for jumps of later calls: the **head** of a while loop, and the
label behind any other loop. -/
def Construct.goals : Construct → List Label
  | .whileLoop head => [head]
  | .counted loop | .enumerated loop => loop.exit.toList
  | .conditional .. | .switch .. => []

namespace Session

/-- What every session keeps to: the end label is defined, what open loops jump to is known, and the local
for the operands of formatted text holds an array of objects. -/
structure Fit (s : Session) : Prop where
  /-- The end label is defined. -/
  labels : 0 < s.labels.entries.size
  /-- What an open loop jumps to is known. -/
  goals : ∀ c ∈ s.constructs, ∀ l ∈ c.goals, s.labels.Known l
  /-- The local for formatted text has the type that formatting gives it. -/
  formatArray : ∀ l, s.formatArray = some l → l.type = .array .object

theorem fit_fresh (number : Nat) (name : String) (signature : Signature) (sink : Sink) :
    (fresh number name signature sink).Fit :=
  ⟨Nat.zero_lt_one, nofun, nofun⟩

/-- A session went on and **spared** its constructs and its labels. -/
structure Spares (s s' : Session) : Prop where
  /-- The session grew. -/
  grows : s.Grows s'
  /-- It is still fit. -/
  fit : s'.Fit
  /-- The same constructs are open. -/
  constructs : s'.constructs = s.constructs
  /-- What is known of the labels stays. -/
  marks : ∀ i < s.labels.entries.size, s'.labels.entries[i]? = s.labels.entries[i]?
  /-- Every new label is marked. -/
  fresh : ∀ l, s'.labels.Known l → s.labels.entries.size ≤ l.id → s'.labels.Marked l

variable {s s' s'' : Session}

/-- The procedure takes the same arguments. -/
theorem Grows.signature (h : s.Grows s') : s'.signature = s.signature :=
  congrArg (fun fixed => fixed.2.1) h.fixed

/-- A label stays known. -/
theorem Grows.known (h : s.Grows s') {l : Label} (hl : s.labels.Known l) : s'.labels.Known l :=
  ⟨hl.1.trans h.number.symm, Nat.lt_of_lt_of_le hl.2 h.labels_size⟩

theorem Spares.refl (hs : s.Fit) : s.Spares s where
  grows := .refl s
  fit := hs
  constructs := rfl
  marks _ _ := rfl
  fresh _ hl hsize := absurd hl.2 (Nat.not_lt.2 hsize)

theorem Spares.trans (h : s.Spares s') (h' : s'.Spares s'') : s.Spares s'' where
  grows := h.grows.trans h'.grows
  fit := h'.fit
  constructs := h'.constructs.trans h.constructs
  marks i hi := by
    rw [h'.marks i (Nat.lt_of_lt_of_le hi h.grows.labels_size), h.marks i hi]
  fresh l hl hsize := by
    rcases Nat.lt_or_ge l.id s'.labels.entries.size with hlt | hge
    · exact h'.grows.marked (h.fresh l ⟨hl.1.trans h'.grows.number, hlt⟩ hsize)
    · exact h'.fresh l hl hge

/-- Growing by what touches neither labels nor constructs spares them. -/
theorem Spares.of_same (hs : s.Fit) (hgrows : s.Grows s') (hlabels : s'.labels = s.labels)
    (hconstructs : s'.constructs = s.constructs)
    (hformat : ∀ l, s'.formatArray = some l → l.type = .array .object) : s.Spares s' where
  grows := hgrows
  fit := ⟨by rw [hlabels]; exact hs.labels, by rw [hlabels, hconstructs]; exact hs.goals, hformat⟩
  constructs := hconstructs
  marks i _ := by rw [hlabels]
  fresh l hl hsize := by
    rw [hlabels] at hl
    exact absurd hl.2 (Nat.not_lt.2 hsize)

@[simp] theorem formatArray_written (t : Tracer) (text : String) :
    (s.written t text).formatArray = s.formatArray := by
  unfold written
  split <;> rfl

/-- A line spares the session. -/
theorem spares_written (hs : s.Fit) (t : Tracer) (text : String) : s.Spares (s.written t text) :=
  .of_same hs (s.grows_written t text) (by simp) (by simp) (by simpa using hs.formatArray)

/-- So does an operation. -/
theorem spares_recorded (hs : s.Fit) (os : List Op) : s.Spares (s.recorded os) :=
  .of_same hs (s.grows_recorded os) rfl rfl hs.formatArray

/-- So does a return. -/
theorem spares_returned (hs : s.Fit) : s.Spares { s with code := s.code.push .ret } :=
  .of_same hs (Change.record .ret rfl).grows rfl rfl hs.formatArray

/-- So does the declaration of a local. -/
theorem spares_declared (hs : s.Fit) (t : Ty) (name : String) : s.Spares (s.declared t name) :=
  .of_same hs (Change.declare t name).grows rfl rfl hs.formatArray

/-- So does the choice of a local for formatted text. -/
theorem spares_format (hs : s.Fit) {l : Local} (hl : l.type = .array .object) :
    s.Spares { s with formatArray := some l } := by
  refine .of_same hs (Change.format l).grows rfl rfl fun m hm => ?_
  obtain rfl := Option.some.inj hm
  exact hl

/-- So does what is only made known. -/
theorem spares_noticed (hs : s.Fit) (n : Notice) : s.Spares { s with notices := s.notices.push n } :=
  .of_same hs (Change.notify n).grows rfl rfl hs.formatArray

/-- So does handing it over. -/
theorem spares_delivered (hs : s.Fit) : s.Spares { s with notices := #[] } :=
  .of_same hs Change.deliver.grows rfl rfl hs.formatArray

/-- So does the dump of a value. -/
theorem Wrote.spares {slots : Nat} {is : List (Instruction Nat)} (h : s.Wrote s' slots is)
    (hs : s.Fit) : s.Spares s' where
  grows := h.grows
  fit :=
    { labels := Nat.lt_of_lt_of_le hs.labels h.grows.labels_size
      goals c hc l hl := h.grows.known (hs.goals c (h.constructs ▸ hc) l hl)
      formatArray := by rw [h.formatArray]; exact hs.formatArray }
  constructs := h.constructs
  marks := h.marks
  fresh := h.fresh

/-! ### Labels behind a spared session -/

/-- A label of a spared session is marked behind it exactly if it was marked before. -/
theorem Spares.marked_iff (h : s.Spares s') {l : Label} (hl : s.labels.Known l) :
    s'.labels.Marked l ↔ s.labels.Marked l := by
  simp only [Marks.Marked, Marks.MarkedAt, h.marks l.id hl.2, h.grows.number]

/-- What is jumped to behind a spared session was jumped to before, or is marked. -/
theorem Spares.targeted (h : s.Spares s') {l : Label} (hl : s'.labels.Targeted l) :
    s.labels.Targeted l ∨ s'.labels.Marked l := by
  rcases Nat.lt_or_ge l.id s.labels.entries.size with hlt | hge
  · obtain ⟨hsession, hentry⟩ := hl
    rw [h.marks l.id hlt] at hentry
    exact .inl ⟨hsession.trans h.grows.number, hentry⟩
  · exact .inr (h.fresh l hl.known hge)

end Session

/-! ## A new session beside any other -/

/-- The pairing under which all numbers belong together. -/
def Pairing.free : Pairing := ⟨fun _ _ => True, fun _ _ => True, fun _ _ => True⟩

theorem Pairing.le_free (g : Pairing) : g ≤ .free :=
  ⟨fun _ _ _ => trivial, fun _ _ _ => trivial, fun _ _ _ => trivial⟩

theorem Local.paired_free {l l' : Local} (h : l'.type = l.type) : l.Paired .free l' := ⟨h, trivial⟩

theorem Operand.paired_free (o : Operand) : o.Paired .free o := by
  cases o with
  | constant c => exact .constant c
  | argument a => exact .argument a
  | «variable» l => exact .variable (Local.paired_free rfl)

theorem Operand.paired_all_free (os : List Operand) :
    List.Forall₂ (Operand.Paired .free) os os :=
  List.forall₂_same.2 fun o _ => o.paired_free

namespace Tandem

/-- A session without a trace, beside one that went on from a given session and spared it. All that the two
have in common is the signature. -/
def spared (level : TraceDetail) (base : Session) : Tandem where
  left := .silent
  right := .ofLevel level
  texts _ _ _ := True
  sessions _ s s' := s'.signature = s.signature ∧ s.Fit ∧ base.Spares s'

variable {level : TraceDetail} {base s s' : Session} {g : Pairing}

/-- Both sessions of the tandem go on and are spared. -/
theorem spared_step {s₁ s₁' : Session} (h : (spared level base).sessions g s s') (hs : s.Spares s₁)
    (hs' : s'.Spares s₁') : (spared level base).sessions .free s₁ s₁' := by
  refine ⟨?_, hs.fit, h.2.2.trans hs'⟩
  rw [hs.grows.signature, hs'.grows.signature, h.1]

/-- Whether or not there already is a local for formatted text, both sessions have one afterwards. -/
theorem run_formatArray (t : Tracer) (hs : s.Fit) :
    ∃ l s₁, (Emit.formatArray.run t).run s = .ok l s₁ ∧ l.type = .array .object ∧ s.Spares s₁ := by
  unfold Emit.formatArray
  rw [Emit.run_bind, Emit.run_get]
  dsimp only
  cases hl : s.formatArray with
  | some l => exact ⟨l, s, rfl, hs.formatArray l hl, .refl hs⟩
  | none =>
    dsimp only
    rw [Emit.run_bind, Emit.run_newLocal]
    have hdeclared := Session.spares_declared hs (.array .object) "stringFormatArray"
    have hwritten := Session.spares_written hdeclared.fit t
      ("    " ++ ("// Declare local '" ++ "stringFormatArray" ++ "' of type " ++ (Ty.array .object).path))
    exact ⟨_, _, rfl, rfl, (hdeclared.trans hwritten).trans (Session.spares_format hwritten.fit rfl)⟩

theorem straight_spared (level : TraceDetail) (base : Session) : (spared level base).Straight where
  signature h := h.1
  recorded h o o' _ :=
    spared_step h (Session.spares_recorded h.2.1 [o]) (Session.spares_recorded h.2.2.fit [o'])
  returned h := spared_step h (Session.spares_returned h.2.1) (Session.spares_returned h.2.2.fit)
  same _ _ := trivial
  later _ _ := trivial
  named _ _ _ _ _ := trivial
  written h x x' _ :=
    spared_step h (Session.spares_written h.2.1 _ x) (Session.spares_written h.2.2.fit _ x')
  shown g t := by
    intro g' _ s s' h
    have hleft : ((Emit.probe t).run .silent).run s = .ok () s := Emit.run_probe_silent s t
    -- only in full does the probe of the level write anything
    have hright : ∃ s₁', ((Emit.probe t).run (.ofLevel level)).run s' = .ok () s₁' ∧ s'.Spares s₁' := by
      cases level with
      | off => exact ⟨s', rfl, .refl h.2.2.fit⟩
      | log => exact ⟨s', rfl, .refl h.2.2.fit⟩
      | full =>
        obtain ⟨s₁', hrun, hwrote⟩ := Emit.run_showTop t h.2.2.fit.labels
        exact ⟨s₁', hrun, hwrote.spares h.2.2.fit⟩
    obtain ⟨s₁', hrun, hspares⟩ := hright
    exact Agree.of_ok hleft hrun g'.le_free (spared_step h (.refl h.2.1) hspares) trivial
  declared h t name :=
    ⟨.free, Pairing.le_free _, trivial, spared_step h (Session.spares_declared h.2.1 t name)
      (Session.spares_declared h.2.2.fit t name)⟩
  formatted g := by
    intro g' _ s s' h
    obtain ⟨l, s₁, hrun, hl, hspares⟩ := run_formatArray .silent h.2.1
    obtain ⟨l', s₁', hrun', hl', hspares'⟩ := run_formatArray (.ofLevel level) h.2.2.fit
    exact Agree.of_ok hrun hrun' g'.le_free (spared_step h hspares hspares')
      (Local.paired_free (hl'.trans hl.symm))

end Tandem

/-! ## Sparing calls -/

namespace Emit

variable {α β : Type} {e : Emit α} {f : α → Emit β}

/-- An emission call that **spares** every session it is made on: with and without a trace, and on every
session of a signature, it is accepted or refused alike, and it leaves constructs and labels alone. -/
def Sparing (e : Emit α) : Prop :=
  ∀ (level : TraceDetail) (base : Session), (Tandem.spared level base).Keeps .free e e

/-- A call that a new session with a signature **accepts**. -/
def Accepted (signature : Signature) (e : Emit α) : Prop :=
  ∃ a s, (e.run .silent).run (.fresh 0 "" signature .log) = .ok a s

variable {level : TraceDetail} {s s' : Session} {a : α}

/-- A sparing call that a session accepts spares it. -/
theorem Sparing.spares (h : e.Sparing) (hs : s.Fit)
    (hrun : (e.run (.ofLevel level)).run s = .ok a s') : s.Spares s' := by
  have hfresh := Session.fit_fresh 0 "" s.signature .log
  have hagree := h level s .free le_rfl (.fresh 0 "" s.signature .log) s ⟨rfl, hfresh, .refl hs⟩
  have hright : (e.run (Tandem.spared level s).right).run s = .ok a s' := hrun
  rw [hright] at hagree
  generalize hleft : (e.run (Tandem.spared level s).left).run _ = r at hagree
  cases hagree with
  | ok _ hs' => exact hs'.2.2

/-- What a new session of the signature accepts is accepted, and spares the session. -/
theorem Sparing.run (h : e.Sparing) (hs : s.Fit) (hacc : Accepted s.signature e) :
    ∃ a s', (e.run (.ofLevel level)).run s = .ok a s' ∧ s.Spares s' := by
  obtain ⟨a, s₁, hrun⟩ := hacc
  have hfresh := Session.fit_fresh 0 "" s.signature .log
  have hagree := h level s .free le_rfl (.fresh 0 "" s.signature .log) s ⟨rfl, hfresh, .refl hs⟩
  have hleft : (e.run (Tandem.spared level s).left).run (.fresh 0 "" s.signature .log) = .ok a s₁ :=
    hrun
  rw [hleft] at hagree
  generalize hright : (e.run (Tandem.spared level s).right).run s = r at hagree
  cases hagree with
  | ok _ hs' => exact ⟨_, _, hright, hs'.2.2⟩

/-! ### Which calls spare -/

theorem Sparing.seq {e : Emit Unit} {e' : Emit β} (h : e.Sparing) (h' : e'.Sparing) :
    (do e; e').Sparing :=
  fun level base => (h level base).seq fun _ _ => h' level base

theorem sparing_pure (a : α) : (pure a : Emit α).Sparing := fun _ _ => Tandem.keeps_pure a a

theorem sparing_note (text : String) : (note text).Sparing :=
  fun level base => (Tandem.straight_spared level base).note text

theorem sparing_traced (text : String) (o : Op) (h : o.isPlain) : (traced text o).Sparing :=
  fun level base => (Tandem.straight_spared level base).traced text o h

theorem sparing_load (o : Operand) : (load o).Sparing :=
  fun level base => (Tandem.straight_spared level base).load o.paired_free

theorem sparing_loadNull : loadNull.Sparing :=
  fun level base => (Tandem.straight_spared level base).loadNull

theorem sparing_loadText (text : String) : (loadText text).Sparing :=
  fun level base => (Tandem.straight_spared level base).loadText text

theorem sparing_loadInt (n : Int) : (loadInt n).Sparing :=
  fun level base => (Tandem.straight_spared level base).loadInt n

theorem sparing_loadLocal (l : Local) : (loadLocal l).Sparing :=
  fun level base => (Tandem.straight_spared level base).loadLocal (Local.paired_free rfl)

theorem sparing_storeLocal (l : Local) : (storeLocal l).Sparing :=
  fun level base => (Tandem.straight_spared level base).storeLocal (Local.paired_free rfl)

theorem sparing_newLocal (t : Ty) (name : String) : (newLocal t name).Sparing :=
  fun level base => ((Tandem.straight_spared level base).newLocal t name).keeps

theorem sparing_loadItemOf (a i : Operand) : (loadItemOf a i).Sparing :=
  fun level base => (Tandem.straight_spared level base).loadItemOf a.paired_free i.paired_free

theorem sparing_loadZero (t : Ty) : (loadZero t).Sparing :=
  fun level base => (Tandem.straight_spared level base).loadZero t

theorem sparing_loadLength : loadLength.Sparing :=
  fun level base => (Tandem.straight_spared level base).loadLength

theorem sparing_convertTop (source target : Ty) : (convertTop source target).Sparing :=
  fun level base => (Tandem.straight_spared level base).convertTop source target

theorem sparing_call (m : Method) : (call m).Sparing :=
  fun level base => (Tandem.straight_spared level base).call m

theorem sparing_callWith (o : Operand) (m : Method) (os : List Operand) :
    (callWith (some o) m os).Sparing :=
  fun level base => (Tandem.straight_spared level base).callWith m (.some o.paired_free)
    (Operand.paired_all_free os)

theorem sparing_loadTextLength (l : Local) : (loadTextLength l).Sparing :=
  (sparing_loadLocal l).seq ((sparing_call _).seq (sparing_loadInt 0))

end Emit

/-- The names of a call belong to themselves. -/
theorem Renaming.paired_free (o : Operation) : Renaming.id.Paired .free o .id where
  locals _ _ := Local.paired_free rfl
  labels _ _ := ⟨rfl, trivial⟩
  loops _ _ := ⟨rfl, trivial⟩

/-- A **straight-line operation** spares every session. -/
theorem Operation.sparing_perform {o : Operation} (ho : o.isStraight) : o.perform.Sparing := by
  intro level base
  have h := (Tandem.straight_spared level base).perform ho (Renaming.paired_free o)
  rw [Operation.rename_id] at h
  exact h.keeps

end Stackwright
