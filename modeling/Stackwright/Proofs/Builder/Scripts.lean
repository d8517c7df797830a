import Mathlib.Data.List.GetD
import Stackwright.Proofs.Builder.History
import Stackwright.Proofs.Tracing.Structured

/-! # Scripts

A client can only name locals, labels and loops that it was answered, so its calls are written down as a
**script**, which names them by their place among the answers; the same script can then be played to
different builders. A script stops where it names something that the client does not hold.

* **`Builder.play b h cs`** — what comes of the calls of a script.
* **`Builder.script … cs`** — the same from the first call on.
* **`Tandem.play_together`** — what comes of one script at two levels belongs together. -/

namespace Stackwright

/-! ## Playing a script -/

/-- What a client **holds**, in the order in which it was answered. -/
structure Holdings where
  /-- The locals. -/
  locals : List Local := []
  /-- The labels. -/
  labels : List Label := []
  /-- The loops. -/
  loops : List LoopHandle := []

namespace Holdings

/-- What the places in a script stand for. -/
def meaning (h : Holdings) : Renaming where
  locals l := h.locals.getD l.index l
  labels l := h.labels.getD l.id l
  loops k := h.loops.getD k.id k

/-- The client holds all that an operation names. -/
def Covers (h : Holdings) (o : Operation) : Prop :=
  (∀ l ∈ o.locals, l.index < h.locals.length) ∧ (∀ l ∈ o.handed, l.id < h.labels.length) ∧
    ∀ k ∈ o.loops, k.id < h.loops.length

instance (h : Holdings) (o : Operation) : Decidable (h.Covers o) :=
  inferInstanceAs (Decidable (_ ∧ _ ∧ _))

/-- The client **keeps** what it is answered. -/
def keep (h : Holdings) : Answer → Holdings
  | .variable l => { h with locals := h.locals ++ [l] }
  | .label l => { h with labels := h.labels ++ [l] }
  | .labels ls => { h with labels := h.labels ++ ls }
  | .loop k => { h with loops := h.loops ++ [k] }
  | .done | .argument _ | .type _ => h

/-- What the client holds once a call is accepted or refused. -/
def behind (h : Holdings) : Except BuildError Answer → Holdings
  | .ok a => h.keep a
  | .error _ => h

end Holdings

/-- What a client is **told** when a call is accepted. -/
inductive Reply
  /-- The procedure is begun. -/
  | begun
  /-- An emission call is answered. -/
  | answered (answer : Answer)
  /-- The procedure is built. -/
  | built (procedure : Procedure)

/-- The outcome with another answer. -/
def Outcome.as {α β : Type} (f : α → β) (r : Outcome α) : Outcome β where
  result := f <$> r.result
  builder := r.builder
  notices := r.notices

namespace Builder

/-- What comes of the calls of a **script**, made by a client that holds something. -/
def play (b : Builder) (h : Holdings) : List Call → List (Outcome Reply)
  | [] => []
  | .finish :: cs => b.finish.as .built :: b.finish.builder.play h cs
  | .perform o :: cs =>
    if h.Covers o then
      let r := b.perform (o.rename h.meaning)
      r.as .answered :: r.builder.play (h.behind r.result) cs
    else []

/-- What comes of a script from the **first call** on. -/
def script (number : Nat) (name : String) (signature : Signature) (sink : Sink) (level : TraceDetail)
    (cs : List Call) : List (Outcome Reply) :=
  let r := begin number name signature sink level
  r.as (fun _ => .begun) :: r.builder.play {} cs

end Builder

/-! ## What belongs together -/

/-- Replies that belong together. -/
inductive Reply.Paired (g : Pairing) (built : Procedure → Procedure → Prop) : Reply → Reply → Prop
  | begun : Paired g built .begun .begun
  | answered {a a' : Answer} (h : a.Paired g a') : Paired g built (.answered a) (.answered a')
  | built {p p' : Procedure} (h : built p p') : Paired g built (.built p) (.built p')

/-- Results that belong together. -/
inductive Result.Paired (g : Pairing) {α : Type} (R : α → α → Prop) :
    Except BuildError α → Except BuildError α → Prop
  | ok {a a' : α} (h : R a a') : Paired g R (.ok a) (.ok a')
  | error {e e' : BuildError} (h : e.Paired g e') : Paired g R (.error e) (.error e')

/-- Builders in states that belong together. -/
inductive BuilderState.Together (R : Session → Session → Prop) : BuilderState → BuilderState → Prop
  | building {s s' : Session} (h : R s s') : Together R (.building s) (.building s')
  | aborted : Together R .aborted .aborted
  | finalized : Together R .finalized .finalized

/-- The transcript **lines** among what was made known. -/
def Notice.lines (ns : Array Notice) : List (Nat × String) :=
  ns.toList.filterMap fun
    | .line n x => some (n, x)
    | .message .. => none

/-- What comes of the same call to two builders **belongs together**. -/
structure Outcome.Together (g : Pairing) (built : Procedure → Procedure → Prop)
    (sessions : Session → Session → Prop) (lines : List (Nat × String) → List (Nat × String) → Prop)
    (r r' : Outcome Reply) : Prop where
  /-- Both are accepted or both are refused. -/
  result : Result.Paired g (Reply.Paired g built) r.result r'.result
  /-- The builders belong together. -/
  state : r.builder.state.Together sessions r'.builder.state
  /-- The lines belong together. -/
  lines : lines (Notice.lines r.notices) (Notice.lines r'.notices)

/-- Holdings that belong together. -/
structure Holdings.Paired (g : Pairing) (h h' : Holdings) : Prop where
  /-- The locals do. -/
  locals : List.Forall₂ (Local.Paired g) h.locals h'.locals
  /-- The labels do. -/
  labels : List.Forall₂ (Label.Paired g) h.labels h'.labels
  /-- The loops do. -/
  loops : List.Forall₂ (LoopHandle.Paired g) h.loops h'.loops

section paired

variable {g g' : Pairing}

/-- Places in related lists hold what is related. -/
theorem forall₂_getD {α : Type} {R : α → α → Prop} {xs ys : List α} (h : List.Forall₂ R xs ys)
    {i : Nat} (hi : i < xs.length) (a : α) : R (xs.getD i a) (ys.getD i a) := by
  have hi' : i < ys.length := h.length_eq ▸ hi
  rw [List.getD_eq_getElem _ _ hi, List.getD_eq_getElem _ _ hi']
  exact h.get hi hi'

theorem Answer.Paired.mono (hle : g ≤ g') {a a' : Answer} (h : a.Paired g a') : a.Paired g' a' := by
  cases h with
  | done => exact .done
  | argument a => exact .argument a
  | «variable» h => exact .variable (h.mono hle)
  | label h => exact .label (h.mono hle)
  | labels h => exact .labels (h.imp fun _ _ hl => hl.mono hle)
  | loop h => exact .loop (h.mono hle)
  | type t => exact .type t

theorem Reply.Paired.mono (hle : g ≤ g') {built : Procedure → Procedure → Prop} {r r' : Reply}
    (h : r.Paired g built r') : r.Paired g' built r' := by
  cases h with
  | begun => exact .begun
  | answered h => exact .answered (h.mono hle)
  | built h => exact .built h

theorem Reply.Paired.imp {built built' : Procedure → Procedure → Prop} (hb : ∀ p p', built p p' → built' p p')
    {r r' : Reply} (h : r.Paired g built r') : r.Paired g built' r' := by
  cases h with
  | begun => exact .begun
  | answered h => exact .answered h
  | built h => exact .built (hb _ _ h)

theorem Result.Paired.as {α β : Type} {R : α → α → Prop} {R' : β → β → Prop} {f : α → β}
    {r r' : Except BuildError α} (h : Result.Paired g R r r') (hf : ∀ a a', R a a' → R' (f a) (f a')) :
    Result.Paired g R' (f <$> r) (f <$> r') := by
  cases h with
  | ok ha => exact .ok (hf _ _ ha)
  | error he => exact .error he

theorem Result.Paired.mono (hle : g ≤ g') {α : Type} {R R' : α → α → Prop}
    {r r' : Except BuildError α} (h : Result.Paired g R r r') (hR : ∀ a a', R a a' → R' a a') :
    Result.Paired g' R' r r' := by
  cases h with
  | ok ha => exact .ok (hR _ _ ha)
  | error he => exact .error (he.mono hle)

theorem BuilderState.Together.imp {R R' : Session → Session → Prop} {b b' : BuilderState}
    (h : b.Together R b') (hR : ∀ s s', R s s' → R' s s') : b.Together R' b' := by
  cases h with
  | building h => exact .building (hR _ _ h)
  | aborted => exact .aborted
  | finalized => exact .finalized

namespace Holdings

variable {h h' : Holdings}

theorem Paired.mono (hle : g ≤ g') (hp : h.Paired g h') : h.Paired g' h' where
  locals := hp.locals.imp fun _ _ hl => hl.mono hle
  labels := hp.labels.imp fun _ _ hl => hl.mono hle
  loops := hp.loops.imp fun _ _ hl => hl.mono hle

/-- What the places in a script stand for belongs together. -/
theorem Paired.meaning (hp : h.Paired g h') {o : Operation} (ho : h.Covers o) :
    h.meaning.Paired g o h'.meaning where
  locals l hl := forall₂_getD hp.locals (ho.1 l hl) l
  labels l hl := forall₂_getD hp.labels (ho.2.1 l hl) l
  loops k hk := forall₂_getD hp.loops (ho.2.2 k hk) k

theorem Paired.covers (hp : h.Paired g h') {o : Operation} : h'.Covers o ↔ h.Covers o := by
  rw [Covers, Covers, hp.locals.length_eq, hp.labels.length_eq, hp.loops.length_eq]

theorem Paired.keep (hp : h.Paired g h') {a a' : Answer} (ha : a.Paired g a') :
    (h.keep a).Paired g (h'.keep a') := by
  cases ha with
  | «variable» hl => exact { hp with locals := List.rel_append hp.locals (.cons hl .nil) }
  | label hl => exact { hp with labels := List.rel_append hp.labels (.cons hl .nil) }
  | labels hls => exact { hp with labels := List.rel_append hp.labels hls }
  | loop hk => exact { hp with loops := List.rel_append hp.loops (.cons hk .nil) }
  | _ => exact hp

theorem Paired.behind (hp : h.Paired g h') {r r' : Except BuildError Answer}
    (hr : Result.Paired g (Answer.Paired g) r r') : (h.behind r).Paired g (h'.behind r') := by
  cases hr with
  | ok ha => exact hp.keep ha
  | error he => exact hp

/-- No label that the client holds is the one at the end. -/
def Inside (h : Holdings) : Prop := Emit.Inside h.labels

theorem Inside.handed (hi : h.Inside) {o : Operation} (ho : h.Covers o) :
    Emit.Inside (o.rename h.meaning).handed := by
  rw [Operation.handed_rename]
  intro l hl
  obtain ⟨m, hm, rfl⟩ := List.mem_map.1 hl
  have hlt := ho.2.1 m hm
  show (h.labels.getD m.id m).id ≠ 0
  rw [List.getD_eq_getElem _ _ hlt]
  exact hi _ (List.getElem_mem hlt)

theorem Inside.keep (hi : h.Inside) {a : Answer} (ha : Emit.Inside a.issued) :
    (h.keep a).Inside := by
  have happend : ∀ ls, Emit.Inside ls → Emit.Inside (h.labels ++ ls) := fun ls hls =>
    List.forall_mem_append.2 ⟨hi, hls⟩
  cases a with
  | label l => exact happend _ ha
  | labels ls => exact happend _ ha
  | _ => exact hi

theorem Inside.behind (hi : h.Inside) {r : Except BuildError Answer}
    (hr : ∀ a, r = .ok a → Emit.Inside a.issued) : (h.behind r).Inside := by
  cases r with
  | ok a => exact hi.keep (hr a rfl)
  | error e => exact hi

end Holdings

end paired

/-- A message for the log is no line. -/
theorem Notice.lines_push_message (ns : Array Notice) (l : LogLevel) (x : String) :
    Notice.lines (ns.push (.message l x)) = Notice.lines ns := by
  simp [Notice.lines, List.filterMap_append]

/-! ## Two builders -/

/-- A tandem of two **levels** that scripts are played at. -/
structure Tandem.Levels (T : Tandem) (level level' : TraceDetail)
    (built : Procedure → Procedure → Prop)
    (lines : Pairing → List (Nat × String) → List (Nat × String) → Prop) : Prop extends
    T.Structured where
  /-- The first level. -/
  left : T.left = .ofLevel level
  /-- The second level. -/
  right : T.right = .ofLevel level'
  /-- The procedure is begun. -/
  begun : ∀ {g s s'}, T.sessions g s s' → T.Agree g (fun _ _ _ => True)
    ((Emit.begin.run T.left).run s) ((Emit.begin.run T.right).run s')
  /-- What was made known is handed over. -/
  delivered : ∀ {g s s'}, T.sessions g s s' →
    T.sessions g { s with notices := #[] } { s' with notices := #[] }
  /-- The procedure is ended. -/
  finished : ∀ {g s s'}, T.sessions g s s' → s.Sound → s'.Sound →
    T.Agree g (fun _ => built) ((Emit.finish.run T.left).run s) ((Emit.finish.run T.right).run s')
  /-- The lines belong together. -/
  told : ∀ {g s s'}, T.sessions g s s' → lines g (Notice.lines s.notices) (Notice.lines s'.notices)
  /-- Without a line nothing is missing. -/
  silent : ∀ g, lines g [] []
  /-- Lines stay together. -/
  retold : ∀ {g g' x x'}, g ≤ g' → lines g x x' → lines g' x x'

namespace Builder

variable {b b' : Builder} {α : Type} {e e' : Emit α} {s s' : Session} {o : Operation}

/-- A call to a builder that takes calls. -/
theorem submit_building (h : b.state = .building s) :
    b.submit e =
      match (e.run (.ofLevel b.level)).run s with
      | .ok a s => ⟨.ok a, ⟨b.sink, b.level, .building { s with notices := #[] }⟩, s.notices⟩
      | .error r s => ⟨.error r, ⟨b.sink, b.level, .aborted⟩,
          s.notices.push (.message .warn ("aborting procedure `" ++ s.name ++ "`: " ++ r.message))⟩ := by
  obtain ⟨sink, level, state⟩ := b
  cases h
  rfl

theorem submit_aborted (h : b.state = .aborted) : b.submit e = ⟨.error .sessionAborted, b, #[]⟩ := by
  obtain ⟨sink, level, state⟩ := b
  cases h
  rfl

theorem submit_finalized (h : b.state = .finalized) :
    b.submit e = ⟨.error .useAfterFinalize, b, #[]⟩ := by
  obtain ⟨sink, level, state⟩ := b
  cases h
  rfl

/-- A call never changes the level. -/
theorem level_submit : (b.submit e).builder.level = b.level := by
  cases h : b.state with
  | building s =>
    rw [submit_building h]
    cases (e.run (.ofLevel b.level)).run s <;> rfl
  | aborted => rw [submit_aborted h]
  | finalized => rw [submit_finalized h]

theorem level_finish : b.finish.builder.level = b.level := by
  have h : (b.submit Emit.finish).builder.level = b.level := level_submit
  unfold finish
  dsimp only
  split <;> exact h

/-- A refused call leaves a builder that takes no more calls. -/
theorem not_building_of_error {r : BuildError} (h : (b.submit e).result = .error r) (s : Session) :
    (b.submit e).builder.state ≠ .building s := by
  cases hb : b.state with
  | building s₀ =>
    rw [submit_building hb] at h ⊢
    cases hrun : (e.run (.ofLevel b.level)).run s₀ with
    | ok a s₁ =>
      rw [hrun] at h
      cases h
    | error r s₁ => exact nofun
  | aborted =>
    rw [submit_aborted hb, hb]
    exact nofun
  | finalized =>
    rw [submit_finalized hb, hb]
    exact nofun

/-- An accepted end finalizes the builder. -/
theorem finish_of_ok {p : Procedure} (h : (b.submit Emit.finish).result = .ok p) :
    b.finish = ⟨.ok p, { (b.submit Emit.finish).builder with state := .finalized },
      (b.submit Emit.finish).notices⟩ := by
  rw [finish, h]

theorem finish_of_error {r : BuildError} (h : (b.submit Emit.finish).result = .error r) :
    b.finish = b.submit Emit.finish := by
  rw [finish, h]

/-- Only a builder that takes calls accepts an operation. -/
theorem building_of_perform {a : Answer} (ha : (b.perform o).result = .ok a) :
    ∃ s, b.state = .building s := by
  cases hb : b.state with
  | building s => exact ⟨s, rfl⟩
  | aborted =>
    rw [perform_aborted hb] at ha
    cases ha
  | finalized =>
    rw [perform_finalized hb] at ha
    cases ha

/-- An operation hands out labels inside the procedure. -/
theorem inside_perform (hs : ∀ s, b.state = .building s → s.Sound) (ho : Emit.Inside o.handed)
    {a : Answer} (ha : (b.perform o).result = .ok a) : Emit.Inside a.issued := by
  obtain ⟨s, hb⟩ := building_of_perform ha
  exact (grows_perform hb (hs s hb).inner ho ha).2

/-- An operation keeps the session sound. -/
theorem sound_perform (hs : ∀ s, b.state = .building s → s.Sound) (ho : Emit.Inside o.handed)
    (s' : Session) (h' : (b.perform o).builder.state = .building s') : s'.Sound := by
  cases ha : (b.perform o).result with
  | error e => exact absurd h' (not_building_of_error ha s')
  | ok a =>
    obtain ⟨s, hb⟩ := building_of_perform ha
    obtain ⟨⟨s₁, hs₁, hgrows⟩, -⟩ := grows_perform hb (hs s hb).inner ho ha
    rw [hs₁] at h'
    cases h'
    exact hgrows.sound (hs s hb)

end Builder

namespace Tandem

variable {T : Tandem} {level level' : TraceDetail} {built : Procedure → Procedure → Prop}
  {lines : Pairing → List (Nat × String) → List (Nat × String) → Prop} {g : Pairing}
  {P : Pairing → Prop} {b b' : Builder} {h h' : Holdings} {α : Type}

/-- Two builders that a script is **played to**, and what its client holds of each. -/
structure Ready (T : Tandem) (level level' : TraceDetail) (g : Pairing) (b b' : Builder)
    (h h' : Holdings) : Prop where
  /-- The first builder has the first level. -/
  level : b.level = level
  /-- The second builder has the second level. -/
  level' : b'.level = level'
  /-- The builders belong together. -/
  state : b.state.Together (T.sessions g) b'.state
  /-- The first session is sound. -/
  sound : ∀ s, b.state = .building s → s.Sound
  /-- The second session is sound. -/
  sound' : ∀ s, b'.state = .building s → s.Sound
  /-- The client holds what belongs together. -/
  held : h.Paired g h'
  /-- It does not hold the label at the end of the first session. -/
  inside : h.Inside
  /-- Nor that of the second one. -/
  inside' : h'.Inside

/-- What comes of two calls that agree belongs together. -/
theorem submit_together (hT : T.Levels level level' built lines) (hP : ∀ {g s s'}, T.sessions g s s' → P g)
    (hr : T.Ready level level' g b b' h h') (hg : P g) {e e' : Emit α}
    {Q : Pairing → α → α → Prop}
    (he : ∀ s s', T.sessions g s s' → s.Sound → s'.Sound →
      T.Agree g Q ((e.run T.left).run s) ((e'.run T.right).run s')) :
    ∃ g', g ≤ g' ∧ P g' ∧ Result.Paired g' (Q g') (b.submit e).result (b'.submit e').result ∧
      (b.submit e).builder.state.Together (T.sessions g') (b'.submit e').builder.state ∧
      lines g' (Notice.lines (b.submit e).notices) (Notice.lines (b'.submit e').notices) := by
  generalize hb : b.state = st, hb' : b'.state = st', hr.state = hstate
  cases hstate with
  | aborted =>
    rw [Builder.submit_aborted hb, Builder.submit_aborted hb']
    exact ⟨g, le_rfl, hg, .error (.other rfl), by rw [hb, hb']; exact .aborted, hT.silent g⟩
  | finalized =>
    rw [Builder.submit_finalized hb, Builder.submit_finalized hb']
    exact ⟨g, le_rfl, hg, .error (.other rfl), by rw [hb, hb']; exact .finalized, hT.silent g⟩
  | @building s s' hs =>
    rw [Builder.submit_building hb, Builder.submit_building hb', hr.level, hr.level', ← hT.left,
      ← hT.right]
    generalize (e.run T.left).run s = r, (e'.run T.right).run s' = r',
      he s s' hs (hr.sound s hb) (hr.sound' s' hb') = hagree
    -- both sessions answer or both refuse; a refusal aborts both builders
    cases hagree with
    | ok hle hs hq => exact ⟨_, hle, hP hs, .ok hq, .building (hT.delivered hs), hT.told hs⟩
    | error hle hs he =>
      refine ⟨_, hle, hP hs, .error he, .aborted, ?_⟩
      rw [Notice.lines_push_message, Notice.lines_push_message]
      exact hT.told hs

/-- What comes of an operation under the names of two clients belongs together. -/
theorem perform_together (hT : T.Levels level level' built lines)
    (hP : ∀ {g s s'}, T.sessions g s s' → P g) (hr : T.Ready level level' g b b' h h') (hg : P g)
    {o : Operation} (ho : h.Covers o) :
    ∃ g', g ≤ g' ∧ P g' ∧
      Result.Paired g' (Answer.Paired g') (b.perform (o.rename h.meaning)).result
        (b'.perform (o.rename h'.meaning)).result ∧
      (b.perform (o.rename h.meaning)).builder.state.Together (T.sessions g')
        (b'.perform (o.rename h'.meaning)).builder.state ∧
      lines g' (Notice.lines (b.perform (o.rename h.meaning)).notices)
        (Notice.lines (b'.perform (o.rename h'.meaning)).notices) :=
  submit_together hT hP hr hg fun s s' hs _ _ =>
    hT.perform (hr.held.meaning ho) g le_rfl s s' hs

/-- Behind an operation the builders are played to go on. -/
theorem Ready.perform (hr : T.Ready level level' g b b' h h') {o : Operation} (ho : h.Covers o)
    {g' : Pairing} (hle : g ≤ g')
    (hresult : Result.Paired g' (Answer.Paired g') (b.perform (o.rename h.meaning)).result
      (b'.perform (o.rename h'.meaning)).result)
    (hstate : (b.perform (o.rename h.meaning)).builder.state.Together (T.sessions g')
      (b'.perform (o.rename h'.meaning)).builder.state) :
    T.Ready level level' g' (b.perform (o.rename h.meaning)).builder
      (b'.perform (o.rename h'.meaning)).builder
      (h.behind (b.perform (o.rename h.meaning)).result)
      (h'.behind (b'.perform (o.rename h'.meaning)).result) := by
  have hin := hr.inside.handed ho
  have hin' := hr.inside'.handed (hr.held.covers.2 ho)
  exact {
    level := Builder.level_submit.trans hr.level
    level' := Builder.level_submit.trans hr.level'
    state := hstate
    sound := Builder.sound_perform hr.sound hin
    sound' := Builder.sound_perform hr.sound' hin'
    held := (hr.held.mono hle).behind hresult
    inside := hr.inside.behind fun _ ha => Builder.inside_perform hr.sound hin ha
    inside' := hr.inside'.behind fun _ ha => Builder.inside_perform hr.sound' hin' ha }

/-- What comes of the end belongs together, and neither builder takes calls behind it. -/
theorem finish_together (hT : T.Levels level level' built lines)
    (hP : ∀ {g s s'}, T.sessions g s s' → P g) (hr : T.Ready level level' g b b' h h') (hg : P g) :
    ∃ g', g ≤ g' ∧ P g' ∧ Result.Paired g' built b.finish.result b'.finish.result ∧
      b.finish.builder.state.Together (T.sessions g') b'.finish.builder.state ∧
      lines g' (Notice.lines b.finish.notices) (Notice.lines b'.finish.notices) ∧
      (∀ s, b.finish.builder.state ≠ .building s) ∧ ∀ s, b'.finish.builder.state ≠ .building s := by
  have hends : ∀ s s', T.sessions g s s' → s.Sound → s'.Sound →
      T.Agree g (fun _ => built) ((Emit.finish.run T.left).run s) ((Emit.finish.run T.right).run s') :=
    fun s s' hs hsound hsound' => hT.finished hs hsound hsound'
  obtain ⟨g', hle, hg', hresult, hstate, hlines⟩ := submit_together hT hP hr hg hends
  generalize hres : (b.submit Emit.finish).result = r,
    hres' : (b'.submit Emit.finish).result = r' at hresult
  cases hresult with
  | ok hp =>
    rw [Builder.finish_of_ok hres, Builder.finish_of_ok hres']
    exact ⟨g', hle, hg', .ok hp, .finalized, hlines, nofun, nofun⟩
  | error he =>
    rw [Builder.finish_of_error hres, Builder.finish_of_error hres', hres, hres']
    exact ⟨g', hle, hg', .error he, hstate, hlines, Builder.not_building_of_error hres,
      Builder.not_building_of_error hres'⟩

/-! ## Whole scripts -/

/-- Two outcomes at a pairing of a tandem. -/
def Agreed (T : Tandem) (built : Procedure → Procedure → Prop)
    (lines : Pairing → List (Nat × String) → List (Nat × String) → Prop) (g : Pairing) :
    Outcome Reply → Outcome Reply → Prop :=
  Outcome.Together g built (fun s s' => ∃ g₁, g₁ ≤ g ∧ T.sessions g₁ s s') (lines g)

theorem Agreed.mono (hT : T.Levels level level' built lines) {g' : Pairing} (hle : g ≤ g')
    {r r' : Outcome Reply} (h : T.Agreed built lines g r r') : T.Agreed built lines g' r r' where
  result := h.result.mono hle fun _ _ hr => hr.mono hle
  state := h.state.imp fun _ _ ⟨g₁, hle₁, hs⟩ => ⟨g₁, hle₁.trans hle, hs⟩
  lines := hT.retold hle h.lines

/-- What comes of one script at two levels **belongs together**, under one pairing. -/
theorem play_together (hT : T.Levels level level' built lines)
    (hP : ∀ {g s s'}, T.sessions g s s' → P g) (cs : List Call)
    (hr : T.Ready level level' g b b' h h') (hg : P g) :
    ∃ g', g ≤ g' ∧ P g' ∧
      List.Forall₂ (T.Agreed built lines g') (b.play h cs) (b'.play h' cs) := by
  -- the pairing grows with each call, so both builders and both lists of tokens vary
  induction cs generalizing g b b' h h' with
  | nil => exact ⟨g, le_rfl, hg, .nil⟩
  | cons c cs ih =>
    cases c with
    | finish =>
      obtain ⟨g₁, hle₁, hg₁, hresult, hstate, hlines, hnone, hnone'⟩ :=
        finish_together hT hP hr hg
      -- an end leaves neither builder building, so what holds of sessions holds of none
      have hr₁ : T.Ready level level' g₁ b.finish.builder b'.finish.builder h h' :=
        { level := Builder.level_finish.trans hr.level
          level' := Builder.level_finish.trans hr.level'
          state := hstate
          sound := fun s hs => absurd hs (hnone s)
          sound' := fun s hs => absurd hs (hnone' s)
          held := hr.held.mono hle₁
          inside := hr.inside
          inside' := hr.inside' }
      obtain ⟨g₂, hle₂, hg₂, hrest⟩ := ih hr₁ hg₁
      have hfirst : T.Agreed built lines g₁ (b.finish.as .built) (b'.finish.as .built) :=
        { result := hresult.as fun _ _ hp => .built hp
          state := hstate.imp fun _ _ hs => ⟨g₁, le_rfl, hs⟩
          lines := hlines }
      exact ⟨g₂, hle₁.trans hle₂, hg₂, .cons (hfirst.mono hT hle₂) hrest⟩
    | perform o =>
      by_cases ho : h.Covers o
      · have ho' : h'.Covers o := hr.held.covers.2 ho
        obtain ⟨g₁, hle₁, hg₁, hresult, hstate, hlines⟩ := perform_together hT hP hr hg ho
        obtain ⟨g₂, hle₂, hg₂, hrest⟩ := ih (hr.perform ho hle₁ hresult hstate) hg₁
        have hfirst : T.Agreed built lines g₁ ((b.perform (o.rename h.meaning)).as .answered)
            ((b'.perform (o.rename h'.meaning)).as .answered) :=
          { result := hresult.as fun _ _ ha => .answered ha
            state := hstate.imp fun _ _ hs => ⟨g₁, le_rfl, hs⟩
            lines := hlines }
        refine ⟨g₂, hle₁.trans hle₂, hg₂, ?_⟩
        rw [Builder.play, Builder.play, if_pos ho, if_pos ho']
        exact .cons (hfirst.mono hT hle₂) hrest
      · -- a call that names a token it never got stops both scripts
        have ho' : ¬ h'.Covers o := mt hr.held.covers.1 ho
        refine ⟨g, le_rfl, hg, ?_⟩
        rw [Builder.play, Builder.play, if_neg ho, if_neg ho']
        exact .nil

/-- So does what comes of it from the first call on, where fresh sessions belong together. -/
theorem script_together (hT : T.Levels level level' built lines)
    (hP : ∀ {g s s'}, T.sessions g s s' → P g) {number : Nat} {name : String}
    {signature : Signature} {sink : Sink}
    (hfresh : T.sessions g (.fresh number name signature sink) (.fresh number name signature sink))
    (cs : List Call) :
    ∃ g, P g ∧ List.Forall₂ (T.Agreed built lines g)
      (Builder.script number name signature sink level cs)
      (Builder.script number name signature sink level' cs) := by
  have hsound := Session.sound_fresh number name signature sink
  -- before its first lines a builder has only the fresh session
  have hready : T.Ready level level' g
      ⟨sink, level, .building (.fresh number name signature sink)⟩
      ⟨sink, level', .building (.fresh number name signature sink)⟩ {} {} :=
    { level := rfl
      level' := rfl
      state := .building hfresh
      sound := by
        intro s hs
        cases hs
        exact hsound
      sound' := by
        intro s hs
        cases hs
        exact hsound
      held := ⟨.nil, .nil, .nil⟩
      inside := fun _ hl => absurd hl List.not_mem_nil
      inside' := fun _ hl => absurd hl List.not_mem_nil }
  obtain ⟨g₁, hle₁, hg₁, hresult, hstate, hlines⟩ :=
    submit_together hT hP hready (hP hfresh) fun s s' hs _ _ => hT.begun hs
  have hbegun : T.Ready level level' g₁ (Builder.begin number name signature sink level).builder
      (Builder.begin number name signature sink level').builder {} {} :=
    { hready with
      level := Builder.level_submit
      level' := Builder.level_submit
      state := hstate
      sound := fun s hs => by
        obtain ⟨s₀, hs₀, hsound⟩ := Builder.begin_building number name signature sink level
        rw [hs₀] at hs
        cases hs
        exact hsound
      sound' := fun s hs => by
        obtain ⟨s₀, hs₀, hsound⟩ := Builder.begin_building number name signature sink level'
        rw [hs₀] at hs
        cases hs
        exact hsound
      held := ⟨.nil, .nil, .nil⟩ }
  obtain ⟨g₂, hle₂, hg₂, hrest⟩ := play_together hT hP cs hbegun hg₁
  have hfirst : T.Agreed built lines g₁
      ((Builder.begin number name signature sink level).as fun _ => .begun)
      ((Builder.begin number name signature sink level').as fun _ => .begun) :=
    { result := hresult.as fun _ _ _ => .begun
      state := hstate.imp fun _ _ hs => ⟨g₁, le_rfl, hs⟩
      lines := hlines }
  exact ⟨g₂, hg₂, .cons (hfirst.mono hT hle₂) hrest⟩

end Tandem

end Stackwright
