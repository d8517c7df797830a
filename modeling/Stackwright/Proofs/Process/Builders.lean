import Stackwright.Proofs.Builder.Scripts
import Stackwright.Proofs.Process.Restamping

/-! # Builders under other stamps

A builder with other stamps takes the same calls, with the tokens in them under those stamps, comes to the
same, and makes the same known. The procedure that it finishes has no stamps at all.

* **`Builder.answer`** — what a call to a builder comes to.
* **`Builder.answer_restamp`**, **`Builder.begin_restamp`** — it comes to the same under other stamps. -/

namespace Stackwright

variable {α β : Type} {σ : Nat → Nat} {t : Tracer}

/-! ## Linking -/

/-- A row of outcomes, each with another error, has another error. -/
theorem mapM_mapError {γ ε ε' : Type} {f : α → Except ε γ} {f' : β → Except ε' γ} {g : α → β} {h : ε → ε'}
    (hf : ∀ a, f' (g a) = (f a).mapError h) (l : List α) :
    (l.map g).mapM f' = (l.mapM f).mapError h := by
  induction l with
  | nil => rfl
  | cons a l ih =>
    rw [List.map_cons, List.mapM_cons, List.mapM_cons, ih, hf]
    cases f a with
    | error e => rfl
    | ok b => cases l.mapM f <;> rfl

theorem Jump.mapTargets_restamp {labels : Marks} (hσ : σ.Injective) (j : Jump Label) :
    (j.map (Label.restamp σ)).mapTargets (labels.restamp σ).position =
      (j.mapTargets labels.position).mapError (BuildError.restamp σ) := by
  have hposition : ∀ l, (labels.restamp σ).position (l.restamp σ) =
      (labels.position l).mapError (BuildError.restamp σ) := fun l => Marks.position_restamp hσ
  cases j with
  | switch ts =>
    rw [map, mapTargets, mapTargets, mapM_mapError hposition]
    cases ts.mapM labels.position <;> rfl
  | always l | ifTrue l | ifFalse l | compare c l =>
    rw [map, mapTargets, mapTargets, hposition]
    cases labels.position l <;> rfl

theorem Instruction.link_restamp (labels : Marks) (hσ : σ.Injective) (i : Instruction Label) :
    (i.map (Label.restamp σ)).link (labels.restamp σ) =
      (i.link labels).mapError (BuildError.restamp σ) := by
  cases i with
  | op o => rfl
  | ret => rfl
  | jump j =>
    rw [map, link, link, Jump.mapTargets_restamp hσ]
    cases j.mapTargets labels.position <;> rfl

namespace Emit

/-- **Linking** puts the same positions in the place of labels with other stamps. -/
theorem restamps_link (hσ : σ.Injective) : Restamps σ t id link link := by
  refine restamps_get fun s => restamps_ofExcept ?_
  have hcode : (s.restamp σ).code.toList = s.code.toList.map (Instruction.map (Label.restamp σ)) :=
    Array.toList_map
  have hlink : (s.code.toList.map (Instruction.map (Label.restamp σ))).mapM
        (Instruction.link (s.restamp σ).labels) =
      (s.code.toList.mapM (Instruction.link s.labels)).mapError (BuildError.restamp σ) :=
    mapM_mapError (Instruction.link_restamp s.labels hσ) s.code.toList
  rw [Array.mapM_eq_mapM_toList, Array.mapM_eq_mapM_toList, hcode, hlink]
  cases s.code.toList.mapM (Instruction.link s.labels) <;> rfl

theorem restamps_notify (n : Notice) : Restamps σ t id (notify n) (notify n) :=
  restamps_modify (fun _ => rfl) fun _ => Nat.le_refl _

theorem restamps_line (ht : t.Restamps σ) (x : String) : Restamps σ t id (line x) (line x) :=
  ((Tandem.straight_restamped ht).line rfl).restamps

/-- A call that looks at the tracer is the call that it then makes. -/
theorem restamps_tracer {k : Tracer → Emit α} {k' : Tracer → Emit β} {f : α → β}
    (h : Restamps σ t f (k t) (k' t)) : Restamps σ t f (read >>= k) (read >>= k') := h

theorem restamps_begin (ht : t.Restamps σ) : Restamps σ t id begin begin :=
  restamps_get fun _ => restamps_tracer ((restamps_notify _).bind fun _ => restamps_line ht _)

theorem restamps_ret (ht : t.Restamps σ) : Restamps σ t id ret ret :=
  ((Tandem.straight_restamped ht).ret).restamps

/-- The **end** does the same under other stamps, and the procedure is the same one. -/
theorem restamps_finish (hσ : σ.Injective) (ht : t.Restamps σ) : Restamps σ t id finish finish := by
  have hcheck : ∀ s : Session, Restamps σ t id (ofExcept s.labels.check : Emit Unit)
      (ofExcept (s.restamp σ).labels.check) := fun s => restamps_ofExcept Marks.check_restamp
  refine restamps_get fun s => ?_
  have hcs : (s.restamp σ).constructs = s.constructs.map (Construct.restamp σ) := rfl
  dsimp only
  rw [hcs]
  cases s.constructs with
  | cons c cs =>
    rw [List.map_cons]
    dsimp only
    rw [List.length_cons, List.length_cons, List.length_map, Construct.kind_restamp]
    exact restamps_refuse _
  | nil =>
    exact (restamps_markHere hσ ht s.finish).bind fun _ => (restamps_line ht _).bind fun _ =>
      (restamps_ret ht).bind fun _ => restamps_get fun s₁ => (hcheck s₁).bind fun _ =>
        (restamps_link hσ).bind fun code => restamps_get fun s₂ => (restamps_notify _).bind fun _ =>
          restamps_pure _

end Emit

/-! ## Builders -/

/-- The state of a builder with other stamps. -/
def BuilderState.restamp (σ : Nat → Nat) : BuilderState → BuilderState
  | .building s => .building (s.restamp σ)
  | .aborted => .aborted
  | .finalized => .finalized

/-- The builder with **other stamps**. -/
def Builder.restamp (σ : Nat → Nat) (b : Builder) : Builder := { b with state := b.state.restamp σ }

/-- What a call comes to, with other stamps. What it makes known has none. -/
def Outcome.restamp (σ : Nat → Nat) (f : α → β) (r : Outcome α) : Outcome β where
  result := (r.result.map f).mapError (BuildError.restamp σ)
  builder := r.builder.restamp σ
  notices := r.notices

namespace Builder

/-- A builder that no call has broken: the end label of its session is defined. -/
def Begun (b : Builder) : Prop := ∀ s, b.state = .building s → 0 < s.labels.entries.size

variable {b : Builder} {f : α → β} {e : Emit α} {e' : Emit β}

/-- A call that does the same under other stamps comes to the same under them. -/
theorem submit_restamp (hb : b.Begun) (h : Emit.Restamps σ (.ofLevel b.level) f e e') :
    (b.restamp σ).submit e' = (b.submit e).restamp σ f ∧ (b.submit e).builder.Begun := by
  obtain ⟨sink, level, state⟩ := b
  cases state with
  | aborted => exact ⟨rfl, fun s hs => by cases hs⟩
  | finalized => exact ⟨rfl, fun s hs => by cases hs⟩
  | building s =>
    obtain ⟨hrun', hkeep⟩ := h s (hb s rfl)
    unfold submit restamp BuilderState.restamp
    dsimp only at hrun' hkeep ⊢
    rw [hrun']
    cases hrun : (e.run (.ofLevel level)).run s with
    | ok a s' =>
      refine ⟨rfl, fun s₁ hs₁ => ?_⟩
      cases hs₁
      exact hkeep a s' hrun
    | error r s' =>
      refine ⟨?_, fun s₁ hs₁ => by cases hs₁⟩
      show Outcome.mk _ _ _ = Outcome.mk _ _ _
      rw [BuildError.message_restamp]
      rfl

end Builder

/-! ## Calls and replies -/

/-- The reply with other stamps. A procedure has none. -/
def Reply.restamp (σ : Nat → Nat) : Reply → Reply
  | .answered a => .answered (a.restamp σ)
  | r => r

/-- The call that hands in tokens with other stamps. -/
def Call.restamp (σ : Nat → Nat) : Call → Call
  | .perform o => .perform (o.rename (.restamp σ))
  | .finish => .finish

theorem Outcome.restamp_as {γ δ : Type} {f : α → β} {g : γ → δ} {k : α → γ} {k' : β → δ}
    (h : ∀ a, k' (f a) = g (k a)) (r : Outcome α) :
    (r.restamp σ f).as k' = (r.as k).restamp σ g := by
  obtain ⟨result, builder, notices⟩ := r
  cases result with
  | ok a => exact congrArg (Outcome.mk · _ _) (congrArg Except.ok (h a))
  | error e => rfl

namespace Builder

variable {b : Builder}

/-- What a builder **answers** to a call. -/
def answer (b : Builder) : Call → Outcome Reply
  | .perform o => (b.perform o).as .answered
  | .finish => b.finish.as .built

/-- A new builder, as the outcome of a call. -/
def started (number : Nat) (name : String) (signature : Signature) (sink : Sink) (level : TraceDetail) :
    Outcome Reply :=
  (begin number name signature sink level).as fun _ => .begun

/-- A builder with other stamps is **begun** under another number. -/
theorem started_restamp (hσ : σ.Injective) (number : Nat) (name : String) (signature : Signature)
    (sink : Sink) (level : TraceDetail) :
    started (σ number) name signature sink level =
        (started number name signature sink level).restamp σ (Reply.restamp σ) ∧
      (started number name signature sink level).builder.Begun := by
  have hfresh : (Builder.mk sink level (.building (.fresh number name signature sink))).Begun := by
    intro s hs
    cases hs
    exact Nat.zero_lt_one
  obtain ⟨hsame, hbegun⟩ :=
    submit_restamp hfresh (Emit.restamps_begin (σ := σ) (Tracer.restamps_ofLevel hσ level))
  refine ⟨?_, hbegun⟩
  have hrestamp : begin (σ number) name signature sink level =
      (begin number name signature sink level).restamp σ id := by
    rw [begin, begin, ← hsame, Session.fresh_restamp]
    rfl
  rw [started, started, hrestamp]
  refine Outcome.restamp_as (fun a => ?_) _
  rfl

/-- A call with other stamps is **answered** by the builder with other stamps as the call is by the
builder. -/
theorem answer_restamp (hσ : σ.Injective) (hb : b.Begun) (c : Call) :
    (b.restamp σ).answer (c.restamp σ) = (b.answer c).restamp σ (Reply.restamp σ) ∧
      (b.answer c).builder.Begun := by
  have ht := Tracer.restamps_ofLevel hσ b.level
  -- an end answers with a procedure, which carries no stamp
  cases c with
  | perform o =>
    obtain ⟨hsame, hbegun⟩ := submit_restamp hb (o.restamps_perform hσ ht)
    refine ⟨?_, hbegun⟩
    rw [Call.restamp, answer, answer, perform, perform, hsame]
    refine Outcome.restamp_as (fun a => ?_) _
    rfl
  | finish =>
    obtain ⟨hsame, hbegun⟩ := submit_restamp hb (Emit.restamps_finish hσ ht)
    have hfinish : (b.restamp σ).finish = b.finish.restamp σ id ∧ b.finish.builder.Begun := by
      unfold finish
      dsimp only
      rw [hsame]
      cases hresult : (b.submit Emit.finish).result with
      | ok p =>
        have hresult' : ((b.submit Emit.finish).restamp σ id).result = .ok p := by
          rw [Outcome.restamp, hresult]
          rfl
        rw [hresult']
        exact ⟨by rw [Outcome.restamp, hresult]; rfl, fun s hs => by cases hs⟩
      | error e =>
        have hresult' : ((b.submit Emit.finish).restamp σ id).result = .error (e.restamp σ) := by
          rw [Outcome.restamp, hresult]
          rfl
        rw [hresult']
        exact ⟨rfl, hbegun⟩
    refine ⟨?_, hfinish.2⟩
    rw [Call.restamp, answer, answer, hfinish.1]
    refine Outcome.restamp_as (fun a => ?_) _
    rfl

/-- What a builder is asked shows no stamps. -/
theorem queries_restamp (b : Builder) :
    ((b.restamp σ).procedureName, (b.restamp σ).signature, (b.restamp σ).debug) =
      (b.procedureName, b.signature, b.debug) := by
  obtain ⟨sink, level, state⟩ := b
  cases state <;> rfl

end Builder

end Stackwright
