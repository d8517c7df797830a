import Stackwright.Proofs.Process.Builders

/-! # Interleaved builders

A **process** begins builders and calls them, in any order. The builders share nothing but the counter
that numbers their sessions, so each does what it does in a process of its own, where its session has
another number.

* **`Process.step`**, **`Process.log`** — what an event does, and what came of a row of events.
* **`Process.log_alone`** — the entries of one builder are those of a process that runs its own events
  alone. -/

namespace Stackwright

/-- What happens in a process. -/
inductive Event
  /-- A builder is begun. -/
  | begin (name : String) (signature : Signature) (sink : Sink) (level : TraceDetail)
  /-- A builder is called. Builders are numbered in the order in which they were begun. -/
  | call (builder : Nat) (call : Call)

/-- The builder that an event calls. -/
def Event.builder? : Event → Option Nat
  | .begin .. => none
  | .call k _ => some k

/-- An event that happened to a builder, and what came of it. -/
structure Entry where
  /-- The builder. -/
  builder : Nat
  /-- The event. -/
  event : Event
  /-- What came of it. -/
  outcome : Outcome Reply

/-- The builders of a **process**, in the order in which they were begun. -/
abbrev Process := List Builder

namespace Process

/-- The number of the session of a builder: the process counts from one, and its counter wraps around. -/
def stamp (k : Nat) : Nat := (k + 1) % UInt32.size

/-- What comes of an event. A builder that was not begun cannot be called. -/
def happens? (p : Process) : Event → Option Entry
  | .begin name signature sink level =>
    some ⟨p.length, .begin name signature sink level,
      Builder.started (stamp p.length) name signature sink level⟩
  | .call k c => p[k]?.map fun b => ⟨k, .call k c, b.answer c⟩

/-- The process behind an event. -/
def step (p : Process) : Event → Process
  | .begin name signature sink level =>
    p ++ [(Builder.started (stamp p.length) name signature sink level).builder]
  | .call k c => p.modify k fun b => (b.answer c).builder

/-- The process behind a row of events. -/
def after (p : Process) (es : List Event) : Process := es.foldl step p

/-- What happened in a row of events. -/
def log (p : Process) : List Event → List Entry
  | [] => []
  | e :: es => (p.happens? e).toList ++ (p.step e).log es

/-- What happened to one builder in a row of events. -/
def logOf (p : Process) (k : Nat) (es : List Event) : List Entry :=
  (p.log es).filter (·.builder = k)

end Process

variable {σ : Nat → Nat} {p : Process} {e : Event} {es : List Event} {k : Nat} {b : Builder} {x : Entry}

/-! ## One builder alone -/

/-- The event as it happens to the only builder of a process, with other stamps. -/
def Event.alone (σ : Nat → Nat) : Event → Event
  | .begin name signature sink level => .begin name signature sink level
  | .call _ c => .call 0 (c.restamp σ)

/-- The entry as it is made for the only builder of a process, with other stamps. -/
def Entry.alone (σ : Nat → Nat) (x : Entry) : Entry :=
  ⟨0, x.event.alone σ, x.outcome.restamp σ (Reply.restamp σ)⟩

namespace Process

/-- The process with one of its builders alone, with other stamps, if it was begun. -/
def only (σ : Nat → Nat) (p : Process) (k : Nat) : Process := p[k]?.toList.map (Builder.restamp σ)

/-! ### What an event does -/

/-- An event leaves every other builder as it was. -/
theorem getElem?_step_of_ne (hk : k < p.length) (he : e.builder? ≠ some k) : (p.step e)[k]? = p[k]? := by
  cases e with
  | begin name signature sink level => exact List.getElem?_append_left hk
  | call j c =>
    have hne : j ≠ k := fun h => he (congrArg some h)
    exact List.getElem?_modify_ne _ _ hne

/-- A called builder is behind its answer. -/
theorem getElem?_step_call (hb : p[k]? = some b) (c : Call) :
    (p.step (.call k c))[k]? = some (b.answer c).builder := by
  rw [step, List.getElem?_modify_eq, hb]
  rfl

theorem begun_step (hp : ∀ b ∈ p, b.Begun) (e : Event) : ∀ b ∈ p.step e, b.Begun := by
  cases e with
  | begin name signature sink level =>
    intro b hb
    rcases List.mem_append.1 hb with hb | hb
    · exact hp b hb
    · rw [List.mem_singleton.1 hb]
      exact (Builder.started_restamp Function.injective_id _ _ _ _ _).2
  | call j c =>
    intro b hb
    obtain ⟨i, hi⟩ := List.mem_iff_getElem?.1 hb
    rw [step, List.getElem?_modify] at hi
    obtain ⟨b₀, hb₀, rfl⟩ := Option.map_eq_some_iff.1 hi
    have hbegun := hp b₀ (List.mem_of_getElem? hb₀)
    split
    · exact (Builder.answer_restamp Function.injective_id hbegun c).2
    · exact hbegun

/-- What happens to a builder happens to it alone. -/
theorem happens?_only (hσ : σ.Injective) (hstamp : σ (stamp k) = stamp 0) (hp : ∀ b ∈ p, b.Begun)
    (hx : p.happens? e = some x) (hk : x.builder = k) :
    (p.only σ k).happens? (x.event.alone σ) = some (x.alone σ) ∧
      (p.only σ k).step (x.event.alone σ) = (p.step e).only σ k := by
  cases e with
  | begin name signature sink level =>
    obtain rfl := Option.some.inj hx
    obtain rfl : p.length = k := hk
    have hnone : p[p.length]? = none := List.getElem?_eq_none (Nat.le_refl _)
    have hstarted := (Builder.started_restamp hσ (stamp p.length) name signature sink level).1
    rw [hstamp] at hstarted
    rw [only, hnone, only, step, List.getElem?_concat_length]
    refine ⟨congrArg (fun r => some (Entry.mk 0 _ r)) hstarted, ?_⟩
    exact congrArg (fun r : Outcome Reply => [r.builder]) hstarted
  | call j c =>
    obtain ⟨b, hb, rfl⟩ := Option.map_eq_some_iff.1 hx
    obtain rfl : j = k := hk
    have hanswer := (Builder.answer_restamp hσ (hp b (List.mem_of_getElem? hb)) c).1
    rw [only, only, getElem?_step_call hb, hb]
    refine ⟨congrArg (fun r => some (Entry.mk 0 _ r)) hanswer, ?_⟩
    exact congrArg (fun r : Outcome Reply => [r.builder]) hanswer

/-- What does not happen to a builder leaves it alone. -/
theorem only_step_of_ne (hx : ∀ x, p.happens? e = some x → x.builder ≠ k) :
    (p.step e).only σ k = p.only σ k := by
  rw [only, only]
  cases e with
  | begin name signature sink level =>
    have hne : p.length ≠ k := hx _ rfl
    rw [step, List.getElem?_append]
    split
    · rfl
    · have hnone : p[k]? = none := List.getElem?_eq_none (by omega)
      rw [hnone, List.getElem?_eq_none (by simp; omega)]
  | call j c =>
    by_cases hjk : j = k
    · subst hjk
      cases hb : p[j]? with
      | none => rw [step, List.getElem?_modify_eq, hb]; rfl
      | some b =>
        have hentry : p.happens? (.call j c) = some ⟨j, .call j c, b.answer c⟩ := by
          rw [happens?, hb]
          rfl
        exact absurd rfl (hx _ hentry)
    · rw [step, List.getElem?_modify_ne _ _ hjk]

/-! ### A row of events -/

/-- **Builders do not interfere**: what happens to a builder in a process is what happens in a process
that runs the events of that builder alone, its session under another number. -/
theorem log_alone (hσ : σ.Injective) (hstamp : σ (stamp k) = stamp 0) (hp : ∀ b ∈ p, b.Begun)
    (es : List Event) :
    (p.only σ k).log ((p.logOf k es).map fun x => x.event.alone σ) = (p.logOf k es).map (Entry.alone σ) := by
  -- an event of another builder is a step that this one does not see
  induction es generalizing p with
  | nil => rfl
  | cons e es ih =>
    have hrest := ih (begun_step hp e)
    have hcons : p.logOf k (e :: es) =
        (p.happens? e).toList.filter (·.builder = k) ++ (p.step e).logOf k es := by
      rw [logOf, log, List.filter_append, logOf]
    rw [hcons]
    cases hx : p.happens? e with
    | none =>
      rw [only_step_of_ne fun x h => by rw [hx] at h; cases h] at hrest
      exact hrest
    | some x =>
      by_cases hk : x.builder = k
      · obtain ⟨hentry, hstep⟩ := happens?_only hσ hstamp hp hx hk
        rw [Option.toList_some, List.filter_cons_of_pos (by simpa using hk), List.filter_nil,
          List.singleton_append, List.map_cons, List.map_cons, log, hentry, hstep, hrest]
        rfl
      · rw [only_step_of_ne fun y h => by rw [hx] at h; cases h; exact hk] at hrest
        rw [Option.toList_some, List.filter_cons_of_neg (by simpa using hk), List.filter_nil,
          List.nil_append]
        exact hrest

end Process

end Stackwright
