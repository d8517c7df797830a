import Stackwright.Proofs.Builder.Scripts
import Stackwright.Proofs.Tracing.Endings

/-! # What tracing changes while building

One script played at the three levels. Without a trace and with a transcript, each call has the same
result and the sessions differ in the transcript alone. In full, each call is accepted or refused as with
a transcript, with the same constructs open and the same lines written, but for one renumbering of locals,
labels and loops that keeps their order. -/

namespace Stackwright

/-! ## The levels -/

namespace Tandem

/-- Without a trace and with a transcript. -/
theorem levels_logged :
    logged.Levels .off .log (fun p p' => p' = p) fun _ _ _ => True where
  toStructured := structured_logged
  left := rfl
  right := rfl
  begun := by
    rintro _ s _ ⟨rfl, n, ns, rfl⟩
    obtain ⟨x, hx⟩ := Emit.run_begin logged.left s
    obtain ⟨x', hx'⟩ := Emit.run_begin logged.right (s.retold n ns)
    exact Agree.of_ok hx hx' le_rfl
      (logged_written ⟨rfl, n, _, rfl⟩ _ _) trivial
  delivered := by
    rintro _ s _ ⟨rfl, n, ns, rfl⟩
    exact ⟨rfl, n, #[], rfl⟩
  finished := finish_logged
  told _ := trivial
  silent _ := trivial
  retold _ _ := trivial

end Tandem

namespace Pairing

/-- Before the first call only the labels at the end belong together. -/
def initial : Pairing := ⟨fun _ _ => False, fun i k => i = 0 ∧ k = 0, fun _ _ => False⟩

/-- A renumbering that **keeps the order** of locals, of labels and of loops. -/
structure Ordered (g : Pairing) : Prop where
  /-- The order of locals is kept. -/
  slots : ∀ i k i' k', g.slots i k → g.slots i' k' → (i < i' ↔ k < k')
  /-- The order of labels is kept. -/
  labels : ∀ i k i' k', g.labels i k → g.labels i' k' → (i < i' ↔ k < k')
  /-- The order of loops is kept. -/
  loops : ∀ i k i' k', g.loops i k → g.loops i' k' → (i < i' ↔ k < k')

end Pairing

/-- The same line, but for the number of a label. -/
def Line.Alike (g : Pairing) (x x' : Nat × String) : Prop := x'.1 = x.1 ∧ Text.Alike g x.2 x'.2

/-- Of what was made known alike, the lines are alike. -/
theorem Notice.Alike.lines {g : Pairing} {ns ns' : Array Notice}
    (h : List.Forall₂ (Notice.Alike g) ns.toList ns'.toList) :
    List.Forall₂ (Line.Alike g) (Notice.lines ns) (Notice.lines ns') := by
  refine List.rel_filterMap ?_ h
  intro n n' hn
  cases hn with
  | line n hx => exact .some ⟨rfl, hx⟩
  | message => exact .none

/-- Fresh sessions have everything in common. -/
theorem Session.alike_fresh (number : Nat) (name : String) (signature : Signature) (sink : Sink) :
    (Session.fresh number name signature sink).Alike .initial
      (.fresh number name signature sink) where
  fixed := rfl
  slots := ⟨fun _ hi => absurd hi (Nat.not_lt_zero _), fun _ _ h => h.elim, fun _ _ _ _ h => h.elim⟩
  locals _ _ h := h.elim
  labels := by
    refine ⟨fun i hi => ⟨0, ?_, rfl⟩, ?_, ?_⟩
    · exact Nat.lt_one_iff.1 hi
    · rintro i k ⟨rfl, rfl⟩
      exact ⟨Nat.zero_lt_one, Nat.zero_lt_one⟩
    · rintro i k i' k' ⟨rfl, rfl⟩ ⟨rfl, rfl⟩
      exact Iff.rfl
  finish := ⟨rfl, rfl, rfl⟩
  marked l l' hl := by rw [Label.ext hl.1.symm (hl.2.1.trans hl.2.2.symm)]
  targeted l l' hl := by rw [Label.ext hl.1.symm (hl.2.1.trans hl.2.2.symm)]
  spare l hl hr := absurd ⟨rfl, Nat.lt_one_iff.1 hl.2⟩ (hr 0)
  loops := ⟨fun _ hi => absurd hi (Nat.not_lt_zero _), fun _ _ h => h.elim, fun _ _ _ _ h => h.elim⟩
  constructs := .nil
  formatArray := .none
  nextLine := rfl
  notices := .nil

/-- There is no code yet, and so no way to go. -/
theorem Session.traced_fresh (number : Nat) (name : String) (signature : Signature) (sink : Sink) :
    (Session.fresh number name signature sink).Traced sink .initial (.fresh number name signature sink) where
  toAlike := alike_fresh number name signature sink
  sink := rfl
  woven := by
    have hsound := sound_fresh number name signature sink
    refine ⟨.refl, fun l l' n n' _ hn hn' => ?_⟩
    obtain rfl := Nat.le_zero.1 (hsound.within l n hn)
    obtain rfl := Nat.le_zero.1 (hsound.within l' n' hn')
    exact .refl

namespace Tandem

/-- With a transcript and in full. -/
theorem levels_shown {sink : Sink} :
    (shown sink).Levels .log .full (Procedure.Woven sink) fun g => List.Forall₂ (Line.Alike g) where
  toStructured := structured_shown
  left := rfl
  right := rfl
  begun {g s s'} h := by
    obtain ⟨x, hx⟩ := Emit.run_begin (shown sink).left s
    obtain ⟨x', hx'⟩ := Emit.run_begin (shown sink).right s'
    have hname : s'.name = s.name := congrArg Prod.fst h.fixed
    have htext : "Begin method " ++ s'.name ++ " \x7b" = "Begin method " ++ s.name ++ " \x7b" := by
      rw [hname]
    have hmessage : (shown sink).sessions g { s with notices := s.notices.push (.message .debug x) }
        { s' with notices := s'.notices.push (.message .debug x') } :=
      ⟨{ h.toAlike with notices := Session.forall₂_push h.notices (.message _ _ _ _) }, h.sink, h.woven.notified _ _⟩
    exact Agree.of_ok hx hx' le_rfl (straight_shown.written hmessage (.of_eq htext)) trivial
  delivered h := ⟨{ h.toAlike with notices := .nil }, h.sink, h.woven.delivered⟩
  finished := finish_shown
  told h := Notice.Alike.lines h.notices
  silent _ := .nil
  retold hle h := h.imp fun _ _ hx => ⟨hx.1, hx.2.mono hle⟩

end Tandem

/-! ## Scripts at the levels -/

/-- The same result, with sessions that differ in the **transcript** alone. -/
structure Outcome.Same (r r' : Outcome Reply) : Prop where
  /-- The call is answered or refused in the same way. -/
  result : r'.result = r.result
  /-- The same instructions, marks, locals and constructs are behind it. -/
  state : r.builder.state.Together (fun s s' => ∃ n ns, s' = s.retold n ns) r'.builder.state

/-- The same, but for the code that shows values and for a **renumbering**. -/
structure Outcome.Alike (g : Pairing) (r r' : Outcome Reply) : Prop where
  /-- The call is answered alike, or refused for the same reason. -/
  result : Result.Paired g
    (Reply.Paired g fun p p' => p'.name = p.name ∧ p'.signature = p.signature) r.result r'.result
  /-- The same constructs are open behind it. -/
  state : r.builder.state.Together
    (fun s s' => List.Forall₂ (Construct.Paired g) s.constructs s'.constructs) r'.builder.state
  /-- The same lines are written under the same numbers. -/
  lines : List.Forall₂ (Line.Alike g) (Notice.lines r.notices) (Notice.lines r'.notices)

/-- Answers that belong together by the same numbers are the same. -/
theorem Answer.Paired.eq {a a' : Answer} (h : a.Paired .same a') : a' = a := by
  cases h with
  | «variable» h => rw [h.eq]
  | label h => rw [h.eq]
  | labels h => rw [eq_of_forall₂ (fun _ _ => Label.Paired.eq) h]
  | loop h => rw [h.eq]
  | _ => rfl

/-- So are results. -/
theorem Result.Paired.eq {r r' : Except BuildError Reply}
    (h : Result.Paired .same (Reply.Paired .same fun p p' => p' = p) r r') : r' = r := by
  cases h with
  | error he => rw [he.eq]
  | ok hr =>
    cases hr with
    | begun => rfl
    | answered ha => rw [ha.eq]
    | built hp => rw [hp]

namespace Builder

variable (number : Nat) (name : String) (signature : Signature) (sink : Sink) (cs : List Call)

/-- A transcript changes no result, and nothing in the session besides itself. -/
theorem script_logged :
    List.Forall₂ Outcome.Same (script number name signature sink .off cs)
      (script number name signature sink .log cs) := by
  have hfresh : Tandem.logged.sessions .same (.fresh number name signature sink)
      (.fresh number name signature sink) := ⟨rfl, 1, #[], rfl⟩
  obtain ⟨g, rfl, h⟩ := Tandem.script_together (P := fun g => g = .same) Tandem.levels_logged
    (fun hs => hs.1) hfresh cs
  exact h.imp fun r r' hr =>
    { result := hr.result.eq
      state := hr.state.imp fun s s' ⟨_, _, _, hs⟩ => hs }

/-- In full each call goes as with a transcript, under one renumbering, and a procedure that is built is **the same
one with interludes**. -/
theorem script_traced :
    ∃ g : Pairing, g.Ordered ∧ List.Forall₂
      ((Tandem.shown sink).Agreed (Procedure.Woven sink) (fun g => List.Forall₂ (Line.Alike g)) g)
      (script number name signature sink .log cs) (script number name signature sink .full cs) :=
  Tandem.script_together (P := Pairing.Ordered) Tandem.levels_shown
    (fun hs => ⟨hs.toAlike.slots.order, hs.toAlike.labels.order, hs.toAlike.loops.order⟩)
    (Session.traced_fresh number name signature sink) cs

/-- Showing values changes no result, no open construct and no line, but for one renumbering. -/
theorem script_shown :
    ∃ g : Pairing, g.Ordered ∧ List.Forall₂ (Outcome.Alike g)
      (script number name signature sink .log cs) (script number name signature sink .full cs) := by
  obtain ⟨g, hg, h⟩ := script_traced number name signature sink cs
  refine ⟨g, hg, h.imp fun r r' hr => { result := ?_, state := ?_, lines := hr.lines }⟩
  · refine hr.result.mono le_rfl fun _ _ hreply => hreply.imp fun p p' ⟨_, _, _, hp⟩ => ⟨hp.name, hp.signature⟩
  · exact hr.state.imp fun s s' ⟨g₁, hle, hs⟩ => hs.toAlike.constructs.imp fun _ _ hc => hc.mono hle

/-- **Tracing changes nothing** that is recorded or reported: at the second level a script gets the
results of the first one and leaves the sessions of the first one, with a transcript; at the third level
it gets the results, the open constructs and the transcript of the second one, under one renumbering that
keeps the order of locals, labels and loops. -/
theorem script_levels :
    List.Forall₂ Outcome.Same (script number name signature sink .off cs)
        (script number name signature sink .log cs) ∧
      ∃ g : Pairing, g.Ordered ∧ List.Forall₂ (Outcome.Alike g)
        (script number name signature sink .log cs) (script number name signature sink .full cs) :=
  ⟨script_logged number name signature sink cs, script_shown number name signature sink cs⟩

end Builder

end Stackwright
