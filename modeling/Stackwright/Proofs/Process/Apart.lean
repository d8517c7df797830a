import Mathlib.Data.List.Induction
import Mathlib.Logic.Equiv.Basic
import Stackwright.Proofs.Process.Interleaving
import Stackwright.Proofs.Process.Tokens

/-! # Tokens in a process

Every label and every loop that a builder of a process answered carries the number of its session, and the
session keeps knowing them. As long as the counter of the process did not wrap around, no other session
has that number, so no other builder takes the token, whatever else it has answered itself.

* **`Builder.Accounts n xs b`** — a builder knows what it answered.
* **`Process.accounts_after`** — so does every builder of a process.
* **`Process.sessions_apart`** — builders do not interfere, and no token of one is accepted by another. -/

namespace Stackwright

/-! ## What was answered -/

/-- The operation that happened, if one did. -/
def Entry.operation? (x : Entry) : Option Operation :=
  match x.event with
  | .call _ (.perform o) => some o
  | _ => none

/-- What it answered, if it was accepted. -/
def Entry.answer? (x : Entry) : Option Answer :=
  match x.outcome.result with
  | .ok (.answered a) => some a
  | _ => none

/-- What it made of the open loops: an operation that was not accepted leaves them as they are. -/
def Entry.turnLoops (hs : List LoopHandle) (x : Entry) : List LoopHandle :=
  match x.operation?, x.answer? with
  | some o, some a => o.turnLoops a hs
  | _, _ => hs

/-- The labels that were **issued**. -/
def issuedLabels (xs : List Entry) : List Label := (xs.filterMap Entry.answer?).flatMap Answer.issued

/-- The loops that were **issued**. -/
def issuedLoops (xs : List Entry) : List LoopHandle := (xs.filterMap Entry.answer?).filterMap Answer.loop?

/-- The loops that were opened and not closed again, innermost first. -/
def openLoops (xs : List Entry) : List LoopHandle := xs.foldl Entry.turnLoops []

variable {σ : Nat → Nat} {n : Nat} {b : Builder} {s : Session} {xs : List Entry} {x : Entry} {o : Operation}
  {a : Answer} {k : Nat}

theorem issuedLabels_concat (hx : x.answer? = some a) :
    issuedLabels (xs ++ [x]) = issuedLabels xs ++ a.issued := by
  simp [issuedLabels, hx]

theorem issuedLoops_concat (hx : x.answer? = some a) :
    issuedLoops (xs ++ [x]) = issuedLoops xs ++ a.loop?.toList := by
  rw [issuedLoops, List.filterMap_append, List.filterMap_append, issuedLoops]
  simp only [List.filterMap_cons_some hx, List.filterMap_nil]
  cases a <;> rfl

theorem openLoops_concat (ho : x.operation? = some o) (hx : x.answer? = some a) :
    openLoops (xs ++ [x]) = o.turnLoops a (openLoops xs) := by
  rw [openLoops, List.foldl_concat, Entry.turnLoops, ho, hx, openLoops]

/-- Nothing is issued where nothing is answered. -/
theorem concat_unanswered (hx : x.answer? = none) (xs : List Entry) :
    issuedLabels (xs ++ [x]) = issuedLabels xs ∧ issuedLoops (xs ++ [x]) = issuedLoops xs ∧
      openLoops (xs ++ [x]) = openLoops xs := by
  have hanswers : (xs ++ [x]).filterMap Entry.answer? = xs.filterMap Entry.answer? := by
    rw [List.filterMap_append, List.filterMap_cons_none hx, List.filterMap_nil, List.append_nil]
  refine ⟨?_, ?_, ?_⟩
  · rw [issuedLabels, hanswers, issuedLabels]
  · rw [issuedLoops, hanswers, issuedLoops]
  · rw [openLoops, List.foldl_concat, Entry.turnLoops, hx, openLoops]
    cases x.operation? <;> rfl

/-- The open loops were issued. -/
theorem openLoops_subset : openLoops xs ⊆ issuedLoops xs := by
  induction xs using List.reverseRecOn with
  | nil => exact List.Subset.refl _
  | append_singleton xs x ih =>
    cases ha : x.answer? with
    | none =>
      obtain ⟨-, hloops, hopen⟩ := concat_unanswered ha xs
      rw [hloops, hopen]
      exact ih
    | some a =>
      rw [issuedLoops_concat ha]
      cases ho : x.operation? with
      | none =>
        have hopen : openLoops (xs ++ [x]) = openLoops xs := by
          rw [openLoops, List.foldl_concat, Entry.turnLoops, ho, openLoops]
        rw [hopen]
        exact List.subset_append_of_subset_left _ ih
      | some o =>
        rw [openLoops_concat ho ha, Operation.turnLoops]
        split
        · exact List.subset_append_of_subset_left _ (fun _ hh => ih (List.mem_of_mem_tail hh))
        · exact List.append_subset.2 ⟨List.subset_append_right _ _, List.subset_append_of_subset_left _ ih⟩

/-! ## Accounts -/

/-- A session **accounts** for what it issued: it has the number that the tokens carry, it knows the
labels, it gave the loops their numbers, and it keeps those that are open. -/
structure Session.Accounts (n : Nat) (xs : List Entry) (s : Session) : Prop where
  /-- What every session keeps to. -/
  fit : s.Fit
  /-- The number of the session. -/
  number : s.labels.session = n
  /-- The labels are known. -/
  labels : ∀ l ∈ issuedLabels xs, s.labels.Known l
  /-- The numbers of the loops were given. -/
  loops : ∀ h ∈ issuedLoops xs, h.id < s.nextLoop
  /-- The open loops are kept. -/
  openLoops : s.openLoops = Stackwright.openLoops xs

/-- The tokens that a builder issued carry the number of its session, no two of the loops are the same,
and while it takes calls its session accounts for them. -/
structure Builder.Accounts (n : Nat) (xs : List Entry) (b : Builder) : Prop where
  /-- The labels carry the number. -/
  labels : ∀ l ∈ issuedLabels xs, l.session = n
  /-- The loops carry the number. -/
  loops : ∀ h ∈ issuedLoops xs, h.session = n
  /-- No two loops are the same. -/
  distinct : (issuedLoops xs).Nodup
  /-- The session accounts for them. -/
  session : ∀ s, b.state = .building s → s.Accounts n xs

/-- What an operation answers is accounted for behind it. -/
theorem Session.Accounts.answered {s' : Session} (h : s.Accounts n xs) (ha : o.Answers a s s')
    (ho : x.operation? = some o) (hx : x.answer? = some a) : s'.Accounts n (xs ++ [x]) where
  fit := ha.fit
  number := ha.number.trans h.number
  labels l hl := by
    rw [issuedLabels_concat hx] at hl
    rcases List.mem_append.1 hl with hl | hl
    · exact ha.known (h.labels l hl)
    · exact ha.issued l hl
  loops k hk := by
    rw [issuedLoops_concat hx] at hk
    rcases List.mem_append.1 hk with hk | hk
    · exact Nat.lt_of_lt_of_le (h.loops k hk) ha.toOnward.loops
    · exact (ha.fresh k (Option.mem_toList.1 hk)).2.2
  openLoops := by
    rw [openLoops_concat ho hx, ← h.openLoops]
    exact ha.openLoops

namespace Builder

/-- A new builder issued nothing. -/
theorem accounts_started (k : Nat) (e : Event) (number : Nat) (name : String) (signature : Signature) (sink : Sink)
    (level : TraceDetail) :
    (started number name signature sink level).builder.Accounts number
      [⟨k, e, started number name signature sink level⟩] := by
  obtain ⟨s, hs, hspares⟩ := begin_spares number name signature sink level
  have hnone : (Entry.mk k e (started number name signature sink level)).answer? = none := by
    unfold Entry.answer? started Outcome.as
    cases (begin number name signature sink level).result <;> rfl
  obtain ⟨hlabels, hloops, hopen⟩ := concat_unanswered hnone []
  rw [List.nil_append] at hlabels hloops hopen
  refine ⟨?_, ?_, ?_, fun s₁ hs₁ => ?_⟩
  · rw [hlabels]
    exact nofun
  · rw [hloops]
    exact nofun
  · rw [hloops]
    exact List.nodup_nil
  · obtain rfl : s = s₁ := BuilderState.building.inj (hs.symm.trans hs₁)
    refine ⟨hspares.fit, hspares.grows.number, ?_, ?_, ?_⟩
    · rw [hlabels]
      exact nofun
    · rw [hloops]
      exact nofun
    · rw [hopen, Session.openLoops, hspares.constructs]
      rfl

/-- A builder that takes no more calls issues nothing more. -/
theorem Accounts.unanswered (h : b.Accounts n xs) (hx : x.answer? = none) {b' : Builder}
    (hb' : ∀ s, b'.state ≠ .building s) : b'.Accounts n (xs ++ [x]) := by
  obtain ⟨hlabels, hloops, -⟩ := concat_unanswered hx xs
  exact ⟨hlabels ▸ h.labels, hloops ▸ h.loops, hloops ▸ h.distinct, fun s hs => absurd hs (hb' s)⟩

/-- An accepted operation issues tokens of its session. -/
theorem Accounts.answered (h : b.Accounts n xs) (hs : b.state = .building s) {s' : Session}
    (ha : o.Answers a s s') (ho : x.operation? = some o) (hx : x.answer? = some a) :
    (taking b.sink b.level { s' with notices := #[] }).Accounts n (xs ++ [x]) := by
  have hsession := h.session s hs
  have hsession' := hsession.answered ha ho hx
  refine ⟨fun l hl => ?_, fun k hk => ?_, ?_, fun s₁ hs₁ => ?_⟩
  · exact (hsession'.labels l hl).1.trans hsession'.number
  · rw [issuedLoops_concat hx] at hk
    rcases List.mem_append.1 hk with hk | hk
    · exact h.loops k hk
    · exact (ha.fresh k (Option.mem_toList.1 hk)).1.trans hsession.number
  · rw [issuedLoops_concat hx, List.nodup_append]
    refine ⟨h.distinct, by cases a.loop? <;> simp, fun k hk k' hk' heq => ?_⟩
    -- a new loop has a number that was not given before
    have hold := hsession.loops k hk
    have hnew := (ha.fresh k' (Option.mem_toList.1 hk')).2.1
    rw [heq] at hold
    exact absurd hold (Nat.not_lt.2 hnew)
  · cases hs₁
    exact ⟨(Session.spares_delivered hsession'.fit).fit, hsession'.number, hsession'.labels, hsession'.loops,
      hsession'.openLoops⟩

/-- A builder that takes no more calls refuses every call and stays as it is. -/
theorem answer_idle (h : ∀ s, b.state ≠ .building s) (c : Call) :
    ∃ r, (b.answer c).result = .error r ∧ (b.answer c).builder = b := by
  obtain ⟨sink, level, state⟩ := b
  cases state with
  | building s => exact absurd rfl (h s)
  | aborted => cases c <;> exact ⟨_, rfl, rfl⟩
  | finalized => cases c <;> exact ⟨_, rfl, rfl⟩

/-- The end of a procedure answers no token, and the builder takes no more calls. -/
theorem answer_finish (h : b.state = .building s) :
    (Entry.mk k (.call k .finish) (b.answer .finish)).answer? = none ∧
      ∀ s', (b.answer .finish).builder.state ≠ .building s' := by
  rw [Entry.answer?, answer, Outcome.as]
  dsimp only
  cases hrun : (Emit.finish.run (.ofLevel b.level)).run s with
  | ok p s₁ =>
    obtain ⟨hresult, hstate⟩ := finish_ok h hrun
    rw [hresult, hstate]
    exact ⟨rfl, fun s' hs' => by cases hs'⟩
  | error r s₁ =>
    obtain ⟨hresult, hstate⟩ := finish_error h hrun
    rw [hresult, hstate]
    exact ⟨rfl, fun s' hs' => by cases hs'⟩

/-- Every call is **accounted for**. -/
theorem accounts_answer (h : b.Accounts n xs) (k : Nat) (c : Call) :
    (b.answer c).builder.Accounts n (xs ++ [⟨k, .call k c, b.answer c⟩]) := by
  have hrefused : ∀ {r : BuildError}, (b.answer c).result = .error r →
      (Entry.mk k (.call k c) (b.answer c)).answer? = none := by
    intro r hr
    rw [Entry.answer?, hr]
  -- only a builder that builds can answer with tokens
  by_cases hbuilding : ∃ s, b.state = .building s
  · obtain ⟨s, hs⟩ := hbuilding
    cases c with
    | finish =>
      obtain ⟨hnone, hstate⟩ := answer_finish (k := k) hs
      exact h.unanswered hnone hstate
    | perform o =>
      cases hrun : (o.perform.run (.ofLevel b.level)).run s with
      | ok a s' =>
        have hok := perform_ok hs hrun
        have ha := Operation.answers_perform (h.session s hs).fit hrun
        rw [answer, Outcome.as, hok]
        exact h.answered hs ha rfl rfl
      | error r s' =>
        obtain ⟨hresult, habort⟩ := perform_error hs hrun
        refine h.unanswered (hrefused (r := r) ?_) fun s₁ hs₁ => ?_
        · rw [answer, Outcome.as, hresult]
          rfl
        · rw [answer, Outcome.as, habort] at hs₁
          cases hs₁
  · have hidle : ∀ s, b.state ≠ .building s := fun s hs => hbuilding ⟨s, hs⟩
    obtain ⟨r, hr, hsame⟩ := answer_idle hidle c
    refine h.unanswered (hrefused hr) fun s => ?_
    rw [hsame]
    exact hidle s

end Builder

/-! ## Every builder of a process -/

namespace Process

variable {p : Process} {es : List Event}

theorem length_step (p : Process) (e : Event) :
    (p.step e).length = p.length ∨ (p.step e).length = p.length + 1 := by
  cases e with
  | begin name signature sink level => exact .inr (by simp [step])
  | call k c => exact .inl (by simp [step])

theorem log_concat (p : Process) (es : List Event) (e : Event) :
    p.log (es ++ [e]) = p.log es ++ ((p.after es).happens? e).toList := by
  induction es generalizing p with
  | nil => simp [log, after]
  | cons e' es ih =>
    rw [List.cons_append, log, log, ih, List.append_assoc]
    rfl

theorem logOf_concat (p : Process) (k : Nat) (es : List Event) (e : Event) :
    p.logOf k (es ++ [e]) = p.logOf k es ++ ((p.after es).happens? e).toList.filter (·.builder = k) := by
  rw [logOf, log_concat, List.filter_append, logOf]

theorem after_concat (p : Process) (es : List Event) (e : Event) : p.after (es ++ [e]) = (p.after es).step e := by
  rw [after, List.foldl_concat, after]

/-- What happens to a builder happens to one that was begun, or that is begun by it. -/
theorem builder_lt_of_happens? {e : Event} (hx : p.happens? e = some x) : x.builder < (p.step e).length := by
  cases e with
  | begin name signature sink level =>
    obtain rfl := Option.some.inj hx
    simp [step]
  | call k c =>
    obtain ⟨b, hb, rfl⟩ := Option.map_eq_some_iff.1 hx
    rw [step, List.length_modify]
    exact (List.getElem?_eq_some_iff.1 hb).1

theorem builder_lt_of_mem_log (hx : x ∈ log [] es) : x.builder < (after [] es).length := by
  induction es using List.reverseRecOn with
  | nil => cases hx
  | append_singleton es e ih =>
    rw [log_concat] at hx
    rw [after_concat]
    rcases List.mem_append.1 hx with hx | hx
    · have hlt := ih hx
      rcases length_step (after [] es) e with hlen | hlen <;> omega
    · exact builder_lt_of_happens? (Option.mem_toList.1 hx)

/-- Nothing happened to a builder that was not begun. -/
theorem logOf_eq_nil (hk : (after [] es).length ≤ k) : logOf [] k es = [] := by
  refine List.filter_eq_nil_iff.2 fun x hx => ?_
  have hlt := builder_lt_of_mem_log hx
  simp only [decide_eq_true_eq]
  omega

/-- What happens to another builder is not entered. -/
theorem logOf_concat_of_ne {e : Event} (hx : ∀ x, (p.after es).happens? e = some x → x.builder ≠ k) :
    p.logOf k (es ++ [e]) = p.logOf k es := by
  rw [logOf_concat]
  cases hentry : (p.after es).happens? e with
  | none => exact List.append_nil _
  | some x =>
    rw [Option.toList_some, List.filter_cons_of_neg (by simpa using hx x hentry)]
    exact List.append_nil _

theorem logOf_concat_of_eq {e : Event} (hx : (p.after es).happens? e = some x) (hk : x.builder = k) :
    p.logOf k (es ++ [e]) = p.logOf k es ++ [x] := by
  rw [logOf_concat, hx, Option.toList_some, List.filter_cons_of_pos (by simpa using hk), List.filter_nil]

/-- **Every builder of a process accounts** for what it issued. -/
theorem accounts_after (es : List Event) (k : Nat) (b : Builder) (hb : (after [] es)[k]? = some b) :
    b.Accounts (stamp k) (logOf [] k es) := by
  induction es using List.reverseRecOn generalizing k b with
  | nil => cases hb
  | append_singleton es e ih =>
    rw [after_concat] at hb
    cases e with
    | begin name signature sink level =>
      rw [step, List.getElem?_append] at hb
      split at hb
      · rename_i hlt
        rw [logOf_concat_of_ne fun x hx => by cases hx; exact Nat.ne_of_gt hlt]
        exact ih k b hb
      · rename_i hge
        -- the new builder is the last one
        have hk : (after [] es).length = k := by
          have hlt := (List.getElem?_eq_some_iff.1 hb).1
          rw [List.length_singleton] at hlt
          omega
        rw [hk, Nat.sub_self] at hb
        cases hb
        rw [logOf_concat_of_eq rfl hk, logOf_eq_nil (Nat.le_of_eq hk), hk]
        exact Builder.accounts_started k _ (stamp k) name signature sink level
    | call j c =>
      by_cases hjk : j = k
      · subst hjk
        obtain ⟨b₀, hb₀⟩ : ∃ b₀, (after [] es)[j]? = some b₀ := by
          rw [step, List.getElem?_modify_eq] at hb
          obtain ⟨b₀, hb₀, -⟩ := Option.map_eq_some_iff.1 hb
          exact ⟨b₀, hb₀⟩
        rw [getElem?_step_call hb₀] at hb
        cases hb
        have hentry : (after [] es).happens? (.call j c) = some ⟨j, .call j c, b₀.answer c⟩ := by
          rw [happens?, hb₀]
          rfl
        rw [logOf_concat_of_eq hentry rfl]
        exact Builder.accounts_answer (ih j b₀ hb₀) j c
      · rw [logOf_concat_of_ne fun x hx => by
          obtain ⟨b₀, -, rfl⟩ := Option.map_eq_some_iff.1 hx
          exact hjk]
        rw [step, List.getElem?_modify_ne _ _ hjk] at hb
        exact ih k b hb

/-! ## Tokens of other builders -/

/-- A builder of the process **refuses** an operation with an error, and it alone aborts. -/
def Refuses (p : Process) (k : Nat) (o : Operation) (r : BuildError) : Prop :=
  ∃ b, p[k]? = some b ∧ (b.answer (.perform o)).result = .error r ∧
    p.step (.call k (.perform o)) = p.set k { b with state := .aborted }

/-- A builder of the process **accepts** an operation, and takes more calls. -/
def Accepts (p : Process) (k : Nat) (o : Operation) : Prop :=
  ∃ b s, p[k]? = some b ∧ (b.answer (.perform o)).result = .ok (.answered .done) ∧
    (b.answer (.perform o)).builder.state = .building s

theorem refuses_of_run (hb : p[k]? = some b) (hs : b.state = .building s) {r : BuildError} {s' : Session}
    (hrun : (o.perform.run (.ofLevel b.level)).run s = .error r s') : p.Refuses k o r := by
  obtain ⟨hresult, -⟩ := Builder.perform_error hs hrun
  have haborted : (b.perform o).builder = { b with state := .aborted } := by
    obtain ⟨sink, level, state⟩ := b
    cases hs
    unfold Builder.perform Builder.submit
    dsimp only at hrun ⊢
    rw [hrun]
  refine ⟨b, hb, ?_, ?_⟩
  · rw [Builder.answer, Outcome.as, hresult]
    rfl
  · rw [step, List.modify_eq_set_getElem?, hb]
    exact congrArg (p.set k ·) haborted

theorem accepts_of_run (hb : p[k]? = some b) (hs : b.state = .building s) {s' : Session}
    (hrun : (o.perform.run (.ofLevel b.level)).run s = .ok .done s') : p.Accepts k o := by
  have hok := Builder.perform_ok hs hrun
  refine ⟨b, { s' with notices := #[] }, hb, ?_, ?_⟩
  · rw [Builder.answer, Outcome.as, hok]
    rfl
  · rw [Builder.answer, Outcome.as, hok]
    rfl

/-- No two builders have sessions of one number, as long as the counter does not wrap around. -/
theorem stamp_inj {j k : Nat} (hj : j + 1 < UInt32.size) (hk : k + 1 < UInt32.size) (h : stamp j = stamp k) :
    j = k := by
  rw [stamp, stamp, Nat.mod_eq_of_lt hj, Nat.mod_eq_of_lt hk] at h
  exact Nat.succ.inj h

/-- **Sessions do not interfere.** Whatever builders a process began and however their calls interleave,

* what happened to a builder is what happens to it in a process that runs its own events alone, its
  session under another number;
* an event changes no builder but the one that it calls, and one that takes no more calls refuses every
  call;
* a label or a loop that another builder issued is refused, and the builder that it is handed to alone
  aborts, as long as the counter of the sessions does not wrap around;
* a label of its own is accepted by every branch, and a loop of its own by a break exactly while it is
  open. -/
theorem sessions_apart (es : List Event) :
    (∀ k σ, σ.Injective → σ (stamp k) = stamp 0 →
      log [] ((logOf [] k es).map fun x => x.event.alone σ) = (logOf [] k es).map (Entry.alone σ)) ∧
    (∀ e k, k < (after [] es).length → e.builder? ≠ some k →
      ((after [] es).step e)[k]? = (after [] es)[k]?) ∧
    (∀ (k : Nat) (b : Builder), (after [] es)[k]? = some b → (∀ s, b.state ≠ .building s) →
      ∀ c, ∃ r, (b.answer c).result = .error r ∧ (b.answer c).builder = b) ∧
    ∀ (k : Nat) (b : Builder) (s : Session), (after [] es)[k]? = some b → b.state = .building s →
      ((after [] es).length < UInt32.size → ∀ j ≠ k,
        (∀ l ∈ issuedLabels (logOf [] j es), ∀ o : Operation, l ∈ o.handed →
          (after [] es).Refuses k o (.unknownLabel l)) ∧
        ∀ h ∈ issuedLoops (logOf [] j es), ∀ o : Operation, h ∈ o.loops →
          (after [] es).Refuses k o (.structuralMismatch .counted s.kinds.head?)) ∧
      (∀ l ∈ issuedLabels (logOf [] k es), ∀ o : Operation, o.branch? = some l → (after [] es).Accepts k o) ∧
      (issuedLoops (logOf [] k es)).Nodup ∧
      ∀ h ∈ issuedLoops (logOf [] k es), ∀ o : Operation, h ∈ o.loops →
        (h ∈ openLoops (logOf [] k es) → (after [] es).Accepts k o) ∧
        (h ∉ openLoops (logOf [] k es) →
          (after [] es).Refuses k o (.structuralMismatch .counted s.kinds.head?)) := by
  refine ⟨fun k σ hσ hstamp => ?_, fun e k hk he => getElem?_step_of_ne hk he,
    fun k b _ hidle c => Builder.answer_idle hidle c, fun k b s hb hs => ?_⟩
  · have hnone : only σ [] k = [] := rfl
    exact hnone ▸ log_alone hσ hstamp (fun b hb => absurd hb List.not_mem_nil) es
  have haccounts := accounts_after es k b hb
  have hsession := haccounts.session s hs
  have hkind : s.kinds.head? = s.constructs.head?.map Construct.kind := List.head?_map
  have hclosed : ∀ {h : LoopHandle} {o : Operation}, h ∈ o.loops → h ∉ s.openLoops →
      (after [] es).Refuses k o (.structuralMismatch .counted s.kinds.head?) := by
    intro h o ho hh
    rw [hkind]
    exact refuses_of_run hb hs (Operation.run_break_closed ho hh)
  refine ⟨fun hsize j hjk => ?_, fun l hl o ho => ?_, haccounts.distinct,
    fun h hh o ho => ⟨fun hopen => ?_, fun hopen => ?_⟩⟩
  · have hk : k < (after [] es).length := (List.getElem?_eq_some_iff.1 hb).1
    cases hother : (after [] es)[j]? with
    | none =>
      rw [logOf_eq_nil (List.getElem?_eq_none_iff.1 hother)]
      exact ⟨nofun, nofun⟩
    | some b' =>
      have hj : j < (after [] es).length := (List.getElem?_eq_some_iff.1 hother).1
      have hissued := accounts_after es j b' hother
      -- the numbers of the two sessions are different
      have hstamp : stamp j ≠ stamp k := fun heq => hjk (stamp_inj (by omega) (by omega) heq)
      refine ⟨fun l hl o ho => ?_, fun h hh o ho => hclosed ho fun hopen => ?_⟩
      · have hunknown : ¬ s.labels.Known l := fun hknown =>
          hstamp ((hissued.labels l hl).symm.trans (hknown.1.trans hsession.number))
        obtain ⟨s', hrun⟩ := Operation.run_handed_unknown ho hunknown
        exact refuses_of_run hb hs hrun
      · rw [hsession.openLoops] at hopen
        exact hstamp ((hissued.loops h hh).symm.trans (haccounts.loops h (openLoops_subset hopen)))
  · obtain ⟨s', hrun⟩ := Operation.run_branch ho (hsession.labels l hl)
    exact accepts_of_run hb hs hrun
  · rw [← hsession.openLoops] at hopen
    obtain ⟨s', hrun⟩ := Operation.run_break ho hsession.fit hopen
    exact accepts_of_run hb hs hrun
  · rw [← hsession.openLoops] at hopen
    exact hclosed ho hopen

/-- Two builders of a process, each with a label and an open loop of its own, which have the same numbers. -/
def twins : List Event :=
  [.begin "twin" ⟨[], none⟩ .log .off, .begin "twin" ⟨[], none⟩ .log .off,
    .call 0 (.perform .newLabel), .call 1 (.perform .newLabel),
    .call 0 (.perform (.openFor none (.constant .null) (.constant .null))),
    .call 1 (.perform (.openFor none (.constant .null) (.constant .null)))]

/-- Neither of the twins takes a token of the other, and each takes its own. -/
theorem sessions_apart_twins :
    (after [] twins).Refuses 1 (.markHere ⟨1, 1⟩) (.unknownLabel ⟨1, 1⟩) ∧
      (after [] twins).Refuses 1 (.leave ⟨1, 0⟩) (.structuralMismatch .counted (some .counted)) ∧
      (after [] twins).Accepts 1 (.jumpTo ⟨2, 1⟩) ∧ (after [] twins).Accepts 1 (.leave ⟨2, 0⟩) ∧
      ∃ σ : Nat → Nat, σ.Injective ∧ σ (stamp 1) = stamp 0 ∧
        log [] ((logOf [] 1 twins).map fun x => x.event.alone σ) = (logOf [] 1 twins).map (Entry.alone σ) := by
  obtain ⟨b, s, hb, hs, hkind⟩ : ∃ b s, (after [] twins)[1]? = some b ∧ b.state = .building s ∧
      s.kinds.head? = some .counted := ⟨_, _, rfl, rfl, rfl⟩
  obtain ⟨halone, -, -, htokens⟩ := sessions_apart twins
  obtain ⟨hforeign, hlabels, -, hloops⟩ := htokens 1 b s hb hs
  obtain ⟨hlabel, hloop⟩ := hforeign (by decide) 0 nofun
  refine ⟨hlabel ⟨1, 1⟩ ?_ _ List.mem_cons_self, ?_, hlabels ⟨2, 1⟩ ?_ _ rfl,
    (hloops ⟨2, 0⟩ ?_ _ List.mem_cons_self).1 ?_, Equiv.swap (stamp 1) (stamp 0), Equiv.injective _,
    Equiv.swap_apply_left _ _, halone 1 _ (Equiv.injective _) (Equiv.swap_apply_left _ _)⟩
  · exact List.mem_singleton_self _
  · rw [← hkind]
    exact hloop ⟨1, 0⟩ (List.mem_singleton_self _) _ List.mem_cons_self
  · exact List.mem_singleton_self _
  · exact List.mem_singleton_self _
  · exact List.mem_singleton_self _

end Process

end Stackwright
