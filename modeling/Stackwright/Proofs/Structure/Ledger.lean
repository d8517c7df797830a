import Stackwright.Proofs.Structure.Turns

/-! # Ledgers

A session owes a mark for each label that something jumps to, or will jump to, ahead. Its **ledger** lists
these labels next to the open constructs, and next to the labels behind, which are marked. An emission
call is accepted as long as what it takes, marks and jumps to stands in the ledger, so what a call needs
and what it leaves are stated by ledgers, and calls in a row are accepted if their ledgers fit.

* **`Marks.Owes t ls`** — the labels that are yet to be marked.
* **`Session.Ledger g cs bs ls s`** — the ledger of a session.
* **`Emit.Ensures e P Q`** — a call is accepted where `P` holds, at every level, and leaves `Q`.
* **`Emit.Steady`**, **`Emit.Opens`**, **`Emit.Closes`**, **`Emit.Replaces`** — calls that leave the ledger
  as it is, and those that open, close or replace a construct with what it owes. -/

namespace Stackwright

/-! ## Labels that are yet to be marked -/

namespace Marks

/-- What the marks of a session **owe**: labels inside the procedure that are not marked yet, each of them
once, and all those that something jumps to without a mark. -/
structure Owes (t : Marks) (ls : List Label) : Prop where
  /-- No label is owed twice. -/
  nodup : ls.Nodup
  /-- A label that is owed is known and not marked. -/
  waits : ∀ l ∈ ls, t.Known l ∧ ¬ t.Marked l
  /-- It is not the end label. -/
  inside : ∀ l ∈ ls, l.id ≠ 0
  /-- What is jumped to is marked or owed. -/
  kept : ∀ l, t.Targeted l → t.Marked l ∨ l ∈ ls

variable {t : Marks} {l : Label} {ls ls' : List Label}

theorem Owes.perm (h : t.Owes ls) (hls : ls.Perm ls') : t.Owes ls' where
  nodup := hls.nodup_iff.1 h.nodup
  waits l hl := h.waits l (hls.mem_iff.2 hl)
  inside l hl := h.inside l (hls.mem_iff.2 hl)
  kept l hl := (h.kept l hl).imp_right hls.mem_iff.1

/-- A label that is defined need not be owed, as nothing jumps to it. -/
theorem Owes.define (h : t.Owes ls) : t.define.Owes ls where
  nodup := h.nodup
  waits l hl := by
    obtain ⟨⟨hsession, hid⟩, hfree⟩ := h.waits l hl
    refine ⟨⟨hsession, ?_⟩, fun hm => hfree (marked_define.1 hm)⟩
    rw [size_define]
    exact Nat.lt_succ_of_lt hid
  inside := h.inside
  kept l hl := (h.kept l (targeted_define.1 hl)).imp_left marked_define.2

/-- A label that is defined may be owed. -/
theorem Owes.define_next (h : t.Owes ls) (ht : 0 < t.entries.size) : t.define.Owes (t.next :: ls) where
  nodup := by
    refine List.nodup_cons.2 ⟨fun hmem => ?_, h.nodup⟩
    -- the next label is not known yet
    exact absurd (h.waits _ hmem).1.2 (Nat.lt_irrefl _)
  waits l hl := by
    rcases List.mem_cons.1 hl with rfl | hl
    · refine ⟨⟨rfl, by simp [next]⟩, fun hm => ?_⟩
      obtain ⟨p, hp⟩ := marked_define.1 hm
      exact absurd hp.known.2 (Nat.lt_irrefl _)
    · exact h.define.waits l hl
  inside l hl := by
    rcases List.mem_cons.1 hl with rfl | hl
    · exact Nat.ne_of_gt ht
    · exact h.inside l hl
  kept l hl := (h.define.kept l hl).imp_right (List.mem_cons_of_mem _)

/-- Labels that are marked or owed may be jumped to. -/
theorem Owes.target {js : List Label} (h : t.Owes ls) (hknown : ∀ l ∈ js, t.Known l)
    (hjs : ∀ l ∈ js, t.Marked l ∨ l ∈ ls) : (t.target js).Owes ls where
  nodup := h.nodup
  waits l hl := by
    obtain ⟨⟨hsession, hid⟩, hfree⟩ := h.waits l hl
    exact ⟨⟨by rwa [session_target], by rwa [size_target]⟩, fun hm => hfree (marked_target.1 hm)⟩
  inside := h.inside
  kept l hl := by
    rcases (targeted_target hknown).1 hl with hl | hl
    · exact (h.kept l hl).imp_left marked_target.2
    · exact (hjs l hl).imp_left marked_target.2

/-- A label that is owed may be marked, and is then no longer owed. -/
theorem Owes.mark (h : t.Owes (l :: ls)) (p : Nat) : (t.mark l p).Owes ls := by
  have hknown := (h.waits l List.mem_cons_self).1
  refine ⟨h.nodup.of_cons, fun m hm => ?_, fun m hm => h.inside m (List.mem_cons_of_mem _ hm),
    fun m hm => ?_⟩
  · obtain ⟨⟨hsession, hid⟩, hfree⟩ := h.waits m (List.mem_cons_of_mem _ hm)
    refine ⟨⟨hsession, by rwa [size_mark]⟩, fun hmarked => ?_⟩
    rcases (marked_mark hknown).1 hmarked with rfl | hmarked
    · exact (List.nodup_cons.1 h.nodup).1 hm
    · exact hfree hmarked
  · rcases h.kept m (targeted_mark.1 hm) with hmarked | hmem
    · exact .inl ((marked_mark hknown).2 (.inr hmarked))
    · rcases List.mem_cons.1 hmem with rfl | hmem
      · exact .inl ((marked_mark hknown).2 (.inl rfl))
      · exact .inr hmem

end Marks

namespace Construct

/-- The labels that a construct still has to mark when it is closed. -/
def owed : Construct → List Label
  | .conditional otherwise finish => if otherwise = finish then [finish] else [otherwise, finish]
  -- without an index nothing jumps to the test
  | .counted loop => (loop.slot.map fun _ => loop.test).toList ++ loop.exit.toList
  | .enumerated loop => loop.test :: loop.exit.toList
  | .switch default finish given => if given then [finish] else [default, finish]
  | .whileLoop _ => []

/-- The labels that the closing of a construct jumps back to. -/
def backs : Construct → List Label
  | .counted loop | .enumerated loop => [loop.body]
  | .whileLoop head => [head]
  | .conditional .. | .switch .. => []

theorem owed_conditional {otherwise finish : Label} (h : otherwise ≠ finish) :
    (conditional otherwise finish).owed = [otherwise, finish] := if_neg h

theorem owed_last (finish : Label) : (conditional finish finish).owed = [finish] := if_pos rfl

end Construct

/-! ## Ledgers of a session -/

namespace Session

/-- The **ledger** of a session: its signature, its open constructs, labels that are marked, and the labels
that it owes. -/
structure Ledger (g : Signature) (cs : List Construct) (bs ls : List Label) (s : Session) : Prop where
  /-- Calls can rely on the session. -/
  fit : s.Fit
  /-- It has the signature. -/
  signature : s.signature = g
  /-- The constructs are open. -/
  constructs : s.constructs = cs
  /-- The labels behind are marked. -/
  backs : ∀ l ∈ bs, s.labels.Marked l
  /-- The labels ahead are owed. -/
  owes : s.labels.Owes ls

variable {g : Signature} {c : Construct} {cs : List Construct} {bs bs' ls ls' : List Label} {l : Label}
  {s s' : Session}

theorem Ledger.perm (h : s.Ledger g cs bs ls) (hls : ls.Perm ls') : s.Ledger g cs bs ls' :=
  ⟨h.fit, h.signature, h.constructs, h.backs, h.owes.perm hls⟩

/-- Labels behind may be forgotten. -/
theorem Ledger.weaken (h : s.Ledger g cs bs ls) (hbs : bs' ⊆ bs) : s.Ledger g cs bs' ls :=
  ⟨h.fit, h.signature, h.constructs, fun l hl => h.backs l (hbs hl), h.owes⟩

/-- A label of the ledger is known. -/
theorem Ledger.known (h : s.Ledger g cs bs ls) (hl : l ∈ bs ∨ l ∈ ls) : s.labels.Known l := by
  rcases hl with hl | hl
  · obtain ⟨p, hp⟩ := h.backs l hl
    exact hp.known
  · exact (h.owes.waits l hl).1

/-- The ledger of a spared session is the same. -/
theorem Ledger.spared (h : s.Ledger g cs bs ls) (hs : s.Spares s') : s'.Ledger g cs bs ls where
  fit := hs.fit
  signature := hs.grows.signature.trans h.signature
  constructs := hs.constructs.trans h.constructs
  backs l hl := hs.grows.marked (h.backs l hl)
  owes :=
    { nodup := h.owes.nodup
      waits l hl := by
        obtain ⟨hknown, hfree⟩ := h.owes.waits l hl
        exact ⟨hs.grows.known hknown, fun hm => hfree ((hs.marked_iff hknown).1 hm)⟩
      inside := h.owes.inside
      kept l hl := by
        rcases hs.targeted hl with hl | hl
        · exact (h.owes.kept l hl).imp_left hs.grows.marked
        · exact .inl hl }

/-- The constructs alone change. -/
theorem Ledger.withConstructs (h : s.Ledger g cs bs ls) {cs' : List Construct}
    (hgoals : ∀ c ∈ cs', ∀ l ∈ c.goals, (∃ c' ∈ cs, l ∈ c'.goals) ∨ l ∈ bs ∨ l ∈ ls) :
    (s.withConstructs cs').Ledger g cs' bs ls where
  fit :=
    { labels := h.fit.labels
      goals c hc l hl := by
        rcases hgoals c hc l hl with ⟨c', hc', hl⟩ | hl
        · exact h.fit.goals c' (h.constructs ▸ hc') l hl
        · exact h.known hl
      formatArray := h.fit.formatArray }
  signature := h.signature
  constructs := rfl
  backs := h.backs
  owes := h.owes

/-- A new session owes nothing. -/
theorem ledger_fresh (number : Nat) (name : String) (g : Signature) (sink : Sink) :
    (fresh number name g sink).Ledger g [] [] [] where
  fit := fit_fresh number name g sink
  signature := rfl
  constructs := rfl
  backs := nofun
  owes :=
    { nodup := .nil
      waits := nofun
      inside := nofun
      kept l hl := by
        obtain ⟨-, e, he, -⟩ := Marks.targeted_define.1 hl
        cases he }

end Session

/-! ## Calls that are accepted -/

namespace Emit

variable {α β : Type} {e : Emit α} {f : α → Emit β} {P P' : Session → Prop} {Q Q' : α → Session → Prop}
  {R : β → Session → Prop} {g : Signature} {c : Construct} {cs : List Construct} {bs ls : List Label}
  {l : Label}

/-- Where `P` holds, the call is **accepted**, at every level, and `Q` holds of what it answers and of the
session behind it. -/
def Ensures (e : Emit α) (P : Session → Prop) (Q : α → Session → Prop) : Prop :=
  ∀ (level : TraceDetail) (s : Session), P s →
    ∃ a s', (e.run (.ofLevel level)).run s = .ok a s' ∧ Q a s'

theorem Ensures.bind (h : e.Ensures P Q) (hf : ∀ a, (f a).Ensures (Q a) R) : (e >>= f).Ensures P R := by
  intro level s hs
  obtain ⟨a, s₁, hrun, hq⟩ := h level s hs
  obtain ⟨b, s₂, hrun', hr⟩ := hf a level s₁ hq
  exact ⟨b, s₂, by rw [run_bind_ok hrun]; exact hrun', hr⟩

/-- Where the answer is known, only that answer goes on. -/
theorem Ensures.answer {a : α} {P' : Session → Prop} (h : e.Ensures P fun a' s => a' = a ∧ P' s)
    (hf : (f a).Ensures P' R) : (e >>= f).Ensures P R := by
  refine h.bind fun a' level s hs => ?_
  obtain ⟨rfl, hs⟩ := hs
  exact hf level s hs

theorem Ensures.mono (h : e.Ensures P Q) (hP : ∀ s, P' s → P s) (hQ : ∀ a s, Q a s → Q' a s) :
    e.Ensures P' Q' := by
  intro level s hs
  obtain ⟨a, s', hrun, hq⟩ := h level s (hP s hs)
  exact ⟨a, s', hrun, hQ a s' hq⟩

/-- What holds before is taken apart. -/
theorem Ensures.exists {ι : Sort*} {P : ι → Session → Prop} (h : ∀ i, e.Ensures (P i) Q) :
    e.Ensures (fun s => ∃ i, P i s) Q := by
  rintro level s ⟨i, hs⟩
  exact h i level s hs

theorem Ensures.and {p : Prop} (h : p → e.Ensures P Q) : e.Ensures (fun s => p ∧ P s) Q := by
  rintro level s ⟨hp, hs⟩
  exact h hp level s hs

theorem ensures_pure (a : α) : (pure a : Emit α).Ensures P fun a' s => a' = a ∧ P s :=
  fun _ s hs => ⟨a, s, rfl, rfl, hs⟩

/-- An answer is made another one. -/
theorem Ensures.map (h : e.Ensures P Q) (k : α → β) (hR : ∀ a s, Q a s → R (k a) s) :
    (k <$> e).Ensures P R := by
  have hmap : k <$> e = e >>= fun a => pure (k a) := (bind_pure_comp k e).symm
  rw [hmap]
  refine h.bind fun a => (ensures_pure (k a)).mono (fun _ hs => hs) fun b s hb => ?_
  obtain ⟨rfl, hq⟩ := hb
  exact hR a s hq

/-! ### What changes labels -/

/-- A new label is owed. -/
theorem ensures_newLabel :
    newLabel.Ensures (Session.Ledger g cs bs ls) fun l => Session.Ledger g cs bs (l :: ls) := by
  intro level s hs
  refine ⟨_, _, run_newLabel _ s, (Session.turned_defined hs.fit).fit, hs.signature, hs.constructs,
    fun l hl => Marks.marked_define.2 (hs.backs l hl), hs.owes.define_next hs.fit.labels⟩

/-- A new label need not be owed. -/
theorem ensures_newLabel_unused :
    newLabel.Ensures (Session.Ledger g cs bs ls) fun _ => Session.Ledger g cs bs ls := by
  intro level s hs
  refine ⟨_, _, run_newLabel _ s, (Session.turned_defined hs.fit).fit, hs.signature, hs.constructs,
    fun l hl => Marks.marked_define.2 (hs.backs l hl), hs.owes.define⟩

/-- Labels of the ledger may be jumped to. -/
theorem ensures_jump {j : Jump Label} (hj : ∀ l ∈ j.targets, l ∈ bs ∨ l ∈ ls) :
    (jump j).Ensures (Session.Ledger g cs bs ls) fun _ => Session.Ledger g cs bs ls := by
  intro level s hs
  have hknown : ∀ l ∈ j.targets, s.labels.Known l := fun l hl => hs.known (hj l hl)
  refine ⟨_, _, run_jump _ s (Marks.checkKnown_eq_ok.2 hknown), (Session.turned_jumped hs.fit j).fit,
    hs.signature, hs.constructs, fun l hl => Marks.marked_target.2 (hs.backs l hl), ?_⟩
  exact hs.owes.target hknown fun l hl => (hj l hl).imp_left (hs.backs l)

/-- A label that is owed may be marked; it is then behind. -/
theorem ensures_markHere :
    (markHere l).Ensures (Session.Ledger g cs bs (l :: ls)) fun _ => Session.Ledger g cs (l :: bs) ls := by
  intro level s hs
  obtain ⟨hknown, hfree⟩ := hs.owes.waits l List.mem_cons_self
  have hmarked := Session.turned_markedHere hs.fit hknown
  have hledger : (s.markedHere l).Ledger g cs (l :: bs) ls := by
    refine ⟨hmarked.fit, hs.signature, hs.constructs, fun m hm => ?_, hs.owes.mark _⟩
    refine (Marks.marked_mark hknown).2 ?_
    exact (List.mem_cons.1 hm).imp_right (hs.backs m)
  exact ⟨_, _, run_markHere _ s (Marks.checkUnmarked_eq_ok.2 ⟨hknown, hfree⟩),
    hledger.spared (Session.spares_written hmarked.fit _ _)⟩

/-- The label that is marked need not be kept in mind. -/
theorem ensures_markHere_past :
    (markHere l).Ensures (Session.Ledger g cs bs (l :: ls)) fun _ => Session.Ledger g cs bs ls :=
  ensures_markHere.mono (fun _ hs => hs) fun _ _ hs => hs.weaken (List.subset_cons_self _ _)

/-! ### What changes constructs -/

/-- A construct that does not jump anywhere yet is opened. -/
theorem ensures_openConstruct (hc : c.goals = []) :
    (openConstruct c).Ensures (Session.Ledger g cs bs ls) fun _ => Session.Ledger g (c :: cs) bs ls := by
  intro level s hs
  refine ⟨_, _, run_openConstruct _ s c, ?_⟩
  rw [hs.constructs]
  refine hs.withConstructs fun c' hc' l hl => ?_
  rcases List.mem_cons.1 hc' with rfl | hmem
  · rw [hc] at hl
    exact absurd hl List.not_mem_nil
  · exact .inl ⟨c', hmem, hl⟩

/-- A while loop is opened, or put back, by a head that is marked. -/
theorem ensures_openConstruct_whileLoop (hl : l ∈ bs) :
    (openConstruct (.whileLoop l)).Ensures (Session.Ledger g cs bs ls) fun _ =>
      Session.Ledger g (.whileLoop l :: cs) bs ls := by
  intro level s hs
  refine ⟨_, _, run_openConstruct _ s _, ?_⟩
  rw [hs.constructs]
  refine hs.withConstructs fun c hc m hm => ?_
  rcases List.mem_cons.1 hc with rfl | hmem
  · rw [List.mem_singleton.1 hm]
    exact .inr (.inl hl)
  · exact .inl ⟨c, hmem, hm⟩

/-- What follows the taking of the innermost construct runs without it. -/
theorem ensures_take {p : Option Construct → Emit β}
    (h : (p (some c)).Ensures (Session.Ledger g cs bs ls) R) :
    (takeInnermost >>= p).Ensures (Session.Ledger g (c :: cs) bs ls) R := by
  intro level s hs
  obtain ⟨b, s', hrun, hr⟩ := h level _ (hs.withConstructs fun c' hc' l hl =>
    .inl ⟨c', List.mem_cons_of_mem _ hc', hl⟩)
  refine ⟨b, s', ?_, hr⟩
  rw [run_bind_ok (run_takeInnermost _ s), hs.constructs]
  exact hrun

theorem ensures_takeConditional {otherwise finish : Label} :
    takeConditional.Ensures (Session.Ledger g (.conditional otherwise finish :: cs) bs ls) fun p s =>
      p = (otherwise, finish) ∧ s.Ledger g cs bs ls :=
  ensures_take (ensures_pure _)

theorem ensures_takeCounted {loop : LoopState} :
    takeCounted.Ensures (Session.Ledger g (.counted loop :: cs) bs ls) fun p s =>
      p = loop ∧ s.Ledger g cs bs ls :=
  ensures_take (ensures_pure _)

theorem ensures_takeEnumerated {loop : LoopState} :
    takeEnumerated.Ensures (Session.Ledger g (.enumerated loop :: cs) bs ls) fun p s =>
      p = loop ∧ s.Ledger g cs bs ls :=
  ensures_take (ensures_pure _)

theorem ensures_takeSwitch {default finish : Label} {given : Bool} :
    takeSwitch.Ensures (Session.Ledger g (.switch default finish given :: cs) bs ls) fun p s =>
      p = (default, finish, given) ∧ s.Ledger g cs bs ls :=
  ensures_take (ensures_pure _)

theorem ensures_takeWhileHead {head : Label} :
    takeWhileHead.Ensures (Session.Ledger g (.whileLoop head :: cs) bs ls) fun p s =>
      p = head ∧ s.Ledger g cs bs ls :=
  ensures_take (ensures_pure _)

/-- The innermost switch is looked at. -/
theorem ensures_currentSwitch {default finish : Label} {given : Bool} :
    currentSwitch.Ensures (Session.Ledger g (.switch default finish given :: cs) bs ls) fun p s =>
      p = (default, finish, given) ∧ s.Ledger g (.switch default finish given :: cs) bs ls := by
  intro level s hs
  refine ⟨_, s, ?_, rfl, hs⟩
  rw [currentSwitch, run_bind_ok (run_get _ s), hs.constructs]
  rfl

/-! ## Calls by their effect on the ledger -/

/-- A call that is accepted whatever the ledger is, and leaves it as it is. -/
def Steady (g : Signature) (e : Emit α) : Prop :=
  ∀ cs bs ls, e.Ensures (Session.Ledger g cs bs ls) fun _ => Session.Ledger g cs bs ls

/-- A call that is accepted whatever the ledger is, and **opens** a construct, with what it owes. -/
def Opens (g : Signature) (e : Emit α) (φ : α → Construct → Prop) : Prop :=
  ∀ cs bs ls, e.Ensures (Session.Ledger g cs bs ls) fun a s =>
    ∃ c, φ a c ∧ s.Ledger g (c :: cs) (c.backs ++ bs) (c.owed ++ ls)

/-- A call that **closes** a construct and marks what it owes. -/
def Closes (g : Signature) (e : Emit α) (c : Construct) : Prop :=
  ∀ cs bs ls, e.Ensures (Session.Ledger g (c :: cs) (c.backs ++ bs) (c.owed ++ ls)) fun _ =>
    Session.Ledger g cs bs ls

/-- A call that puts another construct **in the place** of the innermost one, with what that one owes. -/
def Replaces (g : Signature) (e : Emit α) (c : Construct) (φ : Construct → Prop) : Prop :=
  ∀ cs bs ls, e.Ensures (Session.Ledger g (c :: cs) (c.backs ++ bs) (c.owed ++ ls)) fun _ s =>
    ∃ c', φ c' ∧ s.Ledger g (c' :: cs) (c'.backs ++ bs) (c'.owed ++ ls)

variable {φ : α → Construct → Prop}

theorem Steady.bind (h : Steady g e) (hf : ∀ a, Steady g (f a)) : Steady g (e >>= f) :=
  fun cs bs ls => (h cs bs ls).bind fun a => hf a cs bs ls

/-- A steady call is left out of account. -/
theorem Steady.ensures (h : Steady g e) (hf : ∀ a, (f a).Ensures (Session.Ledger g cs bs ls) R) :
    (e >>= f).Ensures (Session.Ledger g cs bs ls) R := (h cs bs ls).bind hf

theorem Steady.opens {φ : β → Construct → Prop} (h : Steady g e) (hf : ∀ a, Opens g (f a) φ) :
    Opens g (e >>= f) φ := fun cs bs ls => h.ensures fun a => hf a cs bs ls

theorem steady_pure (a : α) : Steady g (pure a : Emit α) :=
  fun _ _ _ => (ensures_pure a).mono (fun _ hs => hs) fun _ _ hs => hs.2

/-- A sparing call that a new session of the signature accepts is steady. -/
theorem Sparing.steady (h : e.Sparing) (hacc : Accepted g e) : Steady g e := by
  intro cs bs ls level s hs
  obtain ⟨a, s', hrun, hspares⟩ : ∃ a s', (e.run (.ofLevel level)).run s = .ok a s' ∧ s.Spares s' :=
    h.run hs.fit (hs.signature ▸ hacc)
  exact ⟨a, s', hrun, hs.spared hspares⟩

/-- A construct that is opened and closed is gone again. -/
theorem Opens.closes (h : Opens g e φ) (hf : ∀ a c, φ a c → Closes g (f a) c) : Steady g (e >>= f) := by
  intro cs bs ls
  refine (h cs bs ls).bind fun a => Ensures.exists fun c => Ensures.and fun hc => ?_
  exact hf a c hc cs bs ls

/-- What is steady may stand in a construct that is closed. -/
theorem Steady.closes (h : Steady g e) (hf : ∀ a, Closes g (f a) c) : Closes g (e >>= f) c :=
  fun cs bs ls => h.ensures fun a => hf a cs bs ls

/-- What is steady may follow one that is closed. -/
theorem Closes.steady (h : Closes g e c) (hf : ∀ a, Steady g (f a)) : Closes g (e >>= f) c :=
  fun cs bs ls => (h cs bs ls).bind fun a => hf a cs bs ls

end Emit

end Stackwright
