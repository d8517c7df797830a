import Stackwright.Proofs.Structure.Accounts

/-! # Balanced sessions

A session is **balanced** if it owes exactly what its open constructs owe, besides the labels of cases
that are yet to come. A break out of a loop may define the label behind the loop, so what stays of the
constructs is all but that label. Each structured call takes a balanced session to a balanced one.

* **`Session.Balanced g os ps s`** — a balanced session, with what stays of its constructs and the labels of
  the cases to come.
* **`Emit.Steady.balanced`**, **`Emit.Opens.balanced`**, **`Emit.Closes.balanced`** — what the accounts of a
  call do to it.
* **`Emit.balanced_leave`** — a break out of an enclosing loop is accepted. -/

namespace Stackwright

namespace Session

/-- The session is **balanced**: it owes what its open constructs owe, and further labels. -/
def Balanced (g : Signature) (os : List Construct) (ps : List Label) (s : Session) : Prop :=
  ∃ cs, cs.map Construct.bare = os ∧
    s.Ledger g cs (cs.flatMap Construct.backs) (cs.flatMap Construct.owed ++ ps)

variable {g : Signature} {c : Construct} {cs os : List Construct} {ps ps' : List Label} {l : Label} {s s' : Session}

theorem Balanced.perm (h : s.Balanced g os ps) (hps : ps.Perm ps') : s.Balanced g os ps' := by
  obtain ⟨cs, hcs, hs⟩ := h
  exact ⟨cs, hcs, hs.perm (hps.append_left _)⟩

theorem Balanced.spared (h : s.Balanced g os ps) (hs : s.Spares s') : s'.Balanced g os ps := by
  obtain ⟨cs, hcs, hledger⟩ := h
  exact ⟨cs, hcs, hledger.spared hs⟩

theorem Balanced.fit (h : s.Balanced g os ps) : s.Fit := by
  obtain ⟨cs, -, hledger⟩ := h
  exact hledger.fit

/-- The labels of the cases to come are inside the procedure. -/
theorem Balanced.inside (h : s.Balanced g os ps) (hl : l ∈ ps) : l.id ≠ 0 := by
  obtain ⟨cs, -, hledger⟩ := h
  exact hledger.owes.inside l (List.mem_append_right _ hl)

/-- Nothing is open in a new session, and nothing is owed. -/
theorem balanced_fresh (number : Nat) (name : String) (g : Signature) (sink : Sink) :
    (fresh number name g sink).Balanced g [] [] := ⟨[], rfl, ledger_fresh number name g sink⟩

/-- Where nothing is open and nothing to come, everything that is jumped to is marked. -/
theorem Balanced.settled (h : s.Balanced g [] []) :
    s.constructs = [] ∧ ∀ l, s.labels.Targeted l → s.labels.Marked l := by
  obtain ⟨cs, hcs, hledger⟩ := h
  obtain rfl := List.map_eq_nil_iff.1 hcs
  refine ⟨hledger.constructs, fun l hl => ?_⟩
  rcases hledger.owes.kept l hl with hm | hm
  · exact hm
  · exact absurd hm List.not_mem_nil

/-- With a construct in front, the ledger begins with what that construct owes. -/
theorem Balanced.of_cons
    (h : s.Ledger g (c :: cs) (c.backs ++ cs.flatMap Construct.backs)
      (c.owed ++ (cs.flatMap Construct.owed ++ ps))) (hcs : cs.map Construct.bare = os) :
    s.Balanced g (c.bare :: os) ps := by
  refine ⟨c :: cs, by rw [List.map_cons, hcs], ?_⟩
  rw [List.flatMap_cons, List.flatMap_cons, List.append_assoc]
  exact h

/-- The construct in front, and what it owes, are read off the ledger. -/
theorem Balanced.cons (h : s.Balanced g (c :: os) ps) :
    ∃ c' cs, c'.bare = c ∧ cs.map Construct.bare = os ∧
      s.Ledger g (c' :: cs) (c'.backs ++ cs.flatMap Construct.backs)
        (c'.owed ++ (cs.flatMap Construct.owed ++ ps)) := by
  obtain ⟨cs, hcs, hs⟩ := h
  obtain ⟨c', cs', rfl, hc, hcs'⟩ := List.map_eq_cons_iff.1 hcs
  rw [List.flatMap_cons, List.flatMap_cons, List.append_assoc] at hs
  exact ⟨c', cs', hc, hcs', hs⟩

end Session

/-! ## The label behind a loop -/

namespace Construct

variable {c : Construct} {cs : List Construct} {h : LoopHandle} {l : Label}

theorem isLoop_bare (c : Construct) (h : LoopHandle) : c.bare.isLoop h = c.isLoop h := by
  cases c <;> rfl

/-- A loop may be counted or go over an enumerator. -/
theorem isLoop_iff : c.isLoop h ↔
    ∃ loop : LoopState, loop.handle = h ∧ (c = .counted loop ∨ c = .enumerated loop) := by
  cases c <;> simp [isLoop, loop?]

/-- The innermost loop of a handle is found. -/
theorem findLoop?_cons (c : Construct) (cs : List Construct) (h : LoopHandle) :
    findLoop? (c :: cs) h = if c.isLoop h then c.loop? else findLoop? cs h := by
  rw [findLoop?, List.find?_cons]
  cases c.isLoop h <;> rfl

/-- The loop is found and the label behind it, if there is one, is owed. -/
theorem exists_findLoop? (hc : ∃ c ∈ cs, c.isLoop h) :
    ∃ loop, findLoop? cs h = some loop ∧ ∀ l, loop.exit = some l → l ∈ cs.flatMap owed := by
  induction cs with
  | nil => simp at hc
  | cons c cs ih =>
    rw [findLoop?_cons]
    by_cases hloop : c.isLoop h
    · obtain ⟨loop, -, hkind⟩ := isLoop_iff.1 hloop
      refine ⟨loop, by rw [if_pos hloop]; rcases hkind with rfl | rfl <;> rfl, fun l hl => ?_⟩
      have howed : l ∈ c.owed := by
        rcases hkind with rfl | rfl <;> simp [owed, hl]
      exact List.mem_flatMap.2 ⟨c, List.mem_cons_self, howed⟩
    · obtain ⟨c', hmem, hc'⟩ := hc
      rcases List.mem_cons.1 hmem with rfl | hmem
      · exact absurd hc' hloop
      obtain ⟨loop, hfound, hexit⟩ := ih ⟨c', hmem, hc'⟩
      refine ⟨loop, by rw [if_neg hloop, hfound], fun l hl => ?_⟩
      rw [List.flatMap_cons]
      exact List.mem_append_right _ (hexit l hl)

/-- A label behind a loop that had none is owed besides what was. -/
theorem owed_setExit (hc : ∃ c ∈ cs, c.isLoop h)
    (hexit : ∀ loop, findLoop? cs h = some loop → loop.exit = none) (l : Label) :
    ((setExit h l cs).flatMap owed).Perm (l :: cs.flatMap owed) := by
  induction cs with
  | nil => simp at hc
  | cons c cs ih =>
    rw [findLoop?_cons] at hexit
    by_cases hloop : c.isLoop h
    · -- the innermost such loop gets the label
      rw [if_pos hloop] at hexit
      have howed : (c.withExit l).owed.Perm (l :: c.owed) := by
        obtain ⟨loop, -, hloop⟩ := isLoop_iff.1 hloop
        have hnone : loop.exit = none := hexit loop (by rcases hloop with rfl | rfl <;> rfl)
        rcases hloop with rfl | rfl
        · simp only [withExit, owed, hnone, Option.toList_some, Option.toList_none, List.append_nil]
          exact List.perm_append_singleton ..
        · simp only [withExit, owed, hnone, Option.toList_some, Option.toList_none]
          exact .swap ..
      rw [setExit, if_pos hloop, List.flatMap_cons, List.flatMap_cons]
      exact howed.append_right _
    · have hrest : ∃ c ∈ cs, c.isLoop h := by
        obtain ⟨c', hmem, hc'⟩ := hc
        rcases List.mem_cons.1 hmem with rfl | hmem
        · exact absurd hc' hloop
        · exact ⟨c', hmem, hc'⟩
      rw [if_neg hloop] at hexit
      rw [setExit, if_neg hloop, List.flatMap_cons, List.flatMap_cons]
      exact ((ih hrest hexit).append_left _).trans List.perm_middle

/-- What is behind stays behind. -/
theorem backs_setExit (h : LoopHandle) (l : Label) (cs : List Construct) :
    (setExit h l cs).flatMap backs = cs.flatMap backs := by
  induction cs with
  | nil => rfl
  | cons c cs ih =>
    rw [setExit]
    split
    · cases c <;> rfl
    · rw [List.flatMap_cons, List.flatMap_cons, ih]

end Construct

namespace Emit

variable {α : Type} {e : Emit α} {g : Signature} {c : Construct} {os : List Construct} {ps : List Label}
  {otherwise finish head : Label} {φ : α → Construct → Prop}

/-! ## Calls by their accounts -/

theorem Steady.balanced (h : Steady g e) :
    e.Ensures (Session.Balanced g os ps) fun _ => Session.Balanced g os ps := by
  rintro level s ⟨cs, hcs, hs⟩
  obtain ⟨a, s', hrun, hs'⟩ := h _ _ _ level s hs
  exact ⟨a, s', hrun, cs, hcs, hs'⟩

theorem Opens.balanced (h : Opens g e φ) :
    e.Ensures (Session.Balanced g os ps) fun a s => ∃ c, φ a c ∧ s.Balanced g (c.bare :: os) ps := by
  rintro level s ⟨cs, hcs, hs⟩
  obtain ⟨a, s', hrun, c, hc, hs'⟩ := h _ _ _ level s hs
  exact ⟨a, s', hrun, c, hc, .of_cons hs' hcs⟩

/-- Whatever label is behind a loop, the loop is closed. -/
theorem Closes.balanced (h : ∀ c', c'.bare = c → Closes g e c') :
    e.Ensures (Session.Balanced g (c :: os) ps) fun _ => Session.Balanced g os ps := by
  intro level s hs
  obtain ⟨c', cs, hc, hcs, hs⟩ := hs.cons
  obtain ⟨a, s', hrun, hs'⟩ := h c' hc _ _ _ level s hs
  exact ⟨a, s', hrun, cs, hcs, hs'⟩

theorem Replaces.balanced {φ : Construct → Prop} (h : Replaces g e c φ) (hc : ∀ c', c'.bare = c → c' = c) :
    e.Ensures (Session.Balanced g (c :: os) ps) fun _ s => ∃ c', φ c' ∧ s.Balanced g (c'.bare :: os) ps := by
  intro level s hs
  obtain ⟨c', cs, hbare, hcs, hledger⟩ := hs.cons
  obtain rfl := hc c' hbare
  obtain ⟨a, s', hrun, c'', hφ, hs'⟩ := h _ _ _ level s hledger
  exact ⟨a, s', hrun, c'', hφ, .of_cons hs' hcs⟩

/-! ### Constructs of two parts -/

/-- The body of a while loop is in a conditional beneath it. -/
theorem balanced_openWhileBody (cmp : Comparison) :
    (openWhileBody cmp).Ensures (Session.Balanced g (.whileLoop head :: os) ps) fun _ s =>
      ∃ c, IsBranching c ∧ s.Balanced g (.whileLoop head :: c.bare :: os) ps := by
  intro level s hs
  obtain ⟨c', cs, hbare, hcs, hledger⟩ := hs.cons
  obtain rfl := Construct.bare_eq_whileLoop.1 hbare
  obtain ⟨a, s', hrun, c, hc, hs'⟩ := ensures_openWhileBody cmp level s hledger
  refine ⟨a, s', hrun, c, hc, .whileLoop head :: c :: cs, by rw [List.map_cons, List.map_cons, hcs]; rfl, ?_⟩
  simpa [Construct.backs, Construct.owed] using hs'

/-- The condition and the body of a while loop are closed together. -/
theorem balanced_closeWhile :
    closeWhile.Ensures (Session.Balanced g (.whileLoop head :: .conditional otherwise finish :: os) ps) fun _ =>
      Session.Balanced g os ps := by
  intro level s hs
  obtain ⟨c', cs, hbare, hcs, hledger⟩ := hs.cons
  obtain rfl := Construct.bare_eq_whileLoop.1 hbare
  obtain ⟨c, cs', rfl, hbare, hcs'⟩ := List.map_eq_cons_iff.1 hcs
  obtain rfl := Construct.bare_eq_conditional.1 hbare
  obtain ⟨a, s', hrun, hs'⟩ := ensures_closeWhile level s (by simpa [Construct.backs, Construct.owed] using hledger)
  exact ⟨a, s', hrun, cs', hcs', hs'⟩

/-- The labels of the cases of a switch are still to come. -/
theorem balanced_openSwitch (cases : Nat) :
    (openSwitch cases).Ensures (Session.Balanced g os ps) fun labels s =>
      ∃ default finish, labels.length = cases ∧
        s.Balanced g (.switch default finish false :: os) (labels ++ ps) := by
  rintro level s ⟨cs, hcs, hs⟩
  obtain ⟨labels, s', hrun, default, finish, hlen, hs'⟩ := ensures_openSwitch cases level s hs
  refine ⟨labels, s', hrun, default, finish, hlen, .of_cons (hs'.perm ?_) hcs⟩
  refine List.Perm.append_left _ ?_
  rw [← List.append_assoc, ← List.append_assoc]
  exact List.perm_append_comm.append_right ps

/-- A case that is to come may come. -/
theorem balanced_openCase (l : Label) (name : String) :
    (openCase l name).Ensures (Session.Balanced g os (l :: ps)) fun _ => Session.Balanced g os ps := by
  rintro level s ⟨cs, hcs, hs⟩
  obtain ⟨a, s', hrun, hs'⟩ := ensures_openCase l name level s (hs.perm List.perm_middle)
  exact ⟨a, s', hrun, cs, hcs, hs'⟩

/-! ### Breaks -/

/-- The label behind an enclosing loop is owed, whether or not it is a new one. -/
theorem ensures_exitOf {h : LoopHandle} (hos : ∃ c ∈ os, c.isLoop h) :
    (exitOf h).Ensures (Session.Balanced g os ps) fun l s => ∃ cs, cs.map Construct.bare = os ∧
      l ∈ cs.flatMap Construct.owed ++ ps ∧
        s.Ledger g cs (cs.flatMap Construct.backs) (cs.flatMap Construct.owed ++ ps) := by
  rintro level s ⟨cs, rfl, hs⟩
  have hcs : ∃ c ∈ cs, c.isLoop h := by
    obtain ⟨c', hmem', hc'⟩ := hos
    obtain ⟨c, hmem, rfl⟩ := List.mem_map.1 hmem'
    exact ⟨c, hmem, by rwa [← Construct.isLoop_bare]⟩
  obtain ⟨loop, hfound, hexit⟩ := Construct.exists_findLoop? hcs
  -- a loop that was left before has its label; else it gets a new one, which it then owes
  cases hl : loop.exit with
  | some l =>
    refine ⟨l, s, ?_, cs, rfl, List.mem_append_left _ (hexit l hl), hs⟩
    rw [exitOf, run_bind_ok (run_get _ s), hs.constructs]
    dsimp only
    rw [hfound]
    dsimp only
    rw [hl]
    rfl
  | none =>
    obtain ⟨l, s₁, hnew, hs₁⟩ := ensures_newLabel level s hs
    have howed : ((Construct.setExit h l cs).flatMap Construct.owed).Perm (l :: cs.flatMap Construct.owed) := by
      refine Construct.owed_setExit hcs (fun loop' hfound' => ?_) l
      rw [hfound] at hfound'
      obtain rfl := Option.some.inj hfound'
      exact hl
    have hset : (s₁.withConstructs (Construct.setExit h l cs)).Ledger g (Construct.setExit h l cs)
        (cs.flatMap Construct.backs) (l :: (cs.flatMap Construct.owed ++ ps)) := by
      refine hs₁.withConstructs fun c hc m hm => ?_
      rcases Construct.goals_of_mem_setExit hc hm with rfl | hold
      · exact .inr (.inr List.mem_cons_self)
      · exact .inl hold
    have hperm : (l :: (cs.flatMap Construct.owed ++ ps)).Perm
        ((Construct.setExit h l cs).flatMap Construct.owed ++ ps) := (howed.symm.append_right ps)
    refine ⟨l, s₁.withConstructs (Construct.setExit h l cs), ?_, Construct.setExit h l cs,
      Construct.bare_setExit h l cs, hperm.mem_iff.1 List.mem_cons_self, ?_⟩
    · rw [exitOf, run_bind_ok (run_get _ s), hs.constructs]
      dsimp only
      rw [hfound]
      dsimp only
      rw [hl]
      dsimp only
      rw [run_bind_ok hnew, run_bind_ok (run_modify _ s₁ _), hs₁.constructs]
      rfl
    · rw [Construct.backs_setExit]
      exact hset.perm hperm

/-- A **break** out of an enclosing loop is accepted. -/
theorem balanced_leave {h : LoopHandle} (hos : ∃ c ∈ os, c.isLoop h) {text : Label → String}
    {j : Label → Jump Label} (hj : ∀ l, (j l).targets = [l]) :
    (do
      let l ← exitOf h
      note (text l)
      jump (j l)).Ensures (Session.Balanced g os ps) fun _ => Session.Balanced g os ps := by
  refine (ensures_exitOf hos).bind fun l => Ensures.exists fun cs => Ensures.and fun hcs => Ensures.and fun hl => ?_
  refine (ensures_noted_jump fun m hm => ?_).mono (fun _ hs => hs) fun _ _ hs => ⟨cs, hcs, hs⟩
  rw [hj, List.mem_singleton] at hm
  exact .inr (hm ▸ hl)

end Emit

end Stackwright
