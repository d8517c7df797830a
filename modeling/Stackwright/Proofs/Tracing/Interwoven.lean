import Stackwright.Proofs.Tracing.Executing
import Stackwright.Proofs.Tracing.Weaving

/-! # Procedures with interludes

When a session that logs and one that traces in full end, the code of the second procedure is that of the first with
interludes between. Where two runs may be at once is a relation of positions: from where they are, either both are at
the end, or both have an instruction and go on from it, or the second one has an interlude; and a jump leads to where
both may be.

* **`Procedure.WovenBy sink g own R p p'`** — `p'` is `p` with interludes, as `R` says where.
* **`Session.Traced.linked`** — so are the procedures that two sessions link to. -/

namespace Stackwright

open Relation (ReflTransGen)

/-- A procedure is another one **with interludes**. -/
structure Procedure.WovenBy (sink : Sink) (g : Pairing) (own : Nat → Prop) (R : Nat → Nat → Prop)
    (p p' : Procedure) : Prop where
  /-- They have one name. -/
  name : p'.name = p.name
  /-- They have one signature. -/
  signature : p'.signature = p.signature
  /-- The locals are in order. -/
  slots : Renumbers g.slots p.locals.length p'.locals.length
  /-- Locals that belong together have one type. -/
  locals : ∀ i k, g.slots i k → p'.locals[k]? = p.locals[i]?
  /-- The other locals are there. -/
  own_lt : ∀ k, own k → k < p'.locals.length
  /-- They belong to none. -/
  own_apart : ∀ i k, g.slots i k → ¬ own k
  /-- Both begin at the beginning. -/
  start : R 0 0
  /-- From where both are they go on. -/
  goes : ∀ n n', R n n' → n = p.code.size ∧ n' = p'.code.size ∨
    (∃ i i', p.code[n]? = some i ∧ p'.code[n']? = some i' ∧ i.Related g R i' ∧ R (n + 1) (n' + 1)) ∨
    ∃ is, p'.Has n' is ∧ Interlude sink own n' is ∧ R n (n' + is.length)

/-- A procedure is another one with interludes **somewhere**. -/
def Procedure.Woven (sink : Sink) (p p' : Procedure) : Prop := ∃ g own R, p.WovenBy sink g own R p'

/-! ## Linking -/

/-- What members of two rows stand for belongs together if the members do. -/
theorem forall₂_of_rows {α β γ δ : Type} {P : α → β → Prop} {Q : α → γ → Prop} {Q' : β → δ → Prop}
    {R : γ → δ → Prop} (hR : ∀ a b c d, P a b → Q a c → Q' b d → R c d) {as : List α} {bs : List β} {cs : List γ}
    {ds : List δ} (h : List.Forall₂ P as bs) (hcs : List.Forall₂ Q as cs) (hds : List.Forall₂ Q' bs ds) :
    List.Forall₂ R cs ds := by
  induction h generalizing cs ds with
  | nil =>
    cases hcs
    cases hds
    exact .nil
  | cons hab _ ih =>
    cases hcs with
    | cons hac hcs =>
      cases hds with
      | cons hbd hds => exact .cons (hR _ _ _ _ hab hac hbd) (ih hcs hds)

/-- Targets that belong together are linked to positions that do. -/
theorem Jump.Paired.linked {g : Pairing} {R : Nat → Nat → Prop} {labels labels' : Label → Except BuildError Nat}
    {j j' : Jump Label} {k k' : Jump Nat} (h : j.Paired g j') (hk : j.mapTargets labels = .ok k)
    (hk' : j'.mapTargets labels' = .ok k')
    (hR : ∀ (l l' : Label) (n n' : Nat), l.Paired g l' → labels l = .ok n → labels' l' = .ok n' → R n n') :
    k.Related R k' := by
  -- a jump to one label
  have hone : ∀ {l l' : Label} {c c' : Nat → Jump Nat}, l.Paired g l' → c <$> labels l = .ok k →
      c' <$> labels' l' = .ok k' → ∃ n n', R n n' ∧ k = c n ∧ k' = c' n' := by
    intro l l' c c' hl hk hk'
    obtain ⟨n, hn, rfl⟩ := map_eq_ok.1 hk
    obtain ⟨n', hn', rfl⟩ := map_eq_ok.1 hk'
    exact ⟨n, n', hR l l' n n' hl hn hn', rfl, rfl⟩
  cases h with
  | always hl =>
    obtain ⟨n, n', hn, rfl, rfl⟩ := hone hl hk hk'
    exact .always hn
  | ifTrue hl =>
    obtain ⟨n, n', hn, rfl, rfl⟩ := hone hl hk hk'
    exact .ifTrue hn
  | ifFalse hl =>
    obtain ⟨n, n', hn, rfl, rfl⟩ := hone hl hk hk'
    exact .ifFalse hn
  | compare c hl =>
    obtain ⟨n, n', hn, rfl, rfl⟩ := hone hl hk hk'
    exact .compare c hn
  | @switch ls ls' hls =>
    obtain ⟨ps, hps, rfl⟩ := map_eq_ok.1 hk
    obtain ⟨ps', hps', rfl⟩ := map_eq_ok.1 hk'
    exact .switch (forall₂_of_rows hR hls (mapM_eq_ok.1 hps) (mapM_eq_ok.1 hps'))

/-- Instructions that belong together are linked to instructions that do. -/
theorem Instruction.Paired.linked {g : Pairing} {R : Nat → Nat → Prop} {labels labels' : Marks}
    {i i' : Instruction Label} {k k' : Instruction Nat} (h : i.Paired g i') (hk : i.link labels = .ok k)
    (hk' : i'.link labels' = .ok k')
    (hR : ∀ (l l' : Label) (n n' : Nat), l.Paired g l' → labels.MarkedAt l n → labels'.MarkedAt l' n' → R n n') :
    k.Related g R k' := by
  cases h with
  | op h =>
    cases hk
    cases hk'
    exact .op h
  | ret =>
    cases hk
    cases hk'
    exact .ret
  | @jump j j' h =>
    obtain ⟨t, ht, rfl⟩ := map_eq_ok.1 hk
    obtain ⟨t', ht', rfl⟩ := map_eq_ok.1 hk'
    refine .jump (h.linked ht ht' fun l l' n n' hl hn hn' => ?_)
    exact hR l l' n n' hl (Marks.position_eq_ok.1 hn) (Marks.position_eq_ok.1 hn')

namespace Session

variable {sink : Sink} {g : Pairing} {s s' : Session} {code code' : Array (Instruction Nat)}

/-- Where two sessions may be at once: there is a way on to their ends. -/
def Meets (g : Pairing) (s s' : Session) (n n' : Nat) : Prop :=
  ReflTransGen (Weave g s s') (n, n') (s.code.size, s'.code.size)

/-- What a session spells is in what it links to. -/
theorem Spells.linked {n : Nat} {is : List (Instruction Nat)} (h : s.Spells n is)
    (hlinked : Linked s.labels s.code code) {p : Procedure} (hp : p.code = code) : p.Has n is := by
  intro j i' hj
  obtain ⟨i, hi, hlink⟩ := h j i' hj
  obtain ⟨i'', hi'', hlink'⟩ := hlinked.getElem?_of hi
  cases hlink.symm.trans hlink'
  rw [hp]
  exact hi''

/-- **The procedure with full traces is the other one with interludes.** -/
theorem Traced.linked (h : s.Traced sink g s') (hcode : Linked s.labels s.code code)
    (hcode' : Linked s'.labels s'.code code') {p p' : Procedure}
    (hp : p = ⟨s.name, s.signature, s.locals.toList.map (·.1), code⟩)
    (hp' : p' = ⟨s'.name, s'.signature, s'.locals.toList.map (·.1), code'⟩) :
    p.WovenBy sink g (s'.Own g) (Meets g s s') p' := by
  subst hp hp'
  have hfixed := h.fixed
  simp only [Prod.mk.injEq] at hfixed
  have hlength : ∀ t : Session, (t.locals.toList.map (·.1)).length = t.locals.size := fun t => by simp
  exact {
    name := hfixed.1
    signature := hfixed.2.1
    slots := by
      rw [hlength, hlength]
      exact h.slots
    locals := by
      intro i k hik
      rw [List.getElem?_map, List.getElem?_map, Array.getElem?_toList, Array.getElem?_toList, h.locals i k hik]
    own_lt := by
      intro k hk
      rw [hlength]
      exact hk.1
    own_apart := fun i k hik hk => hk.2 i hik
    start := h.woven.whole
    goes := by
      intro n n' hn
      obtain heq | ⟨x, hstep, hrest⟩ := hn.cases_head
      · obtain ⟨rfl, rfl⟩ := Prod.mk.injEq .. ▸ heq
        exact .inl ⟨hcode.size.symm, hcode'.size.symm⟩
      · cases hstep with
        | both hi hi' hpair =>
          obtain ⟨k, hk, hlink⟩ := hcode.getElem?_of hi
          obtain ⟨k', hk', hlink'⟩ := hcode'.getElem?_of hi'
          exact .inr (.inl ⟨k, k', hk, hk', hpair.linked hlink hlink' h.woven.behind, hrest⟩)
        | aside his hinterlude =>
          exact .inr (.inr ⟨_, his.linked hcode' rfl, h.sink ▸ hinterlude, hrest⟩) }

end Session

end Stackwright
