import Mathlib.Data.List.Forall2
import Stackwright.Code.Instruction
import Stackwright.Proofs.Code.Marks

/-! # Linked code

Linking replaces each label by the position it was marked at, one instruction at a time, and changes
nothing else. It is accepted when every target is marked. -/

namespace Stackwright

/-! ## Rows of outcomes -/

/-- What is made of something is accepted exactly when that is. -/
theorem map_eq_ok {α β ε : Type} {f : α → β} {x : Except ε α} {b : β} :
    f <$> x = .ok b ↔ ∃ a, x = .ok a ∧ f a = b := by
  cases x with
  | error e => exact ⟨fun h => (by cases h), fun ⟨a, h, _⟩ => (by cases h)⟩
  | ok a =>
    constructor
    · intro h
      exact ⟨a, rfl, Except.ok.inj h⟩
    · rintro ⟨_, ⟨⟩, rfl⟩
      rfl

/-- A row is accepted exactly when each of its members is. -/
theorem mapM_eq_ok {α β ε : Type} {f : α → Except ε β} {l : List α} {l' : List β} :
    l.mapM f = .ok l' ↔ List.Forall₂ (fun a b => f a = .ok b) l l' := by
  induction l generalizing l' with
  | nil =>
    rw [List.mapM_nil, List.forall₂_nil_left_iff]
    constructor
    · intro h
      cases h
      rfl
    · rintro rfl
      rfl
  | cons a l ih =>
    rw [List.mapM_cons, List.forall₂_cons_left_iff]
    constructor
    · intro h
      cases ha : f a with
      | error e => simp [ha, bind, Except.bind] at h
      | ok b =>
        cases hl : l.mapM f with
        | error e => simp [ha, hl, bind, Except.bind] at h
        | ok bs =>
          simp [ha, hl, bind, Except.bind, pure, Except.pure] at h
          exact ⟨b, bs, rfl, ih.1 hl, h.symm⟩
    · rintro ⟨b, bs, hb, hbs, rfl⟩
      rw [hb, ih.2 hbs]
      rfl

/-- A row whose members are accepted is accepted. -/
theorem exists_mapM_eq_ok {α β ε : Type} {f : α → Except ε β} {l : List α}
    (h : ∀ a ∈ l, ∃ b, f a = .ok b) : ∃ l', l.mapM f = .ok l' := by
  induction l with
  | nil => exact ⟨[], rfl⟩
  | cons a l ih =>
    obtain ⟨b, hb⟩ := h a List.mem_cons_self
    obtain ⟨bs, hbs⟩ := ih fun a' ha' => h a' (List.mem_cons_of_mem _ ha')
    exact ⟨b :: bs, mapM_eq_ok.2 (.cons hb (mapM_eq_ok.1 hbs))⟩

/-- A member on the right of two rows has a partner on the left. -/
theorem exists_of_mem_right {α β : Type} {R : α → β → Prop} {l : List α} {l' : List β} {b : β}
    (h : List.Forall₂ R l l') (hb : b ∈ l') : ∃ a ∈ l, R a b := by
  induction h with
  | nil => exact absurd hb List.not_mem_nil
  | cons hab _ ih =>
    rcases List.mem_cons.1 hb with rfl | hb
    · exact ⟨_, List.mem_cons_self, hab⟩
    · obtain ⟨a, ha, hr⟩ := ih hb
      exact ⟨a, List.mem_cons_of_mem _ ha, hr⟩

/-! ## Targets -/

variable {α β : Type} {f : α → Except BuildError β} {labels : Marks}

/-- A jump is accepted when each of its targets is. -/
theorem Jump.exists_mapTargets {j : Jump α} (h : ∀ t ∈ j.targets, ∃ p, f t = .ok p) :
    ∃ j', j.mapTargets f = .ok j' := by
  cases j with
  | switch ts =>
    obtain ⟨ps, hps⟩ := exists_mapM_eq_ok (l := ts) h
    exact ⟨.switch ps, by rw [mapTargets, hps]; rfl⟩
  | always t | ifTrue t | ifFalse t | compare c t =>
    obtain ⟨p, hp⟩ := h t List.mem_cons_self
    exact ⟨_, by rw [mapTargets, hp]; rfl⟩

/-- The targets of an accepted jump are those that its own targets stand for, in order. -/
theorem Jump.targets_mapTargets {j : Jump α} {j' : Jump β} (h : j.mapTargets f = .ok j') :
    List.Forall₂ (fun t p => f t = .ok p) j.targets j'.targets := by
  cases j with
  | switch ts =>
    obtain ⟨ps, hps, rfl⟩ := map_eq_ok.1 h
    exact mapM_eq_ok.1 hps
  | always t | ifTrue t | ifFalse t | compare c t =>
    obtain ⟨p, hp, rfl⟩ := map_eq_ok.1 h
    exact .cons hp .nil

/-- A jump is accepted alike by what accepts more targets. -/
theorem Jump.mapTargets_of_imp {g : α → Except BuildError β} {j : Jump α} {j' : Jump β}
    (h : ∀ t p, f t = .ok p → g t = .ok p) (hj : j.mapTargets f = .ok j') :
    j.mapTargets g = .ok j' := by
  cases j with
  | switch ts =>
    obtain ⟨ps, hps, rfl⟩ := map_eq_ok.1 hj
    exact map_eq_ok.2 ⟨ps, mapM_eq_ok.2 ((mapM_eq_ok.1 hps).imp h), rfl⟩
  | always t | ifTrue t | ifFalse t | compare c t =>
    obtain ⟨p, hp, rfl⟩ := map_eq_ok.1 hj
    exact map_eq_ok.2 ⟨p, h t p hp, rfl⟩

/-- An instruction is linked when each of its targets is marked. -/
theorem Instruction.exists_link {i : Instruction Label} (h : ∀ l ∈ i.targets, labels.Marked l) :
    ∃ i', i.link labels = .ok i' := by
  cases i with
  | op o => exact ⟨.op o, rfl⟩
  | ret => exact ⟨.ret, rfl⟩
  | jump j =>
    have hpos : ∀ l ∈ j.targets, ∃ p, labels.position l = .ok p := by
      intro l hl
      obtain ⟨p, hp⟩ := h l hl
      exact ⟨p, Marks.position_eq_ok.2 hp⟩
    obtain ⟨j', hj⟩ := Jump.exists_mapTargets hpos
    exact ⟨.jump j', by rw [link, hj]; rfl⟩

/-- A target of a linked instruction is where a target of the instruction was marked. -/
theorem Instruction.markedAt_of_link {i : Instruction Label} {i' : Instruction Nat} {p : Nat}
    (h : i.link labels = .ok i') (hp : p ∈ i'.targets) : ∃ l ∈ i.targets, labels.MarkedAt l p := by
  cases i with
  | op o =>
    cases h
    exact absurd hp List.not_mem_nil
  | ret =>
    cases h
    exact absurd hp List.not_mem_nil
  | jump j =>
    obtain ⟨j', hj, rfl⟩ := map_eq_ok.1 h
    obtain ⟨l, hl, hlp⟩ := exists_of_mem_right (Jump.targets_mapTargets hj) hp
    exact ⟨l, hl, Marks.position_eq_ok.1 hlp⟩

/-! ## Code -/

/-- The code that a session links to. -/
def Linked (labels : Marks) (code : Array (Instruction Label)) (code' : Array (Instruction Nat)) :
    Prop :=
  code.mapM (Instruction.link labels) = .ok code'

variable {code : Array (Instruction Label)} {code' : Array (Instruction Nat)}

theorem linked_iff :
    Linked labels code code' ↔
      List.Forall₂ (fun i i' => i.link labels = .ok i') code.toList code'.toList := by
  rw [← mapM_eq_ok, ← Array.toList_mapM, Linked]
  cases code.mapM (Instruction.link labels) with
  | error e => simp
  | ok c => simp [Array.toList_inj]

/-- Code is linked when every label that it jumps to is marked. -/
theorem exists_linked (h : ∀ i ∈ code, ∀ l ∈ i.targets, labels.Marked l) :
    ∃ code', Linked labels code code' := by
  obtain ⟨is, his⟩ := exists_mapM_eq_ok fun i hi =>
    Instruction.exists_link (h i (Array.mem_toList_iff.1 hi))
  exact ⟨is.toArray, linked_iff.2 (mapM_eq_ok.1 his)⟩

theorem Linked.size (h : Linked labels code code') : code'.size = code.size :=
  (linked_iff.1 h).length_eq.symm

/-- Each instruction of linked code comes from the one at the same position. -/
theorem Linked.getElem? (h : Linked labels code code') {n : Nat} {i' : Instruction Nat}
    (hi : code'[n]? = some i') : ∃ i, code[n]? = some i ∧ i.link labels = .ok i' := by
  obtain ⟨hlen, hget⟩ := List.forall₂_iff_get.1 (linked_iff.1 h)
  obtain ⟨hn, rfl⟩ := Array.getElem?_eq_some_iff.1 hi
  have hn' : n < code.size := by
    rw [← h.size]
    exact hn
  exact ⟨_, Array.getElem?_eq_getElem hn', hget n hn' hn⟩

/-- Each instruction is linked to the one at the same position. -/
theorem Linked.getElem?_of (h : Linked labels code code') {n : Nat} {i : Instruction Label}
    (hi : code[n]? = some i) : ∃ i', code'[n]? = some i' ∧ i.link labels = .ok i' := by
  have hn : n < code'.size := by
    rw [h.size]
    exact (Array.getElem?_eq_some_iff.1 hi).1
  have hi' := Array.getElem?_eq_getElem hn
  obtain ⟨j, hj, hlink⟩ := h.getElem? hi'
  rw [hi] at hj
  obtain rfl := Option.some.inj hj
  exact ⟨_, hi', hlink⟩

end Stackwright
