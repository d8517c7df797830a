import Stackwright.Proofs.Builder.Chains
import Stackwright.Proofs.Builder.Loops
import Stackwright.Proofs.Emission.Indexing
import Stackwright.Proofs.Machine.Room

/-! # What code brings about

The code of an accepted call, with its jumps, brings a machine from a **condition** before it to one behind it:
a run through it comes to its end, whatever the level, dumps included. Most such conditions say which values are
on the stack, and that nothing else is different from a machine that is known, but for what is aside.

* **`Machine.At k μ σ m`** — a machine is another one with this stack, changed aside.
* **`Session.Brings s P R s'`** — what was recorded between two sessions brings `P` to `R`.
* **`Emit.brings_choice`** — a comparison decides between two bodies.
* **`Emit.brings_rounds`** — a loop goes over its rounds one by one. -/

namespace Stackwright

/-! ## Conditions -/

/-- A machine is **at** a stack: it is another one with this stack, changed aside. -/
structure Machine.At (k : Nat) (μ : Machine) (σ : List Value) (m : Machine) : Prop where
  /-- What changed is aside. -/
  aside : μ.Aside k m
  /-- The stack is this one. -/
  stack : m.frame.stack = σ

namespace Machine

variable {k k' i : Nat} {μ m₁ m m' : Machine} {σ σ' : List Value} {v w : Value}

theorem At.refl (k : Nat) (m : Machine) : m.At k m.frame.stack m := ⟨.refl k m, rfl⟩

theorem At.alike (h : μ.At k σ m) (hm : m.Alike m') : μ.At k σ m' :=
  ⟨h.aside.trans (.of_alike k hm), hm.stack.trans h.stack⟩

theorem At.interlude (h : μ.At k σ m) (hm : m.Interlude k m') : μ.At k σ m' :=
  ⟨h.aside.trans hm.aside, hm.stack.trans h.stack⟩

/-- Fewer locals are looked at. -/
theorem At.fewer (h : μ.At k' σ m) (hk : k ≤ k') : μ.At k σ m := ⟨h.aside.fewer hk, h.stack⟩

/-- What is at a stack of a machine changed aside is at that of the machine before. -/
theorem At.before (h : m₁.At k σ m) (hm : μ.Aside k m₁) : μ.At k σ m := ⟨hm.trans h.aside, h.stack⟩

/-- With another stack it is there. -/
theorem At.replace (h : μ.At k σ m) (σ' : List Value) : μ.At k σ' (m.withStack σ') :=
  ⟨h.aside.trans (.withStack k m σ'), rfl⟩

/-- There are as many locals. -/
theorem At.size (h : μ.At k σ m) : m.frame.locals.size = μ.frame.locals.size := h.aside.size

/-- A local from `k` on is aside. -/
theorem Aside.setLocal (hi : k ≤ i) (m : Machine) (v : Value) : m.Aside k (m.withLocal i v) :=
  ⟨rfl, size_withLocal, fun _ hj => getElem?_withLocal_ne (by omega), .refl _⟩

/-- With more locals behind the same is aside. -/
theorem Aside.beside (h : m.Aside k m') (hk : k ≤ m.frame.locals.size) (more : Array Value) :
    (m.beside more).Aside k (m'.beside more) where
  args := h.args
  size := by rw [Machine.beside, Machine.beside, Array.size_append, Array.size_append, h.size]
  locals i hi := by
    have hi' : i < m.frame.locals.size := Nat.lt_of_lt_of_le hi hk
    rw [Machine.beside, Machine.beside, Array.getElem?_append_left (h.size ▸ hi'), Array.getElem?_append_left hi', h.locals i hi]
  heap := h.heap

/-- What is written last is in a local. -/
theorem withLocal_withLocal (m : Machine) (i : Nat) (v w : Value) : (m.withLocal i v).withLocal i w = m.withLocal i w := by
  simp [withLocal]

/-- What is in a local already can be written there. -/
theorem withLocal_self (hv : m.frame.locals[i]? = some v) : m.withLocal i v = m := by
  have hsame : m.frame.locals.setIfInBounds i v = m.frame.locals := by
    refine Array.ext_getElem? fun j => ?_
    rw [Array.getElem?_setIfInBounds]
    split
    · rename_i hij
      subst hij
      split
      · exact hv.symm
      · rename_i hi
        exact absurd (Array.getElem?_eq_some_iff.1 hv).1 hi
    · rfl
  rw [withLocal, hsame]

end Machine

/-- Given a fact, what was recorded between two sessions **brings** a machine that satisfies `P` to one that
satisfies `R`. What was recorded does not depend on the fact. -/
structure Session.Brings (g : Prop) (s : Session) (P R : Machine → Prop) (s' : Session) : Prop where
  /-- The session went on. -/
  further : s.Extends s'
  /-- The same constructs are open. -/
  constructs : s'.constructs = s.constructs
  /-- No local is given back. -/
  locals : s.locals.size ≤ s'.locals.size
  /-- No label is given back. -/
  labels : s.labels.entries.size ≤ s'.labels.entries.size
  /-- A run gets to the end. -/
  along : g → ∀ {p : Procedure} {f : Session}, p.Fits f → s'.Extends f → ∀ m : Machine, P m →
    s'.locals.size ≤ m.frame.locals.size →
      ∃ m', p.Along (Procedure.Stretch s.code.size s'.code.size) s.code.size m s'.code.size m' ∧ R m'

namespace Session

variable {g g' : Prop} {s s' s'' : Session} {S P P' R R' : Machine → Prop} {Q : Machine → Machine → Prop} {k : Nat}
  {μ : Machine} {σ : List Value}

/-- What is gone through brings about what is known behind it. -/
theorem Goes.brings (h : s.Goes S Q s') (hS : g → ∀ m, s'.locals.size ≤ m.frame.locals.size → P m → S m)
    (hQ : g → ∀ m m', s'.locals.size ≤ m.frame.locals.size → P m → Q m m' → R m') : s.Brings g P R s' where
  further := h.further
  constructs := h.constructs
  locals := h.locals
  labels := h.labels
  along hg _ _ hp hf m hm hsize := by
    obtain ⟨_, m', halong, rfl, hq⟩ := (h.attains hp hf m).along ⟨hS hg m hsize hm, hsize⟩
    exact ⟨m', halong, hQ hg m m' hsize hm hq⟩

/-- Lines leave what is looked at as it is. -/
theorem Tells.brings (h : s.Tells s') : s.Brings g (μ.At k σ) (μ.At k σ) s' :=
  h.goes.brings (fun _ _ _ _ => trivial) fun _ _ _ _ hm halike => hm.alike halike

namespace Brings

/-- On a machine with room for the locals, conditions may be replaced by others. -/
theorem imp (h : s.Brings g P R s') (hP : g → ∀ m, s'.locals.size ≤ m.frame.locals.size → P' m → P m)
    (hR : g → ∀ m, s'.locals.size ≤ m.frame.locals.size → R m → R' m) : s.Brings g P' R' s' where
  further := h.further
  constructs := h.constructs
  locals := h.locals
  labels := h.labels
  along hg _ _ hp hf m hm hsize := by
    obtain ⟨m', halong, hr⟩ := h.along hg hp hf m (hP hg m hsize hm) hsize
    exact ⟨m', halong, hR hg m' (halong.sameSize.locals ▸ hsize) hr⟩

theorem trans (h : s.Brings g P R s') (h' : s'.Brings g R R' s'') : s.Brings g P R' s'' where
  further := h.further.trans h'.further
  constructs := h'.constructs.trans h.constructs
  locals := Nat.le_trans h.locals h'.locals
  labels := Nat.le_trans h.labels h'.labels
  along hg p f hp hf m hm hsize := by
    have hmiddle := h.further.size
    have hlast := h'.further.size
    obtain ⟨m₁, halong, hm₁⟩ := h.along hg hp (h'.further.trans hf) m hm (Nat.le_trans h'.locals hsize)
    obtain ⟨m₂, halong', hm₂⟩ := h'.along hg hp hf m₁ hm₁ (halong.sameSize.locals ▸ hsize)
    exact ⟨m₂, (halong.imp fun i hi => ⟨hi.1, Nat.lt_of_lt_of_le hi.2 hlast⟩).trans
      (halong'.imp fun i hi => ⟨Nat.le_trans hmiddle hi.1, hi.2⟩), hm₂⟩

/-- What is known of the machine that enters is given from then on, and changes are counted from it. -/
theorem rebase (hstack : g → ∀ m, P m → m.frame.stack = σ)
    (h : ∀ m₁, s.Brings (g ∧ P m₁) (m₁.At k σ) R s') : s.Brings g P R s' where
  further := (h ⟨⟨#[], #[], []⟩, {}⟩).further
  constructs := (h ⟨⟨#[], #[], []⟩, {}⟩).constructs
  locals := (h ⟨⟨#[], #[], []⟩, {}⟩).locals
  labels := (h ⟨⟨#[], #[], []⟩, {}⟩).labels
  along hg _ _ hp hf m hm hsize := (h m).along ⟨hg, hm⟩ hp hf m ⟨.refl k m, hstack hg m hm⟩ hsize

/-- A fact that is given may be known of the machine instead. -/
theorem given {φ : Prop} (h : s.Brings (g ∧ φ) P R s') :
    s.Brings g (fun m => φ ∧ P m) R s' :=
  ⟨h.further, h.constructs, h.locals, h.labels, fun hg _ _ hp hf m hm hsize => h.along ⟨hg, hm.1⟩ hp hf m hm.2 hsize⟩

/-- What is brought about in the locals up to those that a session declared is brought about with others behind them. -/
theorem passes {m : Machine} {p : Procedure} {f : Session} (hp : p.Fits f) (hf : s'.Extends f)
    (hroom : s'.locals.size ≤ m.frame.locals.size) (hg : g)
    (h : s.Brings g ((m.upTo s'.locals.size).At k m.frame.stack) R s') :
    ∃ e, p.Crosses s.code.size s'.code.size m (e.beside (m.frame.locals.extract s'.locals.size)) ∧
      e.frame.locals.size = s'.locals.size ∧ R e := by
  have hsize := Machine.size_upTo hroom
  obtain ⟨e, halong, he⟩ := h.along hg hp hf (m.upTo s'.locals.size) ⟨.refl _ _, rfl⟩ (Nat.le_of_eq hsize.symm)
  -- the run is that of a machine without the others
  have hrun := halong.beside (m.frame.locals.extract s'.locals.size)
  rw [Machine.beside_upTo] at hrun
  exact ⟨e, hrun.within fun _ hi => hi, halong.sameSize.locals.trans hsize, he⟩

/-- What is changed aside there leaves **the others** as they are. -/
theorem crosses {m : Machine} {p : Procedure} {f : Session} {σ' : List Value} (hk : k ≤ s'.locals.size)
    (hp : p.Fits f) (hf : s'.Extends f) (hroom : s'.locals.size ≤ m.frame.locals.size) (hg : g)
    (h : s.Brings g ((m.upTo s'.locals.size).At k m.frame.stack) ((m.upTo s'.locals.size).At k σ') s') :
    ∃ m', p.Crosses s.code.size s'.code.size m m' ∧ m'.frame.stack = σ' ∧ m.Aside k m' ∧
      ∀ i, s'.locals.size ≤ i → m'.frame.locals[i]? = m.frame.locals[i]? := by
  obtain ⟨e, hcrosses, hsame, he⟩ := h.passes hp hf hroom hg
  have haside := he.aside.beside ((Machine.size_upTo hroom).symm ▸ hk) (m.frame.locals.extract s'.locals.size)
  rw [Machine.beside_upTo] at haside
  exact ⟨_, hcrosses, he.stack, haside, fun i hi => Machine.getElem?_beside_extract hsame hi⟩

end Brings

end Session

/-! ## Calls in a row -/

namespace Exec

variable {m : Machine} {v : Value} {rest : List Value}

end Exec

namespace Emit

variable {level : TraceDetail} {g : Prop} {t : Tracer} {s s' : Session} {k : Nat} {μ : Machine}
  {σ σ' : List Value} {T : Ty} {v : Value}

/-- One operation behind its line. -/
theorem brings_traced {P R : Machine → Prop} {text : String} {o : Op}
    (h : ((traced text o).run t).run s = .ok () s')
    (hdo : g → ∀ m m₁, P m → m.Alike m₁ → ∃ m', o.execute.run m₁ = .ok () m' ∧ R m') : s.Brings g P R s' := by
  refine (goes_traced h).brings (fun hg m _ hm m₁ halike => ?_) ?_
  · obtain ⟨m', hrun, -⟩ := hdo hg m m₁ hm halike
    exact ⟨m', hrun⟩
  · rintro hg m m' - hm ⟨m₁, halike, hrun⟩
    obtain ⟨m₂, hrun', hr⟩ := hdo hg m m₁ hm halike
    cases hrun'.symm.trans hrun
    exact hr

/-- One operation that changes nothing but the stack. -/
theorem brings_act {text : String} {o : Op} (h : ((traced text o).run t).run s = .ok () s')
    (hdo : g → ∀ m : Machine, m.frame.stack = σ → μ.world.heap.Adds m.world.heap →
      o.execute.run m = .ok () (m.withStack σ')) :
    s.Brings g (μ.At k σ) (μ.At k σ') s' := by
  refine brings_traced h fun hg m m₁ hm halike => ?_
  have hm₁ := hm.alike halike
  exact ⟨_, hdo hg m₁ hm₁.stack hm₁.aside.heap, hm₁.replace σ'⟩

/-- A value is pushed. -/
theorem brings_push {text : String} (h : ((traced text (.push v)).run t).run s = .ok () s') :
    s.Brings g (μ.At k σ) (μ.At k (v :: σ)) s' :=
  brings_act h fun _ m hstack _ => by
    rw [← hstack]
    rfl

/-- An operand is loaded. It may be in a local that the session declared. -/
theorem brings_load {o : Operand} (hk : k ≤ s.locals.size) (hlabels : 0 < s.labels.entries.size) (ho : o.Below k)
    (hv : g → s.locals.size ≤ μ.frame.locals.size → μ.operand? o = some v)
    (hshows : g → level = .full → ∀ l, o = .variable l → μ.world.heap.Shows l.type v)
    (h : ((load o).run (.ofLevel level)).run s = .ok () s') :
    s.Brings g (μ.At k σ) (μ.At k (v :: σ)) s' := by
  have hload := goes_load hk hlabels h
  -- the operand is what it was at first
  have hsame : g → ∀ m, s'.locals.size ≤ m.frame.locals.size → μ.At k σ m → m.operand? o = some v :=
    fun hg m hsize hm => (hm.aside.operand ho).trans (hv hg (Nat.le_trans hload.locals (hm.size ▸ hsize)))
  refine hload.brings (fun hg m hsize hm => ?_) ?_
  · exact ⟨v, hsame hg m hsize hm, fun hfull l hl => (hshows hg hfull l hl).adds hm.aside.heap⟩
  · rintro hg m m' hsize hm ⟨haside, w, hw, hstack⟩
    cases (hsame hg m hsize hm).symm.trans hw
    exact ⟨hm.aside.trans haside, by rw [hstack, hm.stack]⟩

/-- The top is stored into a local that the session declared. -/
theorem brings_storeLocal {l : Local} (hk : k ≤ s.locals.size) (hlabels : 0 < s.labels.entries.size)
    (hl : l.index < s.locals.size) (hshows : g → level = .full → μ.world.heap.Shows l.type v)
    (h : ((storeLocal l).run (.ofLevel level)).run s = .ok () s') :
    s.Brings g (μ.At k (v :: σ)) ((μ.withLocal l.index (Value.fit l.type.storedAs? v)).At k σ) s' := by
  have hstore := goes_storeLocal hk hlabels h
  refine hstore.brings (fun hg m hsize hm => ?_) ?_
  · exact ⟨Nat.lt_of_lt_of_le hl (Nat.le_trans hstore.locals hsize), v, σ, hm.stack,
      fun hfull => (hshows hg hfull).adds hm.aside.heap⟩
  · rintro hg m m' - hm ⟨w, rest, hstack, -, hinterlude⟩
    cases hm.stack.symm.trans hstack
    have hset : (μ.withLocal l.index (Value.fit l.type.storedAs? v)).At k σ
        ((m.withStack σ).withLocal l.index (Value.fit l.type.storedAs? v)) :=
      ⟨(hm.replace σ).aside.withLocal l.index _, rfl⟩
    exact hset.interlude hinterlude

/-- The index of a loop is counted up. -/
theorem CountsUp.counted {l : Local} {i : Nat} {m₁ m m' : Machine} (h : CountsUp k l m m')
    (hkind : l.type.storedAs? = some (.word .i32)) (hi : i < 1 <<< 31)
    (hindex : m.frame.locals[l.index]? = some (.ofInt32 i))
    (hm : (m₁.withLocal l.index (.ofInt32 i)).At k σ m) :
    (m₁.withLocal l.index (.ofInt32 (i + 1 : Nat))).At k σ m' := by
  have hinterlude := h .i32 _ hkind hindex
  rw [Scalar.wordValue_lowBits (k := .i32) (spans_i32 hi)] at hinterlude
  have haside := hm.aside.withLocal l.index (.ofInt32 (i + 1 : Nat))
  rw [Machine.withLocal_withLocal] at haside
  have hset : (m₁.withLocal l.index (.ofInt32 (i + 1 : Nat))).At k σ (m.withLocal l.index (.ofInt32 (i + 1 : Nat))) :=
    ⟨haside, hm.stack⟩
  exact hset.interlude hinterlude

end Emit

end Stackwright
