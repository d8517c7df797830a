import Stackwright.Proofs.Builder.Bringing
import Stackwright.Proofs.Scalar.Calculations

/-! # Calculations of a procedure

A client calculates by loading operands and by calling for operations on what is on the stack, and it counts with a
slot. What a calculation leaves on the stack has the low bits of the exact integer, as many as the narrowest kind on the
way, and so has what is stored of it, as many as the slot has. Counting is exact in the low bits that a slot has, so
steps up and down cancel.

* **`Calculation.calls`** — the calls of a calculation.
* **`Machine.put m o v`** — a machine with another value in a slot.
* **`Takes.calculates`**, **`Takes.counts`** — what calls bring about.
* **`Builder.calculations_wrap`** — calculations and counts of a procedure. -/

namespace Stackwright

/-! ## (1) Operations -/

/-- The call for an operator. -/
def Operator.operation : Operator → Operation
  | .add => .add
  | .sub => .subtract
  | .and => .and
  | .or => .or

/-- What it records. -/
def Operator.op : Operator → Op
  | .add => .add
  | .sub => .sub
  | .and => .and
  | .or => .or

theorem Operator.perform_operation (o : Operator) :
    ∃ text, o.operation.perform = Operation.perform.done (Emit.traced text o.op) := by
  cases o <;> exact ⟨_, rfl⟩

/-- The calls of a **calculation** over operands. -/
def Calculation.calls : Calculation Operand → List Call
  | leaf o => [.perform (.load o)]
  | combine o x y => x.calls ++ (y.calls ++ [.perform o.operation])
  | complement x => x.calls ++ [.perform .not]

/-- A full trace shows what is loaded from a local, so there the local is not declared to hold an array. -/
def Operand.Plain (level : TraceDetail) (o : Operand) : Prop := level = .full → ∀ l, o = .variable l → l.type.isArray = false

/-- The leaves of a calculation **hold words**. -/
def Calculation.Reads (level : TraceDetail) (c : Calculation Operand) (m : Machine) (f : Operand → Word) : Prop :=
  ∀ o ∈ c.leaves, m.operand? o = some (.scalar (f o).scalar) ∧ o.Plain level

/-- A step with which a slot is **counted**. -/
inductive Count
  /-- One up. -/
  | up
  /-- One down. -/
  | down

namespace Count

/-- The call for it. -/
def operation : Count → Operand → Operation
  | up => .increment
  | down => .decrement

/-- What it adds. -/
def offset : Count → Int
  | up => 1
  | down => -1

/-- The operator that it applies to the slot and one. -/
def operator : Count → Operator
  | up => .add
  | down => .sub

/-- The calls for steps in a row. -/
def calls (cs : List Count) (o : Operand) : List Call := cs.map fun c => .perform (c.operation o)

/-- What they add in all. -/
def total (cs : List Count) : Int := (cs.map offset).sum

theorem total_cons (c : Count) (cs : List Count) : total (c :: cs) = c.offset + total cs := by
  rw [total, List.map_cons, List.sum_cons, total]

theorem perform_operation (c : Count) (o : Operand) :
    ∃ text, (c.operation o).perform = Operation.perform.done (do
      Emit.load o
      Emit.loadInt 1
      Emit.traced text c.operator.op
      Emit.store o) := by
  cases c <;> exact ⟨_, rfl⟩

/-- A word that is **counted** and made to fit its kind is the word of the integer that is one more or less. -/
theorem convert_onScalars (c : Count) (x : Word) :
    ∃ s, c.operator.onScalars? x.scalar (.i32 1) = some s ∧ s.convert (.word x.kind) = .wrap x.kind (x.value + c.offset) := by
  obtain ⟨l, hl, hbits⟩ := Scalar.join_i32 x.kind
  have hone : (Word.ofInt .i32 1).value = 1 := by decide
  have hpending : c.operator.pending x.value (Word.ofInt .i32 1).value = x.value + c.offset := by
    rw [hone]
    cases c <;> rfl
  refine ⟨_, c.operator.onScalars_words (b := .ofInt .i32 1) hl, ?_⟩
  rw [hpending, Word.scalar, Scalar.convert_word]
  exact Scalar.wrap_wordValue_lowBits hbits _

end Count

/-! ## (2) Slots -/

/-- The type of the slot that an operand is. -/
def Session.slotType? (s : Session) : Operand → Option Ty
  | .constant _ => none
  | .argument a => s.signature.args[a.index]?
  | .variable l => some l.type

/-- A session that went on has the same slots. -/
theorem Session.slotType?_grows {s s' : Session} (h : s.Grows s') (o : Operand) : s'.slotType? o = s.slotType? o := by
  cases o with
  | constant c => rfl
  | argument a => rw [slotType?, h.signature, slotType?]
  | «variable» l => rfl

/-- What is stored as a scalar can be shown. -/
theorem Session.plain_of_slotType {s : Session} {o : Operand} {T : Ty} {k : ScalarKind} (hT : s.slotType? o = some T)
    (hk : T.storedAs? = some k) (level : TraceDetail) : o.Plain level := by
  rintro - l rfl
  cases hT
  exact Ty.isArray_of_storedAs hk

/-- A constant is no slot. -/
theorem Session.ne_constant_of_slotType {s : Session} {o : Operand} {T : Ty} (hT : s.slotType? o = some T) (c : Constant) :
    o ≠ .constant c := by
  rintro rfl
  cases hT

/-- A machine with another value in a **slot**. -/
def Machine.put (m : Machine) : Operand → Value → Machine
  | .constant _, _ => m
  | .argument a, v => { m with frame := { m.frame with args := m.frame.args.setIfInBounds a.index v } }
  | .variable l, v => m.withLocal l.index v

namespace Machine

variable {m m' : Machine} {o : Operand} {v w : Value} {k : Nat}

/-- It is there. -/
theorem operand?_put (ho : ∀ c, o ≠ .constant c) (hw : m.operand? o = some w) : (m.put o v).operand? o = some v := by
  cases o with
  | constant c => exact absurd rfl (ho c)
  | argument a => exact Array.getElem?_setIfInBounds_self_of_lt (Array.getElem?_eq_some_iff.1 hw).1
  | «variable» l => exact Machine.getElem?_withLocal_self (Array.getElem?_eq_some_iff.1 hw).1

/-- What is written last is in the slot. -/
theorem put_put (m : Machine) (o : Operand) (v w : Value) : (m.put o v).put o w = m.put o w := by
  cases o with
  | constant c => rfl
  | argument a => simp [put]
  | «variable» l => exact Machine.withLocal_withLocal m l.index v w

/-- What is in the slot already can be written there. -/
theorem put_self (hv : m.operand? o = some v) : m.put o v = m := by
  cases o with
  | constant c => rfl
  | argument a =>
    have hsame : m.frame.args.setIfInBounds a.index v = m.frame.args := by
      obtain ⟨hi, hget⟩ := Array.getElem?_eq_some_iff.1 hv
      rw [Array.setIfInBounds, dif_pos hi, ← hget, Array.set_getElem_self]
    rw [put, hsame]
  | «variable» l => exact Machine.withLocal_self hv

/-- With another value in a slot the same is aside. -/
theorem Aside.put (h : m.Aside k m') (o : Operand) (v : Value) : (m.put o v).Aside k (m'.put o v) := by
  cases o with
  | constant c => exact h
  | argument a => exact ⟨congrArg (·.setIfInBounds a.index v) h.args, h.size, h.locals, h.heap⟩
  | «variable» l => exact h.withLocal l.index v

end Machine

namespace Exec

variable {m : Machine} {a b x : Scalar} {v : Value} {rest : List Value} {kind : Option ScalarKind}

/-- An operation takes two operands and leaves what the operator makes of them. -/
theorem run_operator (o : Operator) (hx : o.onScalars? a b = some x) (hstack : m.frame.stack = .scalar b :: .scalar a :: rest) :
    (Op.execute o.op).run m = .ok () (m.withStack (.scalar x :: rest)) := by
  have htwo : ∀ (op : Value → Value → Host Value), op (.scalar a) (.scalar b) = pure (.scalar x) →
      (onTwo op).run m = .ok () (m.withStack (.scalar x :: rest)) := by
    intro op hop
    rw [onTwo, run_bind_ok (run_pop hstack), run_bind_ok (run_pop rfl), hop]
    rfl
  have hbitwise : ∀ op : BitVec 128 → BitVec 128 → BitVec 128, a.bitwise? op b = some x →
      Host.bitwise op (.scalar a) (.scalar b) = pure (.scalar x) := by
    intro op hop
    have hscalar : ∀ s, Host.scalarOf (.scalar s) = pure s := fun _ => rfl
    unfold Host.bitwise
    rw [hscalar, hscalar, pure_bind, pure_bind, hop]
  cases o with
  | add =>
    cases hx
    exact htwo _ rfl
  | sub =>
    cases hx
    exact htwo _ rfl
  | and => exact htwo _ (hbitwise _ hx)
  | or => exact htwo _ (hbitwise _ hx)

/-- The negation takes one operand. -/
theorem run_complement (hx : a.complement? = some x) (hstack : m.frame.stack = .scalar a :: rest) :
    (Op.execute .not).run m = .ok () (m.withStack (.scalar x :: rest)) := by
  have hcomplement : Host.complement (.scalar a) = pure (.scalar x) := by
    have hscalar : Host.scalarOf (.scalar a) = pure a := rfl
    unfold Host.complement
    rw [hscalar, pure_bind, hx]
  rw [Op.execute, run_bind_ok (run_pop hstack), hcomplement]
  rfl

/-- What is stored into an argument is made to fit it. -/
theorem run_storeArg {i : Nat} (hi : i < m.frame.args.size) (hstack : m.frame.stack = v :: rest) :
    (Op.execute (.storeArg i kind)).run m =
      .ok () { m.withStack rest with frame := { (m.withStack rest).frame with
        args := m.frame.args.setIfInBounds i (Value.fit kind v) } } := by
  rw [Op.execute, run_bind_ok (run_popFit kind hstack), setArg, run_bind, run_get]
  dsimp only
  rw [Machine.args_withStack, checkSlot, if_pos hi]
  rfl

end Exec

/-! ## (3) Calls -/

namespace Emit

variable {level : TraceDetail} {g : Prop} {s s' : Session} {k : Nat} {μ : Machine} {σ : List Value} {T : Ty} {v w : Value}

/-- The top is **stored** into a slot. -/
theorem brings_store {o : Operand} (hk : k ≤ s.locals.size) (hlabels : 0 < s.labels.entries.size)
    (ho : o.Below s.locals.size) (hT : s.slotType? o = some T) (hthere : g → ∃ w, μ.operand? o = some w)
    (hshows : g → level = .full → μ.world.heap.Shows T v) (h : ((store o).run (.ofLevel level)).run s = .ok () s') :
    s.Brings g (μ.At k (v :: σ)) ((μ.put o (Value.fit T.storedAs? v)).At k σ) s' := by
  cases o with
  | constant c => cases hT
  | «variable» l =>
    cases hT
    exact brings_storeLocal hk hlabels (ho l (List.mem_singleton_self l)) hshows h
  | argument a =>
    obtain ⟨b, s₁, harg, htraced⟩ := run_bind_eq_ok.1 h
    have hT : s.signature.args[a.index]? = some T := hT
    obtain ⟨rfl, rfl⟩ : b = ⟨a.index, T⟩ ∧ s₁ = s := by
      rw [arg, run_bind, run_get] at harg
      dsimp only at harg
      rw [hT] at harg
      cases harg
      exact ⟨rfl, rfl⟩
    refine brings_traced htraced fun hg m m₁ hm halike => ?_
    have hm₁ := hm.alike halike
    obtain ⟨w, hw⟩ := hthere hg
    have hsize : a.index < m₁.frame.args.size := by
      rw [hm₁.aside.args]
      exact (Array.getElem?_eq_some_iff.1 hw).1
    exact ⟨_, Exec.run_storeArg hsize hm₁.stack, (hm₁.replace σ).aside.put (.argument a) _, rfl⟩

/-- The top two are replaced by what an operator makes of them. -/
theorem brings_operator {text : String} {o : Operator} {a b x : Scalar} (hx : o.onScalars? a b = some x)
    (h : ((traced text o.op).run (.ofLevel level)).run s = .ok () s') :
    s.Brings g (μ.At k (.scalar b :: .scalar a :: σ)) (μ.At k (.scalar x :: σ)) s' :=
  brings_act h fun _ _ hstack _ => Exec.run_operator o hx hstack

/-- An operand that holds a scalar is loaded. -/
theorem brings_loadScalar {o : Operand} {x : Scalar} (hk : k ≤ s.locals.size) (hlabels : 0 < s.labels.entries.size)
    (ho : o.Below k) (hv : g → μ.operand? o = some (.scalar x) ∧ o.Plain level)
    (h : ((load o).run (.ofLevel level)).run s = .ok () s') : s.Brings g (μ.At k σ) (μ.At k (.scalar x :: σ)) s' :=
  brings_load hk hlabels ho (fun hg _ => (hv hg).1)
    (fun hg hfull l hl => Heap.shows_scalar ((hv hg).2 hfull l hl) x) h

end Emit

namespace Builder

open Emit

variable {level : TraceDetail} {g : Prop} {s s' : Session} {k : Nat} {μ : Machine} {σ : List Value} {T : Ty} {v : Value}

/-- Handing over what was reported is no code. -/
theorem brings_delivered (s : Session) : s.Brings g (μ.At k σ) (μ.At k σ) { s with notices := #[] } :=
  (Session.tells_delivered s).brings

/-- The calls of a **calculation** leave what it comes to. -/
theorem Takes.calculates {c : Calculation Operand} {f : Operand → Word} {x : Scalar} (hk : k ≤ s.locals.size)
    (hlabels : 0 < s.labels.entries.size) (hbelow : ∀ o ∈ c.leaves, o.Below k) (hreads : g → c.Reads level μ f)
    (hx : c.evaluate? (fun o => (f o).scalar) = some x) (h : Takes level c.calls s s') :
    s.Brings g (μ.At k σ) (μ.At k (.scalar x :: σ)) s' := by
  -- the second operand of an operation is calculated above the first, so this goes over all stacks
  induction c generalizing s s' σ x with
  | leaf o =>
    cases hx
    obtain ⟨s₁, hload, rfl⟩ := h.done rfl
    exact (brings_loadScalar hk hlabels (hbelow o (List.mem_singleton_self o))
      (fun hg => hreads hg o (List.mem_singleton_self o)) hload).trans (brings_delivered s₁)
  | combine o y z ihy ihz =>
    obtain ⟨s₁, hy, h⟩ := h.split
    obtain ⟨s₂, hz, ho⟩ := h.split
    obtain ⟨text, hperform⟩ := o.perform_operation
    obtain ⟨s₃, hop, rfl⟩ := ho.done hperform
    obtain ⟨a, ha, hx⟩ := Option.bind_eq_some_iff.1 hx
    obtain ⟨b, hb, hx⟩ := Option.bind_eq_some_iff.1 hx
    have hfirst := ihy (σ := σ) hk hlabels (fun o ho => hbelow o (List.mem_append_left _ ho))
      (fun hg o ho => hreads hg o (List.mem_append_left _ ho)) ha hy
    have hsecond := ihz (σ := .scalar a :: σ) (Nat.le_trans hk hfirst.locals) (Nat.lt_of_lt_of_le hlabels hfirst.labels)
      (fun o ho => hbelow o (List.mem_append_right _ ho)) (fun hg o ho => hreads hg o (List.mem_append_right _ ho)) hb hz
    exact hfirst.trans (hsecond.trans ((brings_operator hx hop).trans (brings_delivered s₃)))
  | complement y ih =>
    obtain ⟨s₁, hy, hnot⟩ := h.split
    obtain ⟨s₂, hop, rfl⟩ := hnot.done rfl
    obtain ⟨a, ha, hx⟩ := Option.bind_eq_some_iff.1 hx
    have hcomplement : s₁.Brings g (μ.At k (.scalar a :: σ)) (μ.At k (.scalar x :: σ)) s₂ :=
      brings_act hop fun _ _ hstack _ => Exec.run_complement hx hstack
    exact (ih hk hlabels hbelow hreads ha hy).trans (hcomplement.trans (brings_delivered s₂))

/-- One step of a **count**. -/
theorem Takes.counts_one {c : Count} {o : Operand} {x : Word} (hs : s.Fit) (hk : k ≤ s.locals.size) (ho : o.Below k)
    (hT : s.slotType? o = some T) (hkind : T.storedAs? = some (.word x.kind))
    (hv : g → μ.operand? o = some (.scalar x.scalar)) (h : Takes level [.perform (c.operation o)] s s') :
    s.Brings g (μ.At k σ) ((μ.put o (.scalar (.wrap x.kind (x.value + c.offset)))).At k σ) s' := by
  obtain ⟨text, hperform⟩ := c.perform_operation o
  obtain ⟨s₄, hrun, rfl⟩ := h.done hperform
  obtain ⟨u, s₁, hload, hrun⟩ := run_bind_eq_ok.1 hrun
  obtain ⟨u, s₂, hone, hrun⟩ := run_bind_eq_ok.1 hrun
  obtain ⟨u, s₃, hop, hstore⟩ := run_bind_eq_ok.1 hrun
  obtain ⟨y, hy, hfit⟩ := c.convert_onScalars x
  -- what comes before the store leaves the slots as they are
  have hspares₁ := (sparing_load o).spares hs hload
  have hspares₂ := (sparing_loadInt 1).spares hspares₁.fit hone
  have hspares₃ := (sparing_traced text c.operator.op (by cases c <;> rfl)).spares hspares₂.fit hop
  have hgrows := hspares₁.grows.trans (hspares₂.grows.trans hspares₃.grows)
  have hT₃ : s₃.slotType? o = some T := (Session.slotType?_grows hgrows o).trans hT
  have hfront : s.Brings g (μ.At k σ) (μ.At k (.scalar y :: σ)) s₃ :=
    (brings_loadScalar hk hs.labels ho (fun hg => ⟨hv hg, Session.plain_of_slotType hT hkind level⟩) hload).trans
      ((brings_push hone).trans (brings_operator hy hop))
  have hstored := brings_store (g := g) (μ := μ) (σ := σ) (v := .scalar y) (Nat.le_trans hk hfront.locals) hspares₃.fit.labels
    (fun l hl => Nat.lt_of_lt_of_le (ho l hl) (Nat.le_trans hk hfront.locals)) hT₃ (fun hg => ⟨_, hv hg⟩)
    (fun _ _ => Heap.shows_scalar (Ty.isArray_of_storedAs hkind) y) hstore
  rw [hkind, Value.fit_scalar, hfit] at hstored
  exact hfront.trans (hstored.trans (brings_delivered s₄))

/-- Steps up and down **count** a slot. -/
theorem Takes.counts {cs : List Count} {o : Operand} {x : Word} (hs : s.Fit) (hk : k ≤ s.locals.size) (ho : o.Below k)
    (hT : s.slotType? o = some T) (hkind : T.storedAs? = some (.word x.kind))
    (hv : g → μ.operand? o = some (.scalar x.scalar)) (h : Takes level (Count.calls cs o) s s') :
    s.Brings g (μ.At k σ) ((μ.put o (.scalar (.wrap x.kind (x.value + Count.total cs)))).At k σ) s' := by
  -- behind each step the others count from the machine that it left
  induction cs generalizing s x μ with
  | nil =>
    cases h
    refine ((Session.Tells.refl _).brings (μ := μ) (k := k) (σ := σ)).imp (fun _ _ _ hm => hm) fun hg m _ hm => ?_
    have hsame : μ.put o (.scalar (.wrap x.kind (x.value + 0))) = μ := by
      rw [Int.add_zero, Word.value, Scalar.wrap_wordValue]
      exact Machine.put_self (hv hg)
    exact hsame.symm ▸ hm
  | cons c cs ih =>
    obtain ⟨s₁, hone, hrest⟩ := Takes.uncons h
    have hfirst := Takes.counts_one (σ := σ) hs hk ho hT hkind hv hone
    obtain ⟨a, s₂, hrun, rfl⟩ := hone.one
    have hspares := (Operation.sparing_perform (o := c.operation o) (by cases c <;> rfl)).spares hs hrun
    have hspared := hspares.grows.trans (Session.spares_delivered hspares.fit).grows
    have hnext := ih (x := .ofInt x.kind (x.value + c.offset)) (Session.spares_delivered hspares.fit).fit
      (Nat.le_trans hk hfirst.locals) ((Session.slotType?_grows hspared o).trans hT) hkind
      (fun hg => Machine.operand?_put (Session.ne_constant_of_slotType hT) (hv hg)) hrest
    have hsum : Scalar.wrap x.kind ((Word.ofInt x.kind (x.value + c.offset)).value + Count.total cs) =
        .wrap x.kind (x.value + Count.total (c :: cs)) := by
      rw [Count.total_cons, ← Int.add_assoc]
      exact Scalar.wrap_eq_wrap_iff.2 ((Word.value_ofInt_modEq (Nat.le_refl _) _).add_right _)
    rw [Machine.put_put] at hnext
    exact hsum ▸ hfirst.trans hnext

/-- What calls of a client bring about on a machine that the procedure has room on. -/
theorem crosses_of_brings {p : Procedure} {f : Session} {m : Machine} {R : Machine → Prop} (hp : p.Fits f) (hgrows : s'.Grows f)
    (hm : p.locals.length ≤ m.frame.locals.size) (h : s.Brings True (m.At k m.frame.stack) R s') :
    ∃ m', p.Crosses s.code.size s'.code.size m m' ∧ R m' := by
  obtain ⟨m', halong, hR⟩ := h.along trivial hp hgrows.extends m (.refl k m)
    (Nat.le_trans hgrows.locals_size (hp.locals ▸ hm))
  exact ⟨m', halong.within fun _ hi => hi, hR⟩

/-- **Calculations wrap.** In every procedure that a client builds, at every level. (1) A calculation over operands that
hold words goes through, and leaves a word of its kind above what was there. No integer on the way is beyond 128 bits,
and the integer of the word is congruent to the exact one in as many bits as the narrowest kind on the way has. (2) When it is
stored into a slot of a kind of words, the slot has a word that is congruent to the exact integer in as many bits, as far
as the slot has them. (3) Steps up and down, however many and in which order, count a slot of a kind of words
modulo its width, and those that cancel leave it as it was. Nothing else changes but locals that the code declared
itself and boxes. -/
theorem calculations_wrap (number : Nat) (name : String) (signature : Signature) (sink : Sink) (level : TraceDetail)
    (cs cs' : List Call) (b : Builder) (hb : (begin number name signature sink level).builder.after cs = b) :
    (∀ (c : Calculation Operand) (p : Procedure),
      (∀ call ∈ cs ++ (c.calls ++ cs'), ∀ l ∈ call.handed, l.Issued) →
      (∀ s, b.state = .building s → ∀ o ∈ c.leaves, ∀ l ∈ o.locals, s.Owns l) →
      (b.after (c.calls ++ cs')).finish.result = .ok p →
      ∀ (m : Machine) (f : Operand → Word), p.locals.length ≤ m.frame.locals.size → c.Reads level m f →
        c.Bounded (fun o => (f o).scalar) ∧
        ∃ (x : Word) (m' : Machine), p.Crosses b.position (b.after c.calls).position m m' ∧
          m'.frame.stack = .scalar x.scalar :: m.frame.stack ∧ (∀ s, b.state = .building s → m.Aside s.locals.size m') ∧
          c.kind (fun o => .word (f o).kind) = .word x.kind ∧ x.kind.Spans x.value ∧
          ∀ n : Nat, (∀ w ∈ c.widths (fun o => .word (f o).kind), n ≤ w) →
            x.value ≡ c.exact (fun o => (f o).value) [ZMOD 2 ^ n]) ∧
    (∀ (c : Calculation Operand) (t : Operand) (T : Ty) (k : WordKind) (p : Procedure),
      (∀ call ∈ cs ++ (c.calls ++ [.perform (.store t)] ++ cs'), ∀ l ∈ call.handed, l.Issued) →
      (∀ s, b.state = .building s → s.slotType? t = some T ∧ ∀ o ∈ t :: c.leaves, ∀ l ∈ o.locals, s.Owns l) →
      T.storedAs? = some (.word k) →
      (b.after (c.calls ++ [.perform (.store t)] ++ cs')).finish.result = .ok p →
      ∀ (m : Machine) (f : Operand → Word) (w : Value), p.locals.length ≤ m.frame.locals.size → c.Reads level m f →
        m.operand? t = some w →
        ∃ (y : BitVec k.bits) (m' : Machine),
          p.Crosses b.position (b.after (c.calls ++ [.perform (.store t)])).position m m' ∧
          m'.operand? t = some (.scalar (.word k y)) ∧
          (∀ s, b.state = .building s → (m.put t (.scalar (.word k y))).Interlude s.locals.size m') ∧
          ∀ n ≤ k.bits, (∀ w ∈ c.widths (fun o => .word (f o).kind), n ≤ w) →
            Scalar.wordValue k y ≡ c.exact (fun o => (f o).value) [ZMOD 2 ^ n]) ∧
    ∀ (ds : List Count) (t : Operand) (T : Ty) (k : WordKind) (p : Procedure),
      (∀ call ∈ cs ++ (Count.calls ds t ++ cs'), ∀ l ∈ call.handed, l.Issued) →
      (∀ s, b.state = .building s → s.slotType? t = some T ∧ ∀ l ∈ t.locals, s.Owns l) → T.storedAs? = some (.word k) →
      (b.after (Count.calls ds t ++ cs')).finish.result = .ok p →
      ∀ (m : Machine) (v : BitVec k.bits), p.locals.length ≤ m.frame.locals.size →
        m.operand? t = some (.scalar (.word k v)) →
        ∃ (y : BitVec k.bits) (m' : Machine), p.Crosses b.position (b.after (Count.calls ds t)).position m m' ∧
          m'.operand? t = some (.scalar (.word k y)) ∧
          (∀ s, b.state = .building s → (m.put t (.scalar (.word k y))).Interlude s.locals.size m') ∧
          Scalar.wordValue k y ≡ Scalar.wordValue k v + Count.total ds [ZMOD 2 ^ k.bits] ∧
          (Count.total ds = 0 → y = v) := by
  refine ⟨fun c p hissued howns hp m f hm hreads => ?_, fun c t T k p hissued hslot hkind hp m f w hm hreads hw => ?_,
    fun ds t T k p hissued hslot hkind hp m v hm hv => ?_⟩
  · -- a calculation
    obtain ⟨sink', s, s', F, rfl, hsound, htakes, -, hgrows, hfits, -⟩ := takes_around hb hissued hp
    obtain ⟨x, hx, hkind, hvalue⟩ := c.evaluate_words f
    have hbrings := htakes.calculates (g := True) (σ := m.frame.stack) (Nat.le_refl _) hsound.inner.labels
      (fun o ho => Operand.below_of_owns (howns s rfl o ho)) (fun _ => hreads) hx
    obtain ⟨m', hcrosses, hm'⟩ := crosses_of_brings hfits hgrows hm hbrings
    rw [htakes.taking sink']
    refine ⟨c.bounded_words f, x, m', hcrosses, hm'.stack, ?_, hkind, Scalar.spans_wordValue _ _, hvalue⟩
    rintro _ ⟨⟩
    exact hm'.aside
  · -- a calculation that is stored
    obtain ⟨sink', s, s', F, rfl, hsound, htakes, -, hgrows, hfits, hinside⟩ := takes_around hb hissued hp
    obtain ⟨hT, howns⟩ := hslot s rfl
    obtain ⟨htarget, hleaves⟩ := List.forall_mem_cons.1 howns
    obtain ⟨s₁, hcalc, hstore⟩ := htakes.split
    obtain ⟨s₂, hrun, rfl⟩ := hstore.done rfl
    obtain ⟨x, hx, -, hvalue⟩ := c.evaluate_words f
    have hbelow : t.Below s.locals.size := Operand.below_of_owns htarget
    have hgrown := hcalc.grows hsound.inner fun call hcall => hinside call (List.mem_append_left _ hcall)
    have hfirst := hcalc.calculates (g := True) (σ := m.frame.stack) (Nat.le_refl _) hsound.inner.labels
      (fun o ho => Operand.below_of_owns (hleaves o ho)) (fun _ => hreads) hx
    have hlast := brings_store (g := True) (μ := m) (k := s.locals.size) (σ := m.frame.stack) (v := .scalar x.scalar)
      hfirst.locals (Nat.lt_of_lt_of_le hsound.inner.labels hfirst.labels)
      (fun l hl => Nat.lt_of_lt_of_le (hbelow l hl) hfirst.locals) ((Session.slotType?_grows hgrown t).trans hT)
      (fun _ => ⟨w, hw⟩) (fun _ _ => Heap.shows_scalar (Ty.isArray_of_storedAs hkind) _) hrun
    rw [hkind, Value.fit_scalar, Word.scalar, Scalar.convert_word] at hlast
    obtain ⟨m', hcrosses, hm'⟩ := crosses_of_brings hfits hgrows hm (hfirst.trans (hlast.trans (brings_delivered s₂)))
    rw [htakes.taking sink']
    refine ⟨Scalar.lowBits k.bits x.value, m', hcrosses, ?_, ?_, fun n hn hwidth => ?_⟩
    · exact (hm'.aside.operand hbelow).trans (Machine.operand?_put (Session.ne_constant_of_slotType hT) hw)
    · rintro _ ⟨⟩
      exact ⟨hm'.aside, by rw [hm'.stack]; cases t <;> rfl⟩
    · exact (Word.value_ofInt_modEq (k := k) hn x.value).trans (hvalue n hwidth)
  · -- a count
    obtain ⟨sink', s, s', F, rfl, hsound, htakes, -, hgrows, hfits, -⟩ := takes_around hb hissued hp
    obtain ⟨hT, howns⟩ := hslot s rfl
    have hfit : s.Fit := fit_of_after (by rw [hb]; rfl)
    have hbelow : t.Below s.locals.size := Operand.below_of_owns howns
    have hbrings := htakes.counts (g := True) (x := ⟨k, v⟩) (σ := m.frame.stack) hfit (Nat.le_refl _) hbelow hT hkind
      (fun _ => hv)
    obtain ⟨m', hcrosses, hm'⟩ := crosses_of_brings hfits hgrows hm hbrings
    rw [htakes.taking sink']
    refine ⟨Scalar.lowBits k.bits (Scalar.wordValue k v + Count.total ds), m', hcrosses, ?_, ?_,
      Scalar.wordValue_lowBits_modEq k _, fun hzero => ?_⟩
    · exact (hm'.aside.operand hbelow).trans (Machine.operand?_put (Session.ne_constant_of_slotType hT) hv)
    · rintro _ ⟨⟩
      exact ⟨hm'.aside, by rw [hm'.stack]; cases t <;> rfl⟩
    · have hsame : Scalar.wrap k (Scalar.wordValue k v + Count.total ds) = .word k v := by
        rw [hzero, Int.add_zero, Scalar.wrap_wordValue]
      injection hsame

/-- A builder for a procedure with a signed byte as its argument. -/
def calculating : Builder := (begin 1 "f" ⟨[.primitive .i8], none⟩ .log .off).builder

/-- The argument. -/
def signedByte : Operand := .argument ⟨0, .primitive .i8⟩

/-- All bits of one less than the argument are negated. -/
def flipped : Calculation Operand :=
  .complement (.combine .sub (.leaf signedByte) (.leaf (.constant (.scalar (.wrap .i64 1)))))

/-- The words that the leaves hold on a machine with the least byte. -/
def leastByte : Operand → Word
  | .argument _ => .ofInt .i8 (-128)
  | _ => .ofInt .i64 1

/-- A machine with the least byte as its argument. -/
def atLeast : Machine := ⟨⟨#[.scalar (.wrap .i8 (-128))], #[], []⟩, {}⟩

/-- A procedure over a signed byte. -/
def ofByte (ops : List Op) : Procedure where
  name := "f"
  signature := ⟨[.primitive .i8], none⟩
  locals := []
  code := (ops.map Instruction.op ++ [Instruction.ret]).toArray

/-- What the calculation records. -/
def flippedOps : List Op := [.loadArg 0, .push (.scalar (.wrap .i64 1)), .sub, .not]

theorem finish_flipped : (calculating.after (flipped.calls ++ [])).finish.result = .ok (ofByte flippedOps) := by
  with_unfolding_all rfl

theorem finish_stored : (calculating.after (flipped.calls ++ [.perform (.store signedByte)] ++ [])).finish.result =
    .ok (ofByte (flippedOps ++ [.storeArg 0 (some .i8)])) := by
  with_unfolding_all rfl

/-- What a step down and a step up record. -/
def steppedOps : List Op :=
  [.loadArg 0, .push (.ofInt32 1), .sub, .storeArg 0 (some .i8), .loadArg 0, .push (.ofInt32 1), .add, .storeArg 0 (some .i8)]

theorem finish_stepped : (calculating.after (Count.calls [.down, .up] signedByte ++ [])).finish.result =
    .ok (ofByte steppedOps) := by
  with_unfolding_all rfl

/-- The leaves hold the least byte and one, and none of them is a local. -/
theorem leaves_flipped : flipped.Reads .off atLeast leastByte ∧ ∀ o ∈ flipped.leaves, o.locals = [] := by
  have hleaves : ∀ o ∈ flipped.leaves, o = signedByte ∨ o = .constant (.scalar (.wrap .i64 1)) := by
    simp [flipped, Calculation.leaves]
  constructor
  · intro o ho
    rcases hleaves o ho with rfl | rfl <;> exact ⟨rfl, fun h => by cases h⟩
  · intro o ho
    rcases hleaves o ho with rfl | rfl <;> rfl

/-- The argument is a slot for bytes, and none of the operands is a local. -/
theorem slots_flipped (s : Session) (hs : calculating.state = .building s) :
    s.slotType? signedByte = some (.primitive .i8) ∧ ∀ o ∈ signedByte :: flipped.leaves, ∀ l ∈ o.locals, s.Owns l := by
  refine ⟨?_, fun o ho l hl => ?_⟩
  · cases hs
    rfl
  · have hlocals : ∀ o ∈ signedByte :: flipped.leaves, o.locals = [] := List.forall_mem_cons.2 ⟨rfl, leaves_flipped.2⟩
    rw [hlocals o ho] at hl
    cases hl

/-- The least byte is taken one further than bytes go, in a wider kind; stored back it is the least byte again, and
counted down and up it is, too. -/
theorem calculations_wrap_least :
    (∃ m', (ofByte flippedOps).Crosses 0 4 atLeast m' ∧ m'.frame.stack = [.scalar (.wrap .i64 128)]) ∧
    (∃ m', (ofByte (flippedOps ++ [.storeArg 0 (some .i8)])).Crosses 0 5 atLeast m' ∧
      m'.frame.args[0]? = some (.scalar (.wrap .i8 (-128)))) ∧
    ∃ m', (ofByte steppedOps).Crosses 0 8 atLeast m' ∧ m'.frame.args[0]? = some (.scalar (.wrap .i8 (-128))) := by
  obtain ⟨hleave, hstore, hcount⟩ := calculations_wrap 1 "f" ⟨[.primitive .i8], none⟩ .log .off [] [] calculating rfl
  obtain ⟨hreads, -⟩ := leaves_flipped
  refine ⟨?_, ?_, ?_⟩
  · obtain ⟨-, x, m', hcrosses, hstack, -, hkind, -, hvalue⟩ := hleave flipped (ofByte flippedOps)
      (by simp [flipped, Calculation.calls, Operator.operation, Call.handed, Operation.handed])
      (fun s hs => (List.forall_mem_cons.1 (slots_flipped s hs).2).2) finish_flipped atLeast leastByte (Nat.le_refl 0) hreads
    obtain ⟨k, v⟩ := x
    cases hkind
    have hword : Scalar.word .i64 v = .wrap .i64 128 := (Scalar.word_eq_wrap_iff v).2 (hvalue 64 (by decide))
    exact ⟨m', hcrosses, hword ▸ hstack⟩
  · obtain ⟨y, m', hcrosses, hslot, -, hvalue⟩ := hstore flipped signedByte _ .i8 _
      (by simp [flipped, Calculation.calls, Operator.operation, Call.handed, Operation.handed]) slots_flipped rfl
      finish_stored atLeast leastByte _ (Nat.le_refl 0) hreads rfl
    have hexact : Scalar.wordValue .i8 y ≡ 128 [ZMOD 2 ^ 8] := hvalue 8 (Nat.le_refl 8) (by decide)
    have hword : Scalar.word .i8 y = .wrap .i8 (-128) := (Scalar.word_eq_wrap_iff y).2 (hexact.trans (by decide))
    exact ⟨m', hcrosses, hword ▸ hslot⟩
  · obtain ⟨y, m', hcrosses, hslot, -, -, hsame⟩ := hcount [.down, .up] signedByte _ .i8 _
      (by simp [Count.calls, Count.operation, Call.handed, Operation.handed])
      (fun s hs => ⟨(slots_flipped s hs).1, (List.forall_mem_cons.1 (slots_flipped s hs).2).1⟩) rfl finish_stepped atLeast
      (Scalar.lowBits 8 (-128)) (Nat.le_refl 0) rfl
    obtain rfl := hsame rfl
    exact ⟨m', hcrosses, hslot⟩

end Builder

end Stackwright
