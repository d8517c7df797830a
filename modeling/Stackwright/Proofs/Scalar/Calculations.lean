import Mathlib.Data.Int.Bitwise
import Stackwright.Proofs.Scalar.Wrapping

/-! # Calculations

A calculation is a tree of sums, differences and bitwise operations over words. Every operation reads its operands as
integers, and wraps what it makes of them to the kind that the kinds of the operands come to. The low bits of what an
operation makes depend on the low bits of its operands alone. So the word that comes out has the low bits of the
integer that the same tree has without any wrapping, as many as the narrowest kind on the way.

* **`Operator.exact`**, **`Operator.onScalars?`** — what an operator makes of integers, and of scalars.
* **`Calculation.widths`** — how many bits a calculation wraps to on the way.
* **`Calculation.evaluate_words`** — a calculation over words.
* **`Calculation.bounded_words`** — no integer on the way is beyond 128 bits. -/

namespace Stackwright

/-- A **word** of some kind. -/
structure Word where
  /-- The kind. -/
  kind : WordKind
  /-- Its bits. -/
  bits : BitVec kind.bits

namespace Word

/-- The scalar that it is. -/
def scalar (x : Word) : Scalar := .word x.kind x.bits

/-- The integer that it stands for. -/
def value (x : Word) : Int := Scalar.wordValue x.kind x.bits

/-- The word of a kind that an integer wraps to. -/
def ofInt (k : WordKind) (z : Int) : Word := ⟨k, Scalar.lowBits k.bits z⟩

/-- It stands for an integer that is congruent. -/
theorem value_ofInt_modEq {n : Nat} {k : WordKind} (hn : n ≤ k.bits) (z : Int) : (ofInt k z).value ≡ z [ZMOD 2 ^ n] :=
  (Scalar.wordValue_lowBits_modEq k z).of_dvd (pow_dvd_pow 2 hn)

/-- All integers of words are small. -/
theorem value_mem (x : Word) : -2 ^ 63 ≤ x.value ∧ x.value < 2 ^ 64 := by
  obtain ⟨k, v⟩ := x
  obtain ⟨hleast, hgreatest⟩ := Scalar.spans_wordValue k v
  have hbounds : -2 ^ 63 ≤ k.least ∧ k.greatest < 2 ^ 64 := by
    cases k <;> decide
  exact ⟨Int.le_trans hbounds.1 hleast, Int.lt_of_le_of_lt hgreatest hbounds.2⟩

end Word

/-- The kind of an operation on two words is one of words. -/
theorem ScalarKind.join_words (j k : WordKind) : ∃ l : WordKind, ScalarKind.join (.word j) (.word k) = .word l := by
  cases j <;> cases k <;> exact ⟨_, rfl⟩

/-- A word is widened to a word. -/
theorem ScalarKind.widened_word (k : WordKind) : ∃ l : WordKind, ScalarKind.widened (.word k) = .word l := by
  cases k <;> exact ⟨_, rfl⟩

/-! ## (1) Low bits -/

/-- A low bit of an integer is one of its bits. -/
theorem Scalar.getLsbD_ofInt {n : Nat} (z : Int) (i : Nat) :
    (BitVec.ofInt n z).getLsbD i = (decide (i < n) && z.testBit i) := by
  cases z with
  | ofNat m => exact BitVec.getLsbD_ofNat n m i
  | negSucc m =>
    rw [BitVec.ofInt_negSucc_eq_not_ofNat, BitVec.getLsbD_not, BitVec.getLsbD_ofNat]
    by_cases hi : i < n
    · simp only [hi, decide_true, Bool.true_and]
      rfl
    · simp only [hi, decide_false, Bool.false_and]

/-- The negation of all bits. -/
theorem Scalar.lnot_eq (z : Int) : Int.lnot z = -z - 1 := by
  cases z with
  | ofNat n =>
    show Int.negSucc n = -(n : Int) - 1
    omega
  | negSucc n =>
    show (n : Int) = -Int.negSucc n - 1
    omega

/-- An **operator** on two integers. -/
inductive Operator
  /-- The sum. -/
  | add
  /-- The difference. -/
  | sub
  /-- The bits that both have. -/
  | and
  /-- The bits that one has. -/
  | or
  deriving DecidableEq

namespace Operator

/-- What it makes of two integers, bit by bit in two's complement. -/
def exact : Operator → Int → Int → Int
  | .add => (· + ·)
  | .sub => (· - ·)
  | .and => Int.land
  | .or => Int.lor

/-- What it makes of low bits. -/
def onBits {n : Nat} : Operator → BitVec n → BitVec n → BitVec n
  | .add => (· + ·)
  | .sub => (· - ·)
  | .and => (· &&& ·)
  | .or => (· ||| ·)

/-- The integer that it makes of those of two scalars, before it wraps. -/
def pending : Operator → Int → Int → Int
  | .add => (· + ·)
  | .sub => (· - ·)
  | .and => Scalar.onBits (· &&& ·)
  | .or => Scalar.onBits (· ||| ·)

/-- What it makes of two scalars. -/
def onScalars? : Operator → Scalar → Scalar → Option Scalar
  | .add, a, b => some (a.add b)
  | .sub, a, b => some (a.sub b)
  | .and, a, b => a.bitwise? (· &&& ·) b
  | .or, a, b => a.bitwise? (· ||| ·) b

variable {x x' y y' : Int} {n : Nat}

/-- Low bits are made of low bits. -/
theorem ofInt_exact (o : Operator) (n : Nat) (x y : Int) :
    BitVec.ofInt n (o.exact x y) = o.onBits (BitVec.ofInt n x) (BitVec.ofInt n y) := by
  cases o with
  | add => exact BitVec.ofInt_add x y
  | sub =>
    show BitVec.ofInt n (x - y) = BitVec.ofInt n x - BitVec.ofInt n y
    rw [Int.sub_eq_add_neg, BitVec.ofInt_add, BitVec.ofInt_neg, BitVec.sub_eq_add_neg]
  | and =>
    refine BitVec.eq_of_getLsbD_eq fun i hi => ?_
    show (BitVec.ofInt n (Int.land x y)).getLsbD i = (BitVec.ofInt n x &&& BitVec.ofInt n y).getLsbD i
    rw [BitVec.getLsbD_and]
    simp only [Scalar.getLsbD_ofInt, Int.testBit_land, hi, decide_true, Bool.true_and]
  | or =>
    refine BitVec.eq_of_getLsbD_eq fun i hi => ?_
    show (BitVec.ofInt n (Int.lor x y)).getLsbD i = (BitVec.ofInt n x ||| BitVec.ofInt n y).getLsbD i
    rw [BitVec.getLsbD_or]
    simp only [Scalar.getLsbD_ofInt, Int.testBit_lor, hi, decide_true, Bool.true_and]

/-- Congruent integers are made of congruent ones. -/
theorem exact_congr (o : Operator) (hx : x ≡ x' [ZMOD 2 ^ n]) (hy : y ≡ y' [ZMOD 2 ^ n]) :
    o.exact x y ≡ o.exact x' y' [ZMOD 2 ^ n] := by
  rw [← Scalar.ofInt_eq_ofInt_iff] at hx hy ⊢
  rw [ofInt_exact, ofInt_exact, hx, hy]

/-- What wraps is congruent to what the operator makes without any bounds. -/
theorem pending_modEq (o : Operator) (x y : Int) : o.pending x y ≡ o.exact x y [ZMOD 2 ^ 128] := by
  have hbits : ∀ b : BitVec 128, BitVec.ofInt 128 b.toInt = b := fun b => BitVec.ofInt_toInt
  rw [← Scalar.ofInt_eq_ofInt_iff, ofInt_exact]
  cases o with
  | add => exact BitVec.ofInt_add x y
  | sub => exact ofInt_exact .sub 128 x y
  | and => exact hbits _
  | or => exact hbits _

/-- An operation on two words wraps to the kind that theirs come to. -/
theorem onScalars_words (o : Operator) {a b : Word} {l : WordKind}
    (hl : ScalarKind.join (.word a.kind) (.word b.kind) = .word l) :
    o.onScalars? a.scalar b.scalar = some (Word.ofInt l (o.pending a.value b.value)).scalar := by
  have hkind : a.scalar.kind.join b.scalar.kind = .word l := hl
  have hcombine : ∀ (f : Int → Int → Int) (g : Number → Number → Number),
      Scalar.combine f g a.scalar b.scalar = .wrap l (f a.value b.value) := by
    intro f g
    unfold Scalar.combine
    simp only [hkind]
    rfl
  have hbitwise : ∀ op : BitVec 128 → BitVec 128 → BitVec 128,
      a.scalar.bitwise? op b.scalar = some (.wrap l (Scalar.onBits op a.value b.value)) := by
    intro op
    show some (Scalar.ofNumber (a.scalar.kind.join b.scalar.kind) _) = _
    rw [hkind]
    rfl
  cases o with
  | add => exact congrArg some (hcombine _ _)
  | sub => exact congrArg some (hcombine _ _)
  | and => exact hbitwise _
  | or => exact hbitwise _

end Operator

/-- The negation of a word wraps to the kind that it is widened to. -/
theorem Word.complement {a : Word} {l : WordKind} (hl : ScalarKind.widened (.word a.kind) = .word l) :
    a.scalar.complement? = some (Word.ofInt l (-a.value - 1)).scalar := by
  show some (Scalar.ofNumber (ScalarKind.widened (.word a.kind)) _) = _
  rw [hl]
  rfl

/-! ## (2) Trees -/

/-- A **calculation**: a tree of operations over some leaves. -/
inductive Calculation (α : Type)
  /-- A leaf. -/
  | leaf (a : α)
  /-- An operation on two calculations. -/
  | combine (o : Operator) (x y : Calculation α)
  /-- The negation of all bits. -/
  | complement (x : Calculation α)

/-- An integer is one of **128 bits**. -/
def Number.Bounds (z : Int) : Prop := Number.minInteger ≤ z ∧ z ≤ Number.maxInteger

namespace Calculation

variable {α : Type}

/-- Its leaves. -/
def leaves : Calculation α → List α
  | leaf a => [a]
  | combine _ x y => x.leaves ++ y.leaves
  | complement x => x.leaves

/-- The integer that it is without any wrapping. -/
def exact (f : α → Int) : Calculation α → Int
  | leaf a => f a
  | combine o x y => o.exact (x.exact f) (y.exact f)
  | complement x => Int.lnot (x.exact f)

/-- The kind of its result. -/
def kind (f : α → ScalarKind) : Calculation α → ScalarKind
  | leaf a => f a
  | combine _ x y => (x.kind f).join (y.kind f)
  | complement x => (x.kind f).widened

/-- The **widths** of the kinds of the results of its operations; of a leaf there are none. -/
def widths (f : α → ScalarKind) : Calculation α → List Nat
  | leaf _ => []
  | combine o x y => ((combine o x y).kind f).bits :: (x.widths f ++ y.widths f)
  | complement x => ((complement x).kind f).bits :: x.widths f

/-- The scalar that it comes to. -/
def evaluate? (f : α → Scalar) : Calculation α → Option Scalar
  | leaf a => some (f a)
  | combine o x y => do o.onScalars? (← x.evaluate? f) (← y.evaluate? f)
  | complement x => do (← x.evaluate? f).complement?

/-- Every integer that one of its operations makes, before it wraps, is one of 128 bits. -/
def Bounded (f : α → Scalar) : Calculation α → Prop
  | leaf _ => True
  | combine o x y => x.Bounded f ∧ y.Bounded f ∧ ∀ a b, x.evaluate? f = some a → y.evaluate? f = some b →
      Number.Bounds (o.pending a.toNumber.toInteger b.toNumber.toInteger)
  | complement x => x.Bounded f ∧ ∀ a, x.evaluate? f = some a → Number.Bounds (-a.toNumber.toInteger - 1)

/-- **A calculation over words** comes to a word of its kind, which stands for an integer that is congruent to the
exact one in as many bits as the least width on the way has. -/
theorem evaluate_words (c : Calculation α) (f : α → Word) :
    ∃ x : Word, c.evaluate? (fun a => (f a).scalar) = some x.scalar ∧ c.kind (fun a => .word (f a).kind) = .word x.kind ∧
      ∀ n : Nat, (∀ w ∈ c.widths (fun a => .word (f a).kind), n ≤ w) →
        x.value ≡ c.exact (fun a => (f a).value) [ZMOD 2 ^ n] := by
  induction c with
  | leaf a => exact ⟨f a, rfl, rfl, fun n _ => rfl⟩
  | combine o x y ihx ihy =>
    obtain ⟨a, hxa, hxkind, hxvalue⟩ := ihx
    obtain ⟨b, hyb, hykind, hyvalue⟩ := ihy
    obtain ⟨l, hl⟩ := ScalarKind.join_words a.kind b.kind
    have hkind : (combine o x y).kind (fun a => .word (f a).kind) = .word l := by
      rw [kind, hxkind, hykind, hl]
    refine ⟨.ofInt l (o.pending a.value b.value), ?_, hkind, fun n hn => ?_⟩
    · rw [evaluate?, hxa, hyb]
      exact o.onScalars_words hl
    · rw [widths, hkind, List.forall_mem_cons, List.forall_mem_append] at hn
      obtain ⟨hbits, hx, hy⟩ := hn
      have hbits : n ≤ l.bits := hbits
      have hwide : l.bits ≤ 128 := by cases l <;> decide
      -- the low bits of the result are made of those of the operands
      calc (Word.ofInt l (o.pending a.value b.value)).value
          ≡ o.pending a.value b.value [ZMOD 2 ^ n] := Word.value_ofInt_modEq hbits _
        _ ≡ o.exact a.value b.value [ZMOD 2 ^ n] :=
          (o.pending_modEq _ _).of_dvd (pow_dvd_pow 2 (hbits.trans hwide))
        _ ≡ (combine o x y).exact (fun a => (f a).value) [ZMOD 2 ^ n] := o.exact_congr (hxvalue n hx) (hyvalue n hy)
  | complement x ih =>
    obtain ⟨a, hxa, hxkind, hxvalue⟩ := ih
    obtain ⟨l, hl⟩ := ScalarKind.widened_word a.kind
    have hkind : (complement x).kind (fun a => .word (f a).kind) = .word l := by
      rw [kind, hxkind, hl]
    refine ⟨.ofInt l (-a.value - 1), ?_, hkind, fun n hn => ?_⟩
    · rw [evaluate?, hxa]
      exact Word.complement hl
    · rw [widths, hkind, List.forall_mem_cons] at hn
      have hbits : n ≤ l.bits := hn.1
      calc (Word.ofInt l (-a.value - 1)).value
          ≡ -a.value - 1 [ZMOD 2 ^ n] := Word.value_ofInt_modEq hbits _
        _ ≡ -x.exact (fun a => (f a).value) - 1 [ZMOD 2 ^ n] := (hxvalue n hn.2).neg.sub_right 1
        _ = (complement x).exact (fun a => (f a).value) := (Scalar.lnot_eq _).symm

/-- **No integer on the way is beyond 128 bits.** -/
theorem bounded_words (c : Calculation α) (f : α → Word) : c.Bounded fun a => (f a).scalar := by
  -- the operands are words, whose integers are small
  have hword : ∀ (x : Calculation α) (s : Scalar), x.evaluate? (fun a => (f a).scalar) = some s →
      ∃ a : Word, s.toNumber.toInteger = a.value := by
    intro x s hs
    obtain ⟨a, ha, -⟩ := x.evaluate_words f
    cases ha.symm.trans hs
    exact ⟨a, rfl⟩
  have hmin : Number.minInteger = -2 ^ 127 := by decide
  have hmax : Number.maxInteger = 2 ^ 127 - 1 := by decide
  induction c with
  | leaf a => trivial
  | combine o x y ihx ihy =>
    refine ⟨ihx, ihy, fun s t hs ht => ?_⟩
    obtain ⟨a, ha⟩ := hword x s hs
    obtain ⟨b, hb⟩ := hword y t ht
    have hsmall := a.value_mem
    have hsmall' := b.value_mem
    have hbits : ∀ v : BitVec 128, Number.Bounds v.toInt := by
      intro v
      have hlow := BitVec.le_toInt v
      have hhigh := BitVec.toInt_lt (x := v)
      constructor <;> omega
    rw [ha, hb]
    cases o with
    | add =>
      show Number.Bounds (a.value + b.value)
      constructor <;> omega
    | sub =>
      show Number.Bounds (a.value - b.value)
      constructor <;> omega
    | and => exact hbits _
    | or => exact hbits _
  | complement x ih =>
    refine ⟨ih, fun s hs => ?_⟩
    obtain ⟨a, ha⟩ := hword x s hs
    have hsmall := a.value_mem
    rw [ha]
    constructor <;> omega

end Calculation

end Stackwright
