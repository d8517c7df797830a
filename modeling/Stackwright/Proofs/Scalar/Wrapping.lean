import Mathlib.Data.Int.ModEq
import Stackwright.Proofs.Scalar.Words

/-! # Wrapping

A word stands for an integer modulo the power of two that its bits allow, and of all that are congruent it
stands for the one in the range of its kind. So a conversion between kinds of words keeps the integer modulo
the width of the target, and what a wider kind does on the way is not seen afterwards.

* **`Scalar.wrap_eq_wrap_iff`** — two integers wrap to one word exactly when they are congruent.
* **`Scalar.convert_word`** — a conversion of a word.
* **`Value.convertAll_wider`** — a chain of conversions by way of wider kinds. -/

namespace Stackwright

namespace Scalar

variable {k : WordKind} {a b z : Int}

/-- The low bits of an integer are those of another exactly when the two are **congruent**. -/
theorem ofInt_eq_ofInt_iff {n : Nat} : BitVec.ofInt n a = BitVec.ofInt n b ↔ a ≡ b [ZMOD 2 ^ n] := by
  have hcast : ((2 ^ n : Nat) : Int) = 2 ^ n := by norm_cast
  have hpos : (0 : Int) < 2 ^ n := Int.pow_pos (by decide)
  have ha := Int.emod_nonneg a (Int.ne_of_gt hpos)
  have hb := Int.emod_nonneg b (Int.ne_of_gt hpos)
  rw [← BitVec.toNat_inj, BitVec.toNat_ofInt, BitVec.toNat_ofInt, hcast, Int.ModEq]
  omega

/-- Two integers wrap to one word exactly when they are **congruent**. -/
theorem wrap_eq_wrap_iff : wrap k a = wrap k b ↔ a ≡ b [ZMOD 2 ^ k.bits] := by
  rw [← ofInt_eq_ofInt_iff, wrap, wrap, lowBits_eq, lowBits_eq]
  exact ⟨fun h => by injection h, fun h => by rw [h]⟩

/-- A word is that of an integer exactly when its own integer is **congruent** to it. -/
theorem word_eq_wrap_iff (v : BitVec k.bits) : Scalar.word k v = wrap k z ↔ wordValue k v ≡ z [ZMOD 2 ^ k.bits] := by
  rw [← wrap_wordValue, wrap_eq_wrap_iff]

/-- The integer of a wrapped word is congruent to the one that was wrapped. -/
theorem wordValue_lowBits_modEq (k : WordKind) (z : Int) : wordValue k (lowBits k.bits z) ≡ z [ZMOD 2 ^ k.bits] :=
  (word_eq_wrap_iff _).1 rfl

/-- A word is **converted** to the word of its integer. -/
theorem convert_word (j k : WordKind) (v : BitVec j.bits) : (Scalar.word j v).convert (.word k) = wrap k (wordValue j v) :=
  convert_eq _ _

end Scalar

namespace Value

variable {j k : WordKind}

/-- A chain of conversions to kinds of words. -/
def convertAll (x : Value) (ks : List WordKind) : Option Value := ks.foldlM (fun x k => x.convert? (.word k)) x

/-- A chain by way of kinds that are no narrower than the last one is the conversion to the last one. -/
theorem convertAll_wider {ks : List WordKind} (hks : ∀ i ∈ ks, k.bits ≤ i.bits) (v : BitVec j.bits) :
    (Value.scalar (.word j v)).convertAll (ks ++ [k]) = (Value.scalar (.word j v)).convert? (.word k) := by
  induction ks generalizing j with
  | nil => rfl
  | cons i ks ih =>
    obtain ⟨hi, hks⟩ := List.forall_mem_cons.1 hks
    have hfirst : (Value.scalar (.word j v)).convert? (.word i) =
        some (.scalar (.word i (Scalar.lowBits i.bits (Scalar.wordValue j v)))) :=
      congrArg (fun x => some (Value.scalar x)) (Scalar.convert_word j i v)
    calc (Value.scalar (.word j v)).convertAll (i :: ks ++ [k])
        = ((Value.scalar (.word j v)).convert? (.word i)).bind fun x => x.convertAll (ks ++ [k]) := rfl
      _ = (Value.scalar (.word i (Scalar.lowBits i.bits (Scalar.wordValue j v)))).convert? (.word k) := by
        rw [hfirst, Option.bind_some, ih hks]
      _ = (Value.scalar (.word j v)).convert? (.word k) := by
        rw [convert?, convert?, Scalar.convert_word, Scalar.convert_word, Scalar.wrap_wordValue_lowBits hi]

/-- A kind that has every integer of another keeps them: converting there and back changes nothing. -/
theorem convertAll_back (h : ∀ z, j.Spans z → k.Spans z) (v : BitVec j.bits) :
    (Value.scalar (.word j v)).convertAll [k, j] = some (.scalar (.word j v)) := by
  have hvalue := Scalar.wordValue_lowBits (h _ (Scalar.spans_wordValue j v))
  calc (Value.scalar (.word j v)).convertAll [k, j]
      = some (.scalar (((Scalar.word j v).convert (.word k)).convert (.word j))) := rfl
    _ = some (.scalar (.word j v)) := by
      rw [Scalar.convert_word, Scalar.wrap, Scalar.convert_word, hvalue, Scalar.wrap_wordValue]

end Value

end Stackwright
