import Stackwright.Machine.Arithmetic
import Stackwright.Proofs.Machine.Comparing
import Stackwright.Proofs.Slots.Kinds

/-! # Words as integers

A word of a kind stands for each integer between the least and the greatest of the kind. Comparisons of words
are those of the integers, whatever the two kinds; and a sum that is stored back into the kind of one operand
is the sum of the integers, as long as the kind has it.

* **`WordKind.Spans k z`** — an integer is in the range of a kind.
* **`Host.holds_words`**, **`Scalar.convert_add_one`** — comparing and counting. -/

namespace Stackwright

/-- An integer is **in the range** of a kind. -/
def WordKind.Spans (k : WordKind) (z : Int) : Prop := k.least ≤ z ∧ z ≤ k.greatest

instance (k : WordKind) (z : Int) : Decidable (k.Spans z) := inferInstanceAs (Decidable (_ ∧ _))

namespace Scalar

variable {k : WordKind} {z : Int}

/-- The integer of a word is in the range of its kind. -/
theorem spans_wordValue (k : WordKind) (v : BitVec k.bits) : k.Spans (wordValue k v) := by
  obtain ⟨z, hz, hleast, hgreatest⟩ := (Scalar.word k v).spans
  cases hz
  exact ⟨hleast, hgreatest⟩

/-- An integer in the range of a kind is that of its word. -/
theorem wordValue_lowBits (h : k.Spans z) : wordValue k (lowBits k.bits z) = z := by
  obtain ⟨hleast, hgreatest⟩ := h
  rw [wordValue_eq, lowBits_eq]
  cases k <;>
    simp only [WordKind.least, WordKind.greatest, WordKind.signed, WordKind.bits, if_true, if_false,
      Bool.false_eq_true] at hleast hgreatest ⊢ <;>
    first
    | (rw [BitVec.toInt_ofInt, Int.bmod_def]; omega)
    | (rw [BitVec.toNat_ofInt]; omega)

/-- The integer of a wrapped word differs by whole turns. -/
theorem wordValue_lowBits_emod (j : WordKind) (z : Int) :
    wordValue j (lowBits j.bits z) % (1 <<< j.bits : Nat) = z % (1 <<< j.bits : Nat) := by
  rw [wordValue_eq, lowBits_eq, Nat.one_shiftLeft]
  split
  · rw [BitVec.toInt_ofInt, Int.bmod_emod]
  · have hpos : (0 : Int) < (2 ^ j.bits : Nat) := by exact_mod_cast Nat.two_pow_pos _
    rw [BitVec.toNat_ofInt, Int.toNat_of_nonneg (Int.emod_nonneg _ (Int.ne_of_gt hpos)),
      Int.emod_emod_of_dvd _ (Int.dvd_refl _)]

/-- A word that is wrapped in a wider kind first is the same. -/
theorem wrap_wordValue_lowBits {j : WordKind} (hj : k.bits ≤ j.bits) (z : Int) :
    wrap k (wordValue j (lowBits j.bits z)) = wrap k z := by
  have hdvd : ((2 ^ k.bits : Nat) : Int) ∣ (2 ^ j.bits : Nat) := by
    exact_mod_cast Nat.pow_dvd_pow 2 hj
  have hmod : wordValue j (lowBits j.bits z) % (2 ^ k.bits : Nat) = z % (2 ^ k.bits : Nat) := by
    have hsame := wordValue_lowBits_emod j z
    rw [Nat.one_shiftLeft] at hsame
    rw [← Int.emod_emod_of_dvd _ hdvd, hsame, Int.emod_emod_of_dvd _ hdvd]
  have hword : BitVec.ofInt k.bits (wordValue j (lowBits j.bits z)) = BitVec.ofInt k.bits z := by
    apply BitVec.eq_of_toNat_eq
    rw [BitVec.toNat_ofInt, BitVec.toNat_ofInt, hmod]
  rw [wrap, wrap, lowBits_eq k.bits, lowBits_eq k.bits, hword]

/-- The kind of a sum with a 32-bit integer is no narrower. -/
theorem join_i32 (k : WordKind) : ∃ j : WordKind, ScalarKind.join (.word k) .i32 = .word j ∧ k.bits ≤ j.bits := by
  cases k <;> exact ⟨_, rfl, by decide⟩

/-- **Counting up.** One more, stored back into the kind. -/
theorem convert_add_one (k : WordKind) (v : BitVec k.bits) :
    (add (.word k v) (i32 1)).convert (.word k) = wrap k (wordValue k v + 1) := by
  obtain ⟨j, hj, hbits⟩ := join_i32 k
  have hsum : add (.word k v) (i32 1) = wrap j (wordValue k v + 1) := by
    have hkind : (Scalar.word k v).kind.join (i32 1).kind = .word j := hj
    unfold add combine
    simp only [hkind]
    rfl
  rw [hsum, convert_eq]
  exact wrap_wordValue_lowBits hbits _

end Scalar

/-- The index that a word denotes is the integer it stands for, unless that is too large for an index;
then the index is negative. -/
theorem Value.index?_word (k : WordKind) (v : BitVec k.bits) :
    ∃ j, (Value.scalar (.word k v)).index? = some j ∧
      (j = Scalar.wordValue k v ∨ j < 0 ∧ 2 ^ 63 ≤ Scalar.wordValue k v) := by
  obtain ⟨z, hz, hleast, hgreatest⟩ := (Scalar.word k v).spans
  cases hz
  have hwide : -2 ^ 63 ≤ Scalar.wordValue k v ∧ Scalar.wordValue k v < 2 ^ 64 := by
    cases k <;> simp [WordKind.least, WordKind.greatest, WordKind.signed, WordKind.bits] at hleast hgreatest <;>
      omega
  refine ⟨_, rfl, ?_⟩
  rw [BitVec.toInt_ofInt]
  generalize Scalar.wordValue k v = z at hwide ⊢
  rw [Int.bmod_def]
  omega

namespace Host

/-- **Comparing** words is comparing integers. -/
theorem holds_words (c : Comparison) (k k' : WordKind) (v : BitVec k.bits) (v' : BitVec k'.bits) (w : World) :
    (holds c (.scalar (.word k v)) (.scalar (.word k' v'))).run w =
      .ok (c.accepts (compare (Scalar.wordValue k v) (Scalar.wordValue k' v'))) w := by
  have hsame : w.heap.identical (.scalar (.word k v)) (.scalar (.word k' v')) =
      (compare (Scalar.wordValue k v) (Scalar.wordValue k' v')).isEq := by
    show (some (compare (Scalar.wordValue k v) (Scalar.wordValue k' v')) == some .eq) = _
    cases compare (Scalar.wordValue k v) (Scalar.wordValue k' v') <;> rfl
  by_cases hc : c.Orders
  · exact holds_order hc _ _ w
  · rcases Comparison.not_orders.1 hc with rfl | rfl
    · rw [(holds_identity _ _ w).1, hsame]
      rfl
    · rw [(holds_identity _ _ w).2, hsame]
      cases compare (Scalar.wordValue k v) (Scalar.wordValue k' v') <;> rfl

/-- Words that were wrapped from integers in the range of their kinds. -/
theorem holds_wrap (c : Comparison) {k k' : WordKind} {z z' : Int} (hz : k.Spans z) (hz' : k'.Spans z')
    (w : World) :
    (holds c (.scalar (.wrap k z)) (.scalar (.wrap k' z'))).run w = .ok (c.accepts (compare z z')) w := by
  have hholds := holds_words c k k' (Scalar.lowBits k.bits z) (Scalar.lowBits k'.bits z') w
  rwa [Scalar.wordValue_lowBits hz, Scalar.wordValue_lowBits hz'] at hholds

end Host

/-- What a comparison **means** for two integers. -/
def Comparison.Relates : Comparison → Int → Int → Prop
  | .lessThan, a, b => a < b
  | .equalTo, a, b => a = b
  | .lessThanOrEqualTo, a, b => a ≤ b
  | .greaterThan, a, b => b < a
  | .notEqualTo, a, b => a ≠ b
  | .greaterThanOrEqualTo, a, b => b ≤ a

/-- A comparison accepts the order of two integers that it relates. -/
theorem Comparison.accepts_compare {c : Comparison} {a b : Int} :
    c.accepts (compare a b) = true ↔ c.Relates a b := by
  cases c with
  | lessThan => exact Ordering.isLT_iff_eq_lt.trans Int.compare_eq_lt
  | equalTo => exact Ordering.isEq_iff_eq_eq.trans Int.compare_eq_eq
  | lessThanOrEqualTo => exact Int.isLE_compare
  | greaterThan => exact Ordering.isGT_iff_eq_gt.trans Int.compare_eq_gt
  | notEqualTo =>
    show (compare a b).isNe = true ↔ a ≠ b
    rw [Ne, ← Int.compare_eq_eq]
    cases compare a b <;> decide
  | greaterThanOrEqualTo => exact Int.isGE_compare

instance (c : Comparison) (a b : Int) : Decidable (c.Relates a b) := decidable_of_iff _ Comparison.accepts_compare

/-- An integer is less than another if their order says so. -/
theorem Comparison.accepts_lessThan (a b : Int) :
    Comparison.lessThan.accepts (compare a b) = decide (a < b) := by
  rw [Bool.eq_iff_iff, decide_eq_true_iff]
  exact accepts_compare

end Stackwright
