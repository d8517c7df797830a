import Mathlib.Algebra.Order.Field.Power
import Mathlib.Data.Rat.Floor
import Mathlib.Order.WithBotTop
import Stackwright.Proofs.Scalar.Widening
import Stackwright.Proofs.Scalar.Wrapping

/-! # Saturation

A float stands for a rational number or for an infinity. The integer that it is converted to is what is left of
the rational number when the rest is cut off toward zero, and the bounds of 128 bits stand for what is beyond them.
A word of a kind has fewer bits: it wraps what was clamped to 128, so it is clamped to the bounds of its kind only
where that makes no difference.

* **`Binary.value?`** — what a float stands for; widening it keeps that (`Scalar.value_widen`).
* **`Binary.saturate lo hi x`** — a value cut off and clamped.
* **`Scalar.convert_float`** — a conversion of a float to a kind of words.
* **`Scalar.saturated_eq_iff`** — the values that are clamped to the bounds of the kind. -/

namespace Stackwright

namespace Binary

variable {x y : WithBotTop ℚ} {q r : ℚ} {lo hi : ℤ}

/-- What a float **stands for**: a rational number or an infinity, unless it is not a number. -/
def value? : Binary → Option (WithBotTop ℚ)
  | .nan => none
  | .infinite negative => some (if negative then ⊥ else ⊤)
  | .finite negative mantissa exponent =>
    let magnitude : ℚ := mantissa * 2 ^ exponent
    some ((if negative then -magnitude else magnitude : ℚ) : WithBotTop ℚ)

/-- The integer that is left of a rational number when the rest is cut off, **toward zero**. -/
def cut (q : ℚ) : ℤ := if q < 0 then ⌈q⌉ else ⌊q⌋

/-- What is left of a value between two bounds, which stand for what is beyond them. -/
def saturate (lo hi : ℤ) : WithBotTop ℚ → ℤ
  | ⊥ => lo
  | ⊤ => hi
  | (q : ℚ) => max lo (min hi (cut q))

/-! ## (1) Cutting off -/

theorem cut_of_nonneg (h : 0 ≤ q) : cut q = ⌊q⌋ := if_neg (not_lt.2 h)

theorem cut_neg_of_nonneg (h : 0 ≤ q) : cut (-q) = -⌊q⌋ := by
  rcases h.eq_or_lt with rfl | hpos
  · rw [neg_zero, cut_of_nonneg le_rfl, Int.floor_zero, neg_zero]
  · rw [cut, if_pos (neg_lt_zero.2 hpos), Int.ceil_neg]

/-- Cutting off keeps the order. -/
theorem cut_mono (h : q ≤ r) : cut q ≤ cut r := by
  rcases lt_or_ge q 0 with hq | hq
  · rw [cut, if_pos hq]
    rcases lt_or_ge r 0 with hr | hr
    · rw [cut, if_pos hr]
      exact Int.ceil_mono h
    · calc ⌈q⌉ ≤ 0 := Int.ceil_le.2 (by simpa using hq.le)
        _ ≤ ⌊r⌋ := Int.floor_nonneg.2 hr
        _ = cut r := (cut_of_nonneg hr).symm
  · rw [cut_of_nonneg hq, cut_of_nonneg (hq.trans h)]
    exact Int.floor_mono h

/-- The integer part of a finite float is what is left of its rational number. -/
theorem truncate_eq_cut (negative : Bool) (mantissa : Nat) (exponent : Int) :
    truncate negative mantissa exponent =
      cut (if negative then -(mantissa * 2 ^ exponent) else mantissa * 2 ^ exponent) := by
  have hfloor : ((if 0 ≤ exponent then mantissa <<< exponent.toNat else mantissa >>> (-exponent).toNat : Nat) : Int) =
      ⌊(mantissa * 2 ^ exponent : ℚ)⌋ := by
    by_cases h : 0 ≤ exponent
    · obtain ⟨n, rfl⟩ := Int.eq_ofNat_of_zero_le h
      have hwhole : (mantissa * 2 ^ (n : Int) : ℚ) = ((mantissa <<< n : Nat) : ℚ) := by
        rw [Nat.shiftLeft_eq]
        push_cast
        rw [zpow_natCast]
      rw [if_pos h, hwhole, Int.floor_natCast]
      rfl
    · obtain ⟨n, hn⟩ := Int.eq_ofNat_of_zero_le (show 0 ≤ -exponent by omega)
      obtain rfl : exponent = -n := by omega
      have hquotient : (mantissa * 2 ^ (-n : Int) : ℚ) = mantissa / ((2 ^ n : Nat) : ℚ) := by
        rw [zpow_neg, zpow_natCast, div_eq_mul_inv]
        push_cast
        rfl
      rw [if_neg h, hquotient, Rat.floor_natCast_div_natCast, Nat.shiftRight_eq_div_pow, neg_neg, Int.toNat_natCast]
      exact Int.natCast_div _ _
  have hpos : (0 : ℚ) ≤ mantissa * 2 ^ exponent := by positivity
  cases negative with
  | true => exact (congrArg Neg.neg hfloor).trans (cut_neg_of_nonneg hpos).symm
  | false => exact hfloor.trans (cut_of_nonneg hpos).symm

/-! ## (2) Clamping -/

/-- What is clamped is between the bounds. -/
theorem saturate_mem (h : lo ≤ hi) (x : WithBotTop ℚ) : lo ≤ saturate lo hi x ∧ saturate lo hi x ≤ hi := by
  induction x using WithBotTop.rec with
  | bot => exact ⟨le_rfl, h⟩
  | top => exact ⟨h, le_rfl⟩
  | coe q => exact ⟨le_max_left _ _, max_le h (min_le_left _ _)⟩

/-- Clamping keeps the order. -/
theorem saturate_mono (h : lo ≤ hi) (hxy : x ≤ y) : saturate lo hi x ≤ saturate lo hi y := by
  induction x using WithBotTop.rec with
  | bot => exact (saturate_mem h y).1
  | top =>
    obtain rfl : y = ⊤ := top_le_iff.1 hxy
    exact le_rfl
  | coe q =>
    induction y using WithBotTop.rec with
    | bot => exact absurd (le_bot_iff.1 hxy) (WithBotTop.coe_ne_bot q)
    | top => exact (saturate_mem h _).2
    | coe r => exact max_le_max_left _ (min_le_min_left _ (cut_mono (WithBotTop.coe_le_coe.1 hxy)))

/-- What is between the bounds is kept. -/
theorem saturate_of_mem (hlo : lo ≤ cut q) (hhi : cut q ≤ hi) : saturate lo hi q = cut q := by
  show max lo (min hi (cut q)) = cut q
  rw [min_eq_right hhi, max_eq_right hlo]

/-- The integer of a float is what is left of its value within 128 bits. -/
theorem clamp_eq_saturate {b : Binary} (h : b.value? = some x) :
    Number.clamp b = saturate Number.minInteger Number.maxInteger x := by
  cases b with
  | nan => cases h
  | infinite negative => cases negative <;> cases h <;> rfl
  | finite negative mantissa exponent =>
    cases h
    rw [Number.clamp, truncate_eq_cut]
    rfl

end Binary

namespace Scalar

/-- **Widening** a float keeps what it stands for. -/
theorem value_widen (φ : FloatKind) (v : BitVec φ.bits) :
    (FloatKind.double.decode (widen φ v)).value? = (φ.decode v).value? := by
  cases φ with
  | double => rfl
  | single =>
    show (FloatKind.double.decode (FloatKind.double.encode (FloatKind.single.decode v))).value? = _
    by_cases hnan : FloatKind.single.decode v = .nan
    · have hquiet : FloatKind.double.decode (FloatKind.double.encode .nan) = .nan := by decide
      rw [hnan, hquiet]
    rcases FloatKind.decode_single v hnan with ⟨hdecode, -⟩ | ⟨mantissa, exponent, hdecode, hmantissa, hexponent, -⟩
    · rw [hdecode, FloatKind.decode_encode_infinite]
    rw [hdecode]
    by_cases h0 : mantissa = 0
    · subst h0
      rw [FloatKind.decode_encode_zero]
      simp only [Binary.value?, Nat.cast_zero, zero_mul]
    · have hlog := (FloatKind.shifted_mantissa h0 hmantissa).1
      have hsame : (((mantissa * 2 ^ (52 - mantissa.log2) : Nat) : ℚ) * 2 ^ ((exponent : Int) - 149 + mantissa.log2 - 52)) =
          mantissa * 2 ^ ((exponent : Int) - 149) := by
        have hexponents : ((exponent : Int) - 149) =
            (52 - mantissa.log2 : Nat) + ((exponent : Int) - 149 + mantissa.log2 - 52) := by
          omega
        rw [hexponents, zpow_add₀ (by norm_num), zpow_natCast, ← hexponents]
        push_cast
        ring
      rw [FloatKind.decode_encode_finite _ h0 hmantissa hexponent, Binary.value?, Binary.value?, hsame]

variable {φ : FloatKind} {v : BitVec φ.bits} {k : WordKind} {x y : WithBotTop ℚ} {q : ℚ}

/-- The integer of a float is what is left of its value within 128 bits, and zero if it is not a number. -/
theorem toInteger_float (φ : FloatKind) (v : BitVec φ.bits) :
    (Scalar.float φ v).toNumber.toInteger =
      ((φ.decode v).value?.map (Binary.saturate Number.minInteger Number.maxInteger)).getD 0 := by
  show Number.clamp (FloatKind.double.decode (widen φ v)) = _
  rw [← value_widen φ v]
  cases h : FloatKind.double.decode (widen φ v) with
  | nan => rfl
  | infinite negative => exact Binary.clamp_eq_saturate (b := .infinite negative) rfl
  | finite negative m e => exact Binary.clamp_eq_saturate (b := .finite negative m e) rfl

/-- A float is **converted** to the word that this integer wraps to. -/
theorem convert_float (h : (φ.decode v).value? = some x) (k : WordKind) :
    (Scalar.float φ v).convert (.word k) = wrap k (Binary.saturate Number.minInteger Number.maxInteger x) := by
  rw [convert_eq, ofNumber, toInteger_float, h]
  rfl

/-- What is not a number is converted to zero. -/
theorem convert_nan (h : (φ.decode v).value? = none) (k : WordKind) : (Scalar.float φ v).convert (.word k) = wrap k 0 := by
  rw [convert_eq, ofNumber, toInteger_float, h]
  rfl

/-! ## (3) The bounds of a kind -/

/-- The bounds of a kind are within 128 bits. -/
theorem bounds_mem (k : WordKind) :
    Number.minInteger ≤ k.least ∧ k.least ≤ k.greatest ∧ k.greatest ≤ Number.maxInteger := by
  cases k <;> decide

/-- The word of what is left within 128 bits. -/
def saturated (k : WordKind) (x : WithBotTop ℚ) : Int :=
  wordValue k (lowBits k.bits (Binary.saturate Number.minInteger Number.maxInteger x))

/-- A value **clamps** to a kind: what is left of it within the bounds of the kind is congruent to what is left within
128 bits. -/
def Clamps (k : WordKind) (x : WithBotTop ℚ) : Prop :=
  Binary.saturate Number.minInteger Number.maxInteger x ≡ Binary.saturate k.least k.greatest x [ZMOD 2 ^ k.bits]

/-- These are the values that are clamped to the bounds of the kind. -/
theorem saturated_eq_iff : saturated k x = Binary.saturate k.least k.greatest x ↔ Clamps k x := by
  have hspans : k.Spans (Binary.saturate k.least k.greatest x) := Binary.saturate_mem (bounds_mem k).2.1 x
  constructor
  · intro h
    rw [Clamps, ← h]
    exact (wordValue_lowBits_modEq k _).symm
  · intro h
    have hword : lowBits k.bits (Binary.saturate Number.minInteger Number.maxInteger x) =
        lowBits k.bits (Binary.saturate k.least k.greatest x) := by
      rw [lowBits_eq, lowBits_eq, ofInt_eq_ofInt_iff]
      exact h
    rw [saturated, hword, wordValue_lowBits hspans]

/-- A rational number whose integer the kind has is cut off. -/
theorem saturated_of_spans (h : k.Spans (Binary.cut q)) : saturated k q = Binary.cut q := by
  obtain ⟨hmin, -, hmax⟩ := bounds_mem k
  rw [saturated, Binary.saturate_of_mem (hmin.trans h.1) (h.2.trans hmax), wordValue_lowBits h]

/-- The greatest integer of 128 bits has the greatest word of an unsigned kind, and minus one of a signed kind. -/
theorem saturated_top (k : WordKind) : saturated k ⊤ = if k.signed then -1 else k.greatest := by
  cases k <;> decide

/-- The least integer of 128 bits has the word zero. -/
theorem saturated_bot (k : WordKind) : saturated k ⊥ = 0 := by
  cases k <;> decide

/-- Values that clamp to a kind keep their order. -/
theorem saturated_mono (hxy : x ≤ y) (hx : Clamps k x) (hy : Clamps k y) : saturated k x ≤ saturated k y := by
  rw [saturated_eq_iff.2 hx, saturated_eq_iff.2 hy]
  exact Binary.saturate_mono (bounds_mem k).2.1 hxy

end Scalar

end Stackwright
