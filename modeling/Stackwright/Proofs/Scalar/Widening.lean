import Mathlib.Algebra.Group.Nat.Defs
import Stackwright.Scalar.Basic

/-! # Widening and narrowing

A float of 32 bits is exactly representable in 64: what it stands for is written with its leading bit in
place, and reading that back and rounding it to 32 bits finds the same bits again. So a scalar that is
converted to its own kind is itself, except that a float that is not a number may get another pattern of
its kind.

* **`FloatKind.narrow_widen`** — widening a single and narrowing the double gives the bits back.
* **`Scalar.Agrees x y`** — the same scalar, or two of one float kind that are not numbers.
* **`Scalar.convert_agrees`** — a scalar converted to its own kind agrees with itself. -/

namespace Stackwright

/-- What a shift to the left made can be shifted back without rounding. -/
theorem roundShift_mul (m s : Nat) : roundShift (m * 2 ^ s) s = m := by
  have hquotient : (m * 2 ^ s) >>> s = m := by
    rw [Nat.shiftRight_eq_div_pow]
    exact Nat.mul_div_cancel _ (Nat.two_pow_pos s)
  have hrest : m * 2 ^ s % 2 ^ s = 0 := Nat.mul_mod_left _ _
  have hpos := Nat.two_pow_pos s
  rw [roundShift, hquotient, Nat.one_shiftLeft, hrest]
  exact if_neg (by omega)

namespace FloatKind

/-! ## (1) Signs and magnitudes -/

/-- The bits with a sign above a magnitude. -/
theorem toNat_signed {k : FloatKind} {negative : Bool} {magnitude : Nat}
    (h : magnitude < 2 ^ (k.bits - 1)) : (encode.signed k negative magnitude).toNat =
      (if negative then 2 ^ (k.bits - 1) else 0) + magnitude := by
  have hbits : 2 ^ k.bits = 2 * 2 ^ (k.bits - 1) := by cases k <;> rfl
  rw [encode.signed, BitVec.toNat_ofNat, hbits, Nat.one_shiftLeft]
  cases negative with
  | true => exact Nat.mod_eq_of_lt (by simp only [if_true]; omega)
  | false =>
    simp only [Bool.false_eq_true, if_false, Nat.zero_add]
    exact Nat.mod_eq_of_lt (by omega)

/-- Bits are their sign above their magnitude. -/
theorem signed_msb (k : FloatKind) (v : BitVec k.bits) :
    encode.signed k v.msb (v.toNat % 2 ^ (k.bits - 1)) = v := by
  have hlt := v.isLt
  have hbits : 2 ^ k.bits = 2 * 2 ^ (k.bits - 1) := by cases k <;> rfl
  have hmagnitude : v.toNat % 2 ^ (k.bits - 1) < 2 ^ (k.bits - 1) :=
    Nat.mod_lt _ (Nat.two_pow_pos _)
  apply BitVec.eq_of_toNat_eq
  rw [toNat_signed hmagnitude, BitVec.msb_eq_decide]
  by_cases hsign : 2 ^ (k.bits - 1) ≤ v.toNat
  · have hrest : v.toNat % 2 ^ (k.bits - 1) = v.toNat - 2 ^ (k.bits - 1) := by
      rw [Nat.mod_eq_sub_mod hsign, Nat.mod_eq_of_lt (by omega)]
    simp only [hsign, decide_true, if_true, hrest]
    omega
  · simp only [hsign, decide_false, Bool.false_eq_true, if_false, Nat.zero_add]
    exact Nat.mod_eq_of_lt (by omega)

/-! ## (2) Reading a double -/

/-- The sign of the bits of a sign above a magnitude. -/
theorem msb_signed {k : FloatKind} {negative : Bool} {magnitude : Nat}
    (h : magnitude < 2 ^ (k.bits - 1)) : (encode.signed k negative magnitude).msb = negative := by
  rw [BitVec.msb_eq_decide, toNat_signed h]
  cases negative with
  | true => simp
  | false => simp [h]

/-- The bits of a sign, a biased exponent of a normal double, and a fraction are read off as such. -/
theorem decode_signed_double (negative : Bool) {biased fraction : Nat} (h0 : 0 < biased)
    (hbiased : biased < 2047) (hfraction : fraction < 2 ^ 52) :
    double.decode (encode.signed .double negative (biased * 2 ^ 52 + fraction)) =
      .finite negative (2 ^ 52 + fraction) (biased - 1075) := by
  have hlt : biased * 2 ^ 52 + fraction < 2 ^ (double.bits - 1) := by
    show _ < 2 ^ 63
    omega
  have hsign : ∀ b : Bool, (if b then 2 ^ (double.bits - 1) else 0) =
      (if b then 2048 else 0) * 2 ^ 52 := by
    intro b
    cases b <;> rfl
  rw [decode, msb_signed hlt, toNat_signed hlt, hsign]
  simp only [fractionBits, exponentBits, minExponent, Nat.one_shiftLeft,
    Nat.shiftRight_eq_div_pow]
  -- the fraction is what is below the exponent, and the sign is above both
  have hfields : ∀ high : Nat, (high * 2 ^ 52 + (biased * 2 ^ 52 + fraction)) % 2 ^ 52 = fraction ∧
      (high * 2 ^ 52 + (biased * 2 ^ 52 + fraction)) / 2 ^ 52 = high + biased := by
    intro high
    omega
  rw [(hfields _).1, (hfields _).2]
  have hexponent : ((if negative then 2048 else 0) + biased) % 2 ^ 11 = biased := by
    cases negative
    · simp only [Bool.false_eq_true, if_false]
      omega
    · simp only [if_true]
      omega
  rw [hexponent, if_neg (by omega), if_neg (by omega)]
  congr 1
  omega

/-! ## (3) Singles as doubles -/

/-- What a finite single stands for: its magnitude is the sum of what the exponent and the mantissa
contribute, and only the smallest exponent goes with a mantissa whose leading bit is missing. -/
theorem decode_single (v : BitVec single.bits) (h : single.decode v ≠ .nan) :
    single.decode v = .infinite v.msb ∧ v.toNat % 2 ^ 31 = single.infinityBits ∨
      ∃ (mantissa exponent : Nat), single.decode v = .finite v.msb mantissa (exponent - 149) ∧
        mantissa < 2 ^ 24 ∧ exponent < 254 ∧ (exponent = 0 ∨ 2 ^ 23 ≤ mantissa) ∧
        v.toNat % 2 ^ 31 = exponent * 2 ^ 23 + mantissa := by
  have hinf : single.infinityBits = 255 * 2 ^ 23 := by decide
  simp only [decode, fractionBits, exponentBits, minExponent, Nat.one_shiftLeft,
    Nat.shiftRight_eq_div_pow] at h ⊢
  have hlt : v.toNat < 2 ^ 32 := v.isLt
  -- an exponent of ones is an infinity, one of zeros a subnormal
  by_cases hall : v.toNat / 2 ^ 23 % 2 ^ 8 = 2 ^ 8 - 1
  · by_cases hfraction : v.toNat % 2 ^ 23 = 0
    · left
      rw [if_pos hall, if_pos hfraction, hinf]
      exact ⟨rfl, by omega⟩
    · rw [if_pos hall, if_neg hfraction] at h
      exact absurd rfl h
  · right
    rw [if_neg hall]
    by_cases hsub : v.toNat / 2 ^ 23 % 2 ^ 8 = 0
    · refine ⟨v.toNat % 2 ^ 23, 0, ?_, by omega, by omega, .inl rfl, by omega⟩
      rw [if_pos hsub]
      rfl
    · refine ⟨2 ^ 23 + v.toNat % 2 ^ 23, v.toNat / 2 ^ 23 % 2 ^ 8 - 1, ?_, by omega, by omega,
        .inr (by omega), by omega⟩
      rw [if_neg hsub]
      congr 1

/-- A mantissa of a single that is shifted until its leading bit is in the place that a double wants. -/
theorem shifted_mantissa {mantissa : Nat} (h0 : mantissa ≠ 0) (hmantissa : mantissa < 2 ^ 24) :
    mantissa.log2 ≤ 23 ∧ 2 ^ 52 ≤ mantissa * 2 ^ (52 - mantissa.log2) ∧
      mantissa * 2 ^ (52 - mantissa.log2) < 2 ^ 53 := by
  have hlog : mantissa.log2 < 24 := (Nat.log2_lt h0).2 hmantissa
  have hlow : 2 ^ mantissa.log2 ≤ mantissa := Nat.log2_self_le h0
  have hhigh : mantissa < 2 ^ (mantissa.log2 + 1) := Nat.lt_log2_self
  have hpos := Nat.two_pow_pos (52 - mantissa.log2)
  refine ⟨by omega, ?_, ?_⟩
  · calc 2 ^ 52 = 2 ^ mantissa.log2 * 2 ^ (52 - mantissa.log2) := by
          rw [← Nat.pow_add]
          congr 1
          omega
      _ ≤ mantissa * 2 ^ (52 - mantissa.log2) := Nat.mul_le_mul_right _ hlow
  · calc mantissa * 2 ^ (52 - mantissa.log2)
        < 2 ^ (mantissa.log2 + 1) * 2 ^ (52 - mantissa.log2) := Nat.mul_lt_mul_of_pos_right hhigh hpos
      _ = 2 ^ 53 := by
          rw [← Nat.pow_add]
          congr 1
          omega

/-- The magnitude of a double that a single is widened to: the mantissa is shifted until its leading bit
is in place. -/
theorem magnitudeBits_double {mantissa exponent : Nat} (h0 : mantissa ≠ 0)
    (hmantissa : mantissa < 2 ^ 24) (hexponent : exponent < 254) :
    double.magnitudeBits mantissa (exponent - 149) =
      (exponent + mantissa.log2 + 873) * 2 ^ 52 + mantissa * 2 ^ (52 - mantissa.log2) := by
  obtain ⟨hlog, hlow, hhigh⟩ := shifted_mantissa h0 hmantissa
  have hinf : double.infinityBits = 2047 * 2 ^ 52 := by decide
  have hplace : max ((exponent : Int) - 149 + mantissa.log2 - (52 : Nat)) (-1074) =
      exponent - 149 + mantissa.log2 - 52 := by omega
  have hshift : ((exponent : Int) - 149 - (exponent - 149 + mantissa.log2 - 52)).toNat =
      52 - mantissa.log2 := by omega
  have hbiased : ((exponent : Int) - 149 + mantissa.log2 - 52 - -1074).toNat =
      exponent + mantissa.log2 + 873 := by omega
  simp only [magnitudeBits, if_neg h0, fractionBits, minExponent, hplace, hshift, hbiased, hinf,
    Nat.shiftLeft_eq]
  rw [if_neg (by omega)]
  exact Nat.min_eq_left (by omega)

/-- Rounding that to a single finds the exponent and the mantissa again. -/
theorem magnitudeBits_single {mantissa exponent : Nat} (h0 : mantissa ≠ 0)
    (hmantissa : mantissa < 2 ^ 24) (hexponent : exponent < 254)
    (hnormal : exponent = 0 ∨ 2 ^ 23 ≤ mantissa) :
    single.magnitudeBits (mantissa * 2 ^ (52 - mantissa.log2)) (exponent - 149 + mantissa.log2 - 52) =
      exponent * 2 ^ 23 + mantissa := by
  obtain ⟨hlog, hlow, hhigh⟩ := shifted_mantissa h0 hmantissa
  have hinf : single.infinityBits = 255 * 2 ^ 23 := by decide
  have hlog' : (mantissa * 2 ^ (52 - mantissa.log2)).log2 = 52 :=
    (Nat.log2_eq_iff (by omega)).2 ⟨hlow, hhigh⟩
  -- a mantissa with its leading bit keeps it, and the others belong to the smallest exponent
  have hlead : exponent = 0 ∨ mantissa.log2 = 23 := by
    refine hnormal.imp_right fun h => ?_
    exact (Nat.log2_eq_iff h0).2 ⟨h, hmantissa⟩
  have hplace : max ((exponent : Int) - 149 + mantissa.log2 - 52 + (52 : Nat) - (23 : Nat)) (-149) =
      exponent - 149 := by omega
  have hshift : ((exponent : Int) - 149 - (exponent - 149 + mantissa.log2 - 52)).toNat =
      52 - mantissa.log2 := by omega
  have hbiased : ((exponent : Int) - 149 - -149).toNat = exponent := by omega
  have hne : mantissa * 2 ^ (52 - mantissa.log2) ≠ 0 := by omega
  simp only [magnitudeBits, if_neg hne, fractionBits, minExponent, hlog', hplace, hshift, hbiased,
    hinf, Nat.shiftLeft_eq, roundShift_mul]
  rw [if_pos (by omega)]
  exact Nat.min_eq_left (by omega)

/-! ## (4) There and back -/

/-- A zero is written without an exponent. -/
theorem encode_zero (k : FloatKind) (negative : Bool) (exponent : Int) :
    k.encode (.finite negative 0 exponent) = encode.signed k negative 0 := by
  rw [encode, magnitudeBits, if_pos rfl]

/-- A zero is one in the wider format, at the smallest exponent. -/
theorem decode_encode_zero (negative : Bool) (exponent : Int) :
    double.decode (double.encode (.finite negative 0 exponent)) = .finite negative 0 (-1074) := by
  rw [encode_zero]
  cases negative <;> decide

/-- An infinity is one in the wider format. -/
theorem decode_encode_infinite (negative : Bool) :
    double.decode (double.encode (.infinite negative)) = .infinite negative := by
  cases negative <;> decide

/-- What a finite single stands for is read back from a double with its leading bit in place. -/
theorem decode_encode_finite (negative : Bool) {mantissa exponent : Nat} (h0 : mantissa ≠ 0)
    (hmantissa : mantissa < 2 ^ 24) (hexponent : exponent < 254) :
    double.decode (double.encode (.finite negative mantissa (exponent - 149))) =
      .finite negative (mantissa * 2 ^ (52 - mantissa.log2)) (exponent - 149 + mantissa.log2 - 52) := by
  obtain ⟨hlog, hlow, hhigh⟩ := shifted_mantissa h0 hmantissa
  obtain ⟨fraction, hfraction⟩ : ∃ f, mantissa * 2 ^ (52 - mantissa.log2) = 2 ^ 52 + f :=
    ⟨_, (Nat.add_sub_cancel' hlow).symm⟩
  have hwide : double.magnitudeBits mantissa (exponent - 149) =
      (exponent + mantissa.log2 + 874) * 2 ^ 52 + fraction := by
    rw [magnitudeBits_double h0 hmantissa hexponent]
    omega
  have hbiased : 0 < exponent + mantissa.log2 + 874 := by omega
  have hle : exponent + mantissa.log2 + 874 < 2047 := by omega
  have hlt : fraction < 2 ^ 52 := by omega
  have hplace : ((exponent + mantissa.log2 + 874 : Nat) : Int) - 1075 =
      exponent - 149 + mantissa.log2 - 52 := by omega
  rw [encode, hwide, decode_signed_double negative hbiased hle hlt, hfraction, hplace]

/-- Widening a single and narrowing the double gives the bits back, unless they are not a number. -/
theorem narrow_widen (v : BitVec single.bits) (h : single.decode v ≠ .nan) :
    single.encode (double.decode (double.encode (single.decode v))) = v := by
  have hback : encode.signed single v.msb (v.toNat % 2 ^ 31) = v := signed_msb single v
  rcases decode_single v h with ⟨hdecode, hmagnitude⟩ |
    ⟨mantissa, exponent, hdecode, hmantissa, hexponent, hnormal, hmagnitude⟩
  · rw [hdecode, decode_encode_infinite]
    rwa [hmagnitude] at hback
  rw [hdecode]
  by_cases h0 : mantissa = 0
  · have hexponent0 : exponent = 0 := by omega
    subst h0 hexponent0
    rw [decode_encode_zero, encode_zero]
    rwa [hmagnitude] at hback
  · rw [decode_encode_finite v.msb h0 hmantissa hexponent, encode,
      magnitudeBits_single h0 hmantissa hexponent hnormal, ← hmagnitude]
    exact hback

/-- What is not a number is none in the other format either. -/
theorem narrow_widen_nan :
    single.decode (single.encode (double.decode (double.encode .nan))) = .nan := by
  decide

end FloatKind

/-! ## (5) Conversion to the own kind -/

namespace Scalar

/-- Two scalars **agree**: they are one, or they are floats of one kind that are not numbers. -/
inductive Agrees : Scalar → Scalar → Prop
  /-- They are the same. -/
  | same (x : Scalar) : Agrees x x
  /-- Neither is a number. -/
  | nan {k : FloatKind} {v w : BitVec k.bits} (hv : k.decode v = .nan) (hw : k.decode w = .nan) :
      Agrees (.float k v) (.float k w)

/-- A scalar converted to its own kind **agrees** with itself. -/
theorem convert_agrees (x : Scalar) : (x.convert x.kind).Agrees x := by
  rw [convert_eq]
  cases x with
  | bool b =>
    cases b with
    | true => exact .same _
    | false => exact .same _
  | word k v =>
    show (wrap k (wordValue k v)).Agrees _
    rw [wrap_wordValue]
    exact .same _
  | float k v =>
    cases k with
    | double => exact .same _
    | single =>
      show (Scalar.float .single (FloatKind.single.encode (FloatKind.double.decode
        (FloatKind.double.encode (FloatKind.single.decode v))))).Agrees _
      by_cases hnan : FloatKind.single.decode v = .nan
      · rw [hnan]
        exact .nan FloatKind.narrow_widen_nan hnan
      · rw [FloatKind.narrow_widen v hnan]
        exact .same _

end Scalar

end Stackwright
