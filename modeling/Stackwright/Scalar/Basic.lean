import Stackwright.Decimal.Text
import Stackwright.Number

/-! # Scalars

A **scalar** is a value of a scalar kind. Every scalar has a kind and a numeric meaning, and every
number has a scalar in each kind (`ofNumber`): words keep the low bits, floats round to nearest, a truth
value asks whether the number is zero. -/

namespace Stackwright

/-- A value of a scalar kind. -/
inductive Scalar
  /-- A truth value. -/
  | bool (value : Bool)
  /-- A word of some kind. -/
  | word (kind : WordKind) (bits : BitVec kind.bits)
  /-- A float of some kind. -/
  | float (kind : FloatKind) (bits : BitVec kind.bits)
  deriving DecidableEq

namespace Scalar

/-- The remainder by a power of two has that many bits. -/
theorem mod_shiftLeft_lt (n bits : Nat) : n % (1 <<< bits) < 1 <<< bits := by
  rw [Nat.one_shiftLeft]
  exact Nat.mod_lt _ (Nat.two_pow_pos bits)

/-- The low bits of an integer; those of a negative one are counted down from all ones. -/
def lowBits (bits : Nat) (n : Int) : BitVec bits :=
  match n with
  | .ofNat n =>
    .ofNatLT (n % (1 <<< bits)) (Nat.one_shiftLeft bits ▸ mod_shiftLeft_lt n bits)
  | .negSucc n =>
    .ofNatLT ((1 <<< bits) - 1 - n % (1 <<< bits)) (by
      have h := mod_shiftLeft_lt n bits
      rw [Nat.one_shiftLeft] at h ⊢
      omega)

theorem lowBits_eq (bits : Nat) (n : Int) : lowBits bits n = BitVec.ofInt bits n := by
  apply BitVec.eq_of_toNat_eq
  cases n with
  | ofNat n => simp [lowBits, Nat.one_shiftLeft]
  | negSucc n =>
    rw [BitVec.ofInt_negSucc_eq_not_ofNat]
    simp [lowBits, Nat.one_shiftLeft]

/-- The word of a kind that an integer **wraps** to. -/
def wrap (k : WordKind) (n : Int) : Scalar := .word k (lowBits k.bits n)

/-- A signed 32-bit scalar. -/
def i32 (n : Int) : Scalar := wrap .i32 n

/-- The kind of a scalar. -/
def kind : Scalar → ScalarKind
  | .bool _ => .bool
  | .word k _ => .word k
  | .float k _ => .float k

/-- The integer a word stands for, in two's complement for a signed kind. -/
def wordValue (k : WordKind) (v : BitVec k.bits) : Int :=
  if k.signed && v.msb then v.toNat - (1 <<< k.bits : Nat) else v.toNat

theorem wordValue_eq (k : WordKind) (v : BitVec k.bits) :
    wordValue k v = if k.signed then v.toInt else v.toNat := by
  unfold wordValue
  rw [BitVec.toInt_eq_msb_cond, Nat.one_shiftLeft]
  cases k.signed <;> simp

/-- A float widened to a double, exactly. -/
def widen : (k : FloatKind) → BitVec k.bits → BitVec 64
  | .single, v => FloatKind.double.encode (FloatKind.single.decode v)
  | .double, v => v

/-- The numeric meaning. -/
def toNumber : Scalar → Number
  | .bool b => .int (if b then 1 else 0)
  | .word k v => .int (wordValue k v)
  | .float k v => .float (widen k v)

/-- The scalar of a kind nearest to a number. -/
def ofNumber : ScalarKind → Number → Scalar
  | .bool, n => .bool (n.toInteger != 0)
  | .word k, n => wrap k n.toInteger
  | .float .single, n => .float .single (FloatKind.single.encode n.toBinary)
  | .float .double, n => .float .double n.toDouble

/-- Whether a scalar is a word of a kind. -/
def isWord (s : Scalar) (k : ScalarKind) : Bool :=
  match s, k with
  | .word k _, .word k' => k = k'
  | _, _ => false

/-- A scalar **converted** to another kind through its number; a word stays what it is in its kind. -/
def convert (s : Scalar) (k : ScalarKind) : Scalar :=
  if s.isWord k then s else ofNumber k s.toNumber

/-- A word is the one its number stands for. -/
theorem wrap_wordValue (k : WordKind) (v : BitVec k.bits) : wrap k (wordValue k v) = .word k v := by
  unfold wrap
  rw [wordValue_eq, lowBits_eq]
  split <;> simp

/-- A conversion goes through the number, whatever the kinds. -/
theorem convert_eq (s : Scalar) (k : ScalarKind) : s.convert k = ofNumber k s.toNumber := by
  unfold convert
  split
  · rename_i h
    cases s with
    | word j v =>
      cases k with
      | word k =>
        obtain rfl : j = k := by simpa [isWord] using h
        exact (wrap_wordValue j v).symm
      | bool => simp [isWord] at h
      | float k => simp [isWord] at h
    | bool b => simp [isWord] at h
    | float j v => simp [isWord] at h
  · rfl
/-- The zero of a kind. -/
def zero (k : ScalarKind) : Scalar := ofNumber k (.int 0)

@[simp] theorem kind_wrap (k : WordKind) (n : Int) : (wrap k n).kind = .word k := rfl

/-- The scalar made for a kind is of that kind. -/
@[simp] theorem kind_ofNumber (k : ScalarKind) (n : Number) : (ofNumber k n).kind = k := by
  cases k with
  | bool => rfl
  | word k => rfl
  | float k => cases k <;> rfl

@[simp] theorem kind_convert (s : Scalar) (k : ScalarKind) : (s.convert k).kind = k := by
  rw [convert_eq, kind_ofNumber]

/-! ## Text -/

/-- The character of a UTF-16 unit; half of a surrogate pair has none of its own. -/
def charOf (unit : Nat) : Char :=
  if 0xD800 ≤ unit ∧ unit < 0xE000 then '\ufffd' else Char.ofNat unit

/-- The text shown to a user. Floats are shown as doubles. -/
def display : Scalar → String
  | .bool b => if b then "True" else "False"
  | .word .char v => String.singleton (charOf v.toNat)
  | .word k v => toString (wordValue k v)
  | .float k v => FloatStyle.display.write .double (FloatKind.double.decode (widen k v))

/-- The tag of a kind in diagnostics. -/
def tag : ScalarKind → String
  | .bool => "Bool"
  | .char => "Char"
  | .i8 => "I8"
  | .u8 => "U8"
  | .i16 => "I16"
  | .u16 => "U16"
  | .i32 => "I32"
  | .u32 => "U32"
  | .i64 => "I64"
  | .u64 => "U64"
  | .f32 => "F32"
  | .f64 => "F64"

/-- The content of a scalar in diagnostics. -/
def debugContent : Scalar → String
  | .bool b => if b then "true" else "false"
  | .word k v => toString (wordValue k v)
  | .float k v => FloatStyle.debug.write k (k.decode v)

/-- The text of diagnostics: the tag of the kind around the content. -/
def debug (s : Scalar) : String := tag s.kind ++ "(" ++ s.debugContent ++ ")"

end Scalar

end Stackwright
