import Stackwright.Proofs.Emission.RoundTrip
import Stackwright.Proofs.Machine.Intakes
import Stackwright.Proofs.Scalar.Saturation

/-! # Conversions to words

Conversions between kinds of words are one system. Each gives the one word of the target that is congruent to the
integer of the source, so wider kinds on the way may be left out, and a kind that has every integer of the source
gives it back. A float is cut off toward zero, clamped to 128 bits and then wrapped like any other integer. What the
code of a conversion leaves on the stack is what comes to every place of the kind by itself.

* **`Emit.Exchanges e x y`** — what a call records leaves `y` where `x` was on top of the stack.
* **`Emit.exchanges_convertTop`** — a conversion of a scalar to a kind of words.
* **`Emit.words_wrap`**, **`Emit.floats_wrap`** — the conversions of a word and of a float. -/

namespace Stackwright

/-- A type that is the primitive type of a kind is stored as that. -/
theorem Ty.storedAs_of_beq_primitive {s : Ty} {k : ScalarKind} (h : s == .primitive k) : s.storedAs? = some k := by
  obtain ⟨hkind, hpath⟩ := Ty.beq_iff.1 h
  cases s with
  | primitive p =>
    have hname : p.name = k.name := hpath
    have hsame : ∀ p ∈ ScalarKind.all, ∀ k ∈ ScalarKind.all, p.name = k.name → p = k := by decide
    rw [hsame p (ScalarKind.mem_all p) k (ScalarKind.mem_all k) hname]
    rfl
  | _ => cases hkind

namespace Emit

/-- What a call records **exchanges** a value on top of the stack, whatever is reported in between; everything else in
the frame is as it was, and so is the heap. -/
def Exchanges (e : Emit Unit) (x y : Value) : Prop :=
  ∃ os : List Op, e.Weaves os ∧ ∀ (sink : Sink) (ops : List Op), Op.Woven sink os ops →
    ∀ (m : Machine) (rest : List Value), m.frame.stack = x :: rest →
      ∃ m', (Exec.all ops).run m = .ok () m' ∧ m'.frame = { m.frame with stack := y :: rest } ∧
        m'.world.heap = m.world.heap

/-- A **conversion** to a kind of words, of a scalar of the source, replaces it by what it is converted to. -/
theorem exchanges_convertTop {s : Ty} {x : Scalar} (hs : s.storedAs? = some x.kind) (k : WordKind) :
    (convertTop s (.primitive (.word k))).Exchanges (.scalar x) (.scalar (x.convert (.word k))) := by
  have hplan : ∃ c : Conversion, Conversion.between s (.primitive (.word k)) false = .ok c ∧
      ∀ (m : Machine) (rest : List Value), m.frame.stack = .scalar x :: rest →
        (Exec.all c.ops).run m = .ok () (m.withStack (.scalar (x.convert (.word k)) :: rest)) := by
    by_cases hsame : s == .primitive (.word k)
    · -- the value is of the kind already
      refine ⟨.identity, Conversion.between_of_beq hsame, fun m rest hstack => ?_⟩
      have hkind : x.kind = .word k := Option.some.inj (hs.symm.trans (Ty.storedAs_of_beq_primitive hsame))
      have hkept : x.convert (.word k) = x := by
        cases x with
        | word j v =>
          cases hkind
          rw [Scalar.convert_word, Scalar.wrap_wordValue]
        | bool b => cases hkind
        | float j v => cases hkind
      rw [hkept, ← hstack]
      rfl
    · refine ⟨.numeric (.word k), ?_, fun m rest hstack => ?_⟩
      · have hvalue : s.isValue := Heap.isValue_of_storedAs hs
        have htarget : (Ty.primitive (.word k)).isValue := rfl
        rw [Conversion.between, if_neg hsame, if_pos htarget, Conversion.toValue, if_pos hvalue]
        rfl
      · have hconvert := Exec.run_convert (.word k) hstack
        rw [Conversion.ops, Exec.all_singleton, hconvert]
        rfl
  obtain ⟨c, hplan, hrun⟩ := hplan
  refine ⟨c.ops, weaves_convert hplan, fun sink ops hops m rest hstack => ?_⟩
  have hsame := hops.sameOutcome c.blind_ops m m (.refl m)
  rw [hrun m rest hstack] at hsame
  generalize (Exec.all ops).run m = r at hsame
  cases hsame with
  | ok halike => exact ⟨_, rfl, halike.frame, halike.heap⟩

/-- **Words wrap.** A word that is converted to a kind of words becomes the one word of the kind whose integer is
congruent to its own modulo the width of the kind. A chain of conversions by way of kinds that are no narrower than the
last one is the conversion to the last one; a kind that has every integer of the kind of the word gives it back. What
the code of a conversion leaves on the stack is that word too, at every level; and it is that word that comes to every
place of the kind where the word itself is stored, boxed, returned, handed back by a host body or passed. -/
theorem words_wrap (j k : WordKind) (v : BitVec j.bits) :
    ∃ w : BitVec k.bits,
      (Value.scalar (.word j v)).convert? (.word k) = some (.scalar (.word k w)) ∧
      (∀ w' : BitVec k.bits, Scalar.wordValue k w' ≡ Scalar.wordValue j v [ZMOD 2 ^ k.bits] ↔ w' = w) ∧
      (∀ ks : List WordKind, (∀ i ∈ ks, k.bits ≤ i.bits) →
        (Value.scalar (.word j v)).convertAll (ks ++ [k]) = some (.scalar (.word k w))) ∧
      ((∀ z, j.Spans z → k.Spans z) → (Value.scalar (.word j v)).convertAll [k, j] = some (.scalar (.word j v))) ∧
      (∀ s : Ty, s.storedAs? = some (.word j) →
        (convertTop s (.primitive (.word k))).Exchanges (.scalar (.word j v)) (.scalar (.word k w))) ∧
      (Value.scalar (.word j v)).ComesAs (.word k) (.scalar (.word k w)) := by
  have hconvert : (Scalar.word j v).convert (.word k) = .word k (Scalar.lowBits k.bits (Scalar.wordValue j v)) :=
    Scalar.convert_word j k v
  have hvalue : (Value.scalar (.word j v)).convert? (.word k) =
      some (.scalar (.word k (Scalar.lowBits k.bits (Scalar.wordValue j v)))) :=
    congrArg (fun x => some (Value.scalar x)) hconvert
  refine ⟨_, hvalue, fun w' => ?_, fun ks hks => ?_, fun h => Value.convertAll_back h v, fun s hs => ?_, ?_⟩
  · rw [← Scalar.word_eq_wrap_iff, Scalar.wrap]
    exact ⟨fun h => by injection h, fun h => by rw [h]⟩
  · rw [Value.convertAll_wider hks, hvalue]
  · rw [← hconvert]
    exact exchanges_convertTop hs k
  · rw [← hconvert]
    exact Value.comesAs_convert _ k

/-- An integer of 32 bits becomes a byte by way of an unsigned one of 64 bits and a unit of text. -/
theorem words_wrap_byte : (Value.scalar (.word .i32 300)).convertAll [.u64, .char, .i8] = some (.scalar (.word .i8 44)) ∧
    (Value.scalar (.word .i32 300)).ComesAs .i8 (.scalar (.word .i8 44)) := by
  obtain ⟨w, hvalue, -, hchain, -, -, hcomes⟩ := words_wrap .i32 .i8 300
  have hw : w = 44 := by
    have hsame : some (Value.scalar (.word .i8 44)) = some (Value.scalar (.word .i8 w)) := hvalue
    cases hsame
    rfl
  subst hw
  exact ⟨hchain [.u64, .char] (by decide), hcomes⟩

/-- **Floats wrap.** A float that is converted to a kind of words is cut off toward zero and clamped to 128 bits, and
becomes the word of the kind that this wraps to; what is not a number becomes zero. So a value whose integer the kind
has is that integer, and the values that are clamped to the bounds of the kind are those that clamp to it, among which
the order is kept. The infinities are not clamped to the bounds of a signed kind: they become zero and minus one. What
the code of a conversion leaves on the stack is that word too, at every level; and it is that word that comes to every
place of the kind where the float itself is stored, boxed, returned, handed back by a host body or passed. -/
theorem floats_wrap (φ : FloatKind) (v : BitVec φ.bits) (k : WordKind) :
    ∃ w : BitVec k.bits,
      (Value.scalar (.float φ v)).convert? (.word k) = some (.scalar (.word k w)) ∧
      ((φ.decode v).value? = none → Scalar.wordValue k w = 0) ∧
      (∀ x : WithBotTop ℚ, (φ.decode v).value? = some x →
        Scalar.wordValue k w ≡ Binary.saturate Number.minInteger Number.maxInteger x [ZMOD 2 ^ k.bits] ∧
        (Scalar.wordValue k w = Binary.saturate k.least k.greatest x ↔ Scalar.Clamps k x) ∧
        (∀ q : ℚ, x = q → k.Spans (Binary.cut q) → Scalar.wordValue k w = Binary.cut q) ∧
        (x = ⊤ → Scalar.wordValue k w = if k.signed then -1 else k.greatest) ∧
        (x = ⊥ → Scalar.wordValue k w = 0) ∧
        (∀ (ψ : FloatKind) (u : BitVec ψ.bits) (y : WithBotTop ℚ) (z : BitVec k.bits),
          (Value.scalar (.float ψ u)).convert? (.word k) = some (.scalar (.word k z)) →
          (ψ.decode u).value? = some y → x ≤ y → Scalar.Clamps k x → Scalar.Clamps k y →
          Scalar.wordValue k w ≤ Scalar.wordValue k z)) ∧
      (∀ s : Ty, s.storedAs? = some (.float φ) →
        (convertTop s (.primitive (.word k))).Exchanges (.scalar (.float φ v)) (.scalar (.word k w))) ∧
      (Value.scalar (.float φ v)).ComesAs (.word k) (.scalar (.word k w)) := by
  obtain ⟨w, hconvert⟩ : ∃ w, (Scalar.float φ v).convert (.word k) = .word k w := ⟨_, Scalar.convert_eq _ _⟩
  -- the word of a value is the one of what is left of it within 128 bits
  have hvalue : ∀ {ψ : FloatKind} {u : BitVec ψ.bits} {y : WithBotTop ℚ} {z : BitVec k.bits},
      (Scalar.float ψ u).convert (.word k) = .word k z → (ψ.decode u).value? = some y →
      Scalar.wordValue k z = Scalar.saturated k y := by
    intro ψ u y z hz hy
    have hsame : Scalar.word k z = Scalar.wrap k _ := hz.symm.trans (Scalar.convert_float hy k)
    cases hsame
    rfl
  refine ⟨w, congrArg (fun x => some (Value.scalar x)) hconvert, fun h => ?_, fun x hx => ?_, fun s hs => ?_, ?_⟩
  · have hsame : Scalar.word k w = Scalar.wrap k 0 := hconvert.symm.trans (Scalar.convert_nan h k)
    cases hsame
    exact Scalar.wordValue_lowBits (by cases k <;> decide)
  · have hw := hvalue hconvert hx
    rw [hw]
    refine ⟨Scalar.wordValue_lowBits_modEq k _, Scalar.saturated_eq_iff, fun q hq hspans => ?_, fun htop => ?_,
      fun hbot => ?_, fun ψ u y z hz hy hxy hclamps hclamps' => ?_⟩
    · subst hq
      exact Scalar.saturated_of_spans hspans
    · rw [htop, Scalar.saturated_top]
    · rw [hbot, Scalar.saturated_bot]
    · have hz' : (Scalar.float ψ u).convert (.word k) = .word k z := by
        have hsame := Option.some.inj hz
        injection hsame
      rw [hvalue hz' hy]
      exact Scalar.saturated_mono hxy hclamps hclamps'
  · rw [← hconvert]
    exact exchanges_convertTop hs k
  · rw [← hconvert]
    exact Value.comesAs_convert _ k

/-- Three hundred is beyond a byte: it is not clamped to the greatest one. -/
theorem floats_wrap_byte : (FloatKind.double.decode 0x4072c00000000000).value? = some ((300 : ℚ) : WithBotTop ℚ) ∧
    (Value.scalar (.float .double 0x4072c00000000000)).convert? .i8 = some (.scalar (.word .i8 44)) ∧
    Binary.saturate WordKind.i8.least WordKind.i8.greatest (300 : ℚ) = 127 ∧ ¬ Scalar.Clamps .i8 (300 : ℚ) := by
  have hdecode : FloatKind.double.decode 0x4072c00000000000 = .finite false (300 * 2 ^ 44) (-44) := by decide
  have hvalue : (FloatKind.double.decode 0x4072c00000000000).value? = some ((300 : ℚ) : WithBotTop ℚ) := by
    rw [hdecode, Binary.value?]
    norm_num
  have hgreatest : Binary.saturate WordKind.i8.least WordKind.i8.greatest (300 : ℚ) = 127 := by
    have hcut : Binary.cut 300 = 300 := by rw [Binary.cut_of_nonneg (by norm_num)]; norm_num
    show max _ (min _ (Binary.cut 300)) = _
    rw [hcut]
    decide
  obtain ⟨w, hconvert, -, hall, -⟩ := floats_wrap .double 0x4072c00000000000 .i8
  have hw : w = 44 := by
    have hsame : some (Value.scalar (.word .i8 44)) = some (Value.scalar (.word .i8 w)) := hconvert
    cases hsame
    rfl
  subst hw
  refine ⟨hvalue, hconvert, hgreatest, fun hclamps => ?_⟩
  have heq := (hall _ hvalue).2.1.2 hclamps
  rw [hgreatest] at heq
  exact absurd heq (by decide)

end Emit

end Stackwright
