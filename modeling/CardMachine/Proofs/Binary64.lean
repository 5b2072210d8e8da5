import CardMachine.Binary64
import Mathlib

/-!
# A 64-bit integer is a finite double

`UInt64.toFloat` rounds in two shifts and packs the result. The rounding may carry, but it cannot
make the exponent large: the mantissa only shrinks in a shift (`mantissa_shiftRight_le`) and grows by
one at most in between, so the exponent stays far below the one that stands for infinity
(`round_exponentAtMost`). Packed, such a number has not all bits of the exponent set
(`unpackExponent_pack_ne`), and that is how a double is recognized as finite
(`isFinite_of_exponent_ne`).
-/

namespace CardMachine.Binary64

open Float.Model (Format UnpackedFloat totalExponent)
open Float.Model.UnpackedFloat

/-- A number, and its exponent is at most `bound`. -/
def ExponentAtMost (bound : Int) : UnpackedFloat → Prop
  | .zero _ => True
  | .finite _ _ exponent _ => exponent ≤ bound
  | _ => False

/-- A shift to the right does not enlarge the mantissa. -/
lemma mantissa_shiftRight_le (em : ExtendedMantissa) (n : Nat) :
    (em >>> n).mantissa ≤ em.mantissa := by
  show (n.repeat ExtendedMantissa.shiftRightOne em).mantissa ≤ em.mantissa
  induction n with
  | zero => exact Nat.le_refl _
  | succ n ih => exact Nat.le_trans (Nat.div_le_self _ 2) ih

/-- Rounding adds one to the mantissa at most. -/
lemma roundedMantissa_le (em : ExtendedMantissa) : em.roundedMantissa ≤ em.mantissa + 1 := by
  obtain ⟨m, round, sticky⟩ := em
  cases round <;> cases sticky <;>
    simp only [ExtendedMantissa.roundedMantissa, ExtendedMantissa.accuracy,
      Accuracy.roundToNearestEven] <;> omega

/-- The mantissa with its accuracy is the mantissa. -/
lemma mantissa_ofMantissaAndAccuracy (m : Nat) (accuracy : Accuracy) :
    (ExtendedMantissa.ofMantissaAndAccuracy m accuracy).mantissa = m := by
  cases accuracy with
  | exact => rfl
  | inexact relative => cases relative <;> rfl

/-- One more does not take more than one more bit. -/
lemma log2_le_of_le_succ {m n : Nat} (h : n ≤ m + 1) : n.log2 ≤ m.log2 + 1 := by
  by_cases hn : n = 0
  · subst hn; exact Nat.zero_le _
  · refine Nat.le_of_not_lt fun hlt => ?_
    have hpow := (Nat.le_log2 hn).1 (show m.log2 + 2 ≤ n.log2 by omega)
    have hm := Nat.lt_log2_self (n := m)
    rw [Nat.pow_succ] at hpow hm
    rw [Nat.pow_succ] at hpow
    have hpos := Nat.two_pow_pos m.log2
    omega

/-- A shift to the target exponent ends at the larger of the two exponents. -/
lemma shiftToTargetExponent_snd (m : Nat) (e : Int) (accuracy : Accuracy) :
    (shiftToTargetExponent .binary64 m e accuracy).2 =
      max e (max ((m.log2 : Int) + 1 + e - 53) (-1074)) := by
  show e + ((max ((m.log2 : Int) + 1 + e - (53 : Nat)) (-1074) - e).toNat : Int) = _
  omega

/-- Rounding leaves an exponent that is bounded by the one before and by the size of the mantissa. -/
lemma roundWithAccuracy_exponentAtMost (sign : Sign) {m : Nat} {e : Int} (accuracy : Accuracy)
    (hm : m.log2 ≤ 116) (he : e ≤ 0) :
    ExponentAtMost 200 (roundWithAccuracy .binary64 sign m e accuracy) := by
  have hfirst := shiftToTargetExponent_snd m e accuracy
  have hmantissa : (shiftToTargetExponent .binary64 m e accuracy).1.mantissa ≤ m := by
    have hle := mantissa_shiftRight_le (ExtendedMantissa.ofMantissaAndAccuracy m accuracy)
      (Format.binary64.targetExponent (totalExponent m e) - e).toNat
    rwa [mantissa_ofMantissaAndAccuracy] at hle
  rw [roundWithAccuracy]
  -- rounding up may carry into a new bit, so there is a second shift, by one at most
  generalize shiftToTargetExponent .binary64 m e accuracy = first at hfirst hmantissa
  obtain ⟨em, e₁⟩ := first
  have hlog := log2_le_of_le_succ
    (Nat.le_trans (roundedMantissa_le em) (Nat.add_le_add_right hmantissa 1))
  have hsecond := shiftToTargetExponent_snd em.roundedMantissa e₁ .exact
  dsimp only at hfirst ⊢
  split
  · exact trivial
  · show (shiftToTargetExponent .binary64 em.roundedMantissa e₁ .exact).2 ≤ 200
    omega

/-- The exponent of a 64-bit integer, rounded, is small. -/
lemma round_exponentAtMost (sign : Sign) {n : Nat} (h : n < 2 ^ 64) :
    ExponentAtMost 200 (round .binary64 sign n 0) := by
  have hlog : n.log2 ≤ 63 := by
    by_cases hn : n = 0
    · subst hn; decide
    · have := (Nat.log2_lt hn).2 h
      omega
  have htarget : Format.binary64.targetExponent (totalExponent n 0) =
      max ((n.log2 : Int) + 1 + 0 - 53) (-1074) := rfl
  rw [UnpackedFloat.round]
  dsimp only
  rw [decreaseExponent, htarget]
  refine roundWithAccuracy_exponentAtMost sign .exact ?_ (by omega)
  show (n <<< (0 - max ((n.log2 : Int) + 1 + 0 - 53) (-1074)).toNat).log2 ≤ 116
  -- a small integer is shifted up to 53 bits first
  generalize hk : (0 - max ((n.log2 : Int) + 1 + 0 - 53) (-1074)).toNat = k
  by_cases hn : n <<< k = 0
  · rw [hn]; decide
  · have hpow : 2 ^ k ≤ 2 ^ 52 := Nat.pow_le_pow_right (by omega) (by omega)
    have hlt : n <<< k < 2 ^ 117 := by
      rw [Nat.shiftLeft_eq]
      calc n * 2 ^ k ≤ 2 ^ 64 * 2 ^ 52 := Nat.mul_le_mul (by omega) hpow
        _ < 2 ^ 117 := by decide
    have := (Nat.log2_lt hn).2 hlt
    omega

/-- A number with a small exponent is packed without all bits of the exponent set. -/
lemma unpackExponent_pack_ne {u : UnpackedFloat} (h : ExponentAtMost 200 u) :
    (unpackExponent (pack .binary64 u)).toNat ≠ 2047 := by
  cases u with
  | infinity sign => exact h.elim
  | notANumber => exact h.elim
  | zero sign =>
    rw [pack, packedZero, unpackExponent_packComponents]
    decide
  | finite sign m e hm =>
    have he : e ≤ 200 := h
    have hbias : (e + Format.binary64.exponentBias +
        Format.binary64.mantissaBitsWithoutImplicit).toNat = (e + 1023 + 52).toNat := rfl
    rw [pack]
    dsimp only
    rw [hbias, if_neg (show ¬ 2 ^ 11 ≤ (e + 1023 + 52).toNat + 1 by omega)]
    split
    · rw [unpackExponent_packComponents]
      show (e + 1023 + 52).toNat % 2 ^ 11 ≠ 2047
      omega
    · rw [unpackExponent_packComponents]
      decide

/-- A double with not all bits of the exponent set is finite. -/
lemma isFinite_of_exponent_ne {x : Float}
    (h : (@unpackExponent .binary64 x.toBits.toBitVec).toNat ≠ 2047) :
    isFinite x = true := by
  have hscale : (@unpackExponent .binary64 x.toBits.toBitVec).toNat =
      (x.toBits.toNat >>> 52) % 2048 := by
    rw [unpackExponent, BitVec.toNat_cast, BitVec.extractLsb_toNat]
    rfl
  rw [hscale] at h
  rw [isFinite, classify, if_neg h]
  by_cases hz : (x.toBits.toNat >>> 52) % 2048 = 0
  · rw [if_pos hz]
  · rw [if_neg hz]

/-- Every unsigned 64-bit integer is a finite double. -/
lemma isFinite_toFloat (n : UInt64) : isFinite n.toFloat = true := by
  apply isFinite_of_exponent_ne
  have hbits : n.toFloat.toBits.toBitVec =
      pack .binary64 (UnpackedFloat.ofUInt64 .binary64 n) := rfl
  rw [hbits]
  apply unpackExponent_pack_ne
  rw [ofUInt64, ofNat, ofInt, UnpackedFloat.normalize]
  split
  · exact round_exponentAtMost .negative (by have := n.toNat_lt; omega)
  · exact trivial
  · exact round_exponentAtMost .positive (by have := n.toNat_lt; omega)

end CardMachine.Binary64
