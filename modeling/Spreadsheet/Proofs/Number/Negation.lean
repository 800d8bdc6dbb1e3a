import Mathlib

/-!
# Subtraction is addition of the negative

The negative of a double has the same bits but for its sign, so taking the negative of a double
apart gives the parts of the double with the other sign: nothing is rounded. Subtraction and
addition treat the parts alike, but for the sign of the second operand, and so the difference of two
doubles is the sum of the first and the negative of the second, whatever the doubles are.

## Main results

* `unpack_neg`: the parts of the negative of a double.
* `add_neg`: the sum with a negative is the difference.
-/

namespace Spreadsheet.Number

open Float.Model (UnpackedFloat)
open Float.Model.UnpackedFloat
open Float.Model.Format (binary64)

/-! ## The parts of a negative -/

theorem ofBitVec_toBitVec_neg (b : BitVec 1) :
    Sign.ofBitVec (-(Sign.ofBitVec b)).toBitVec = -(Sign.ofBitVec b) := by
  match Sign.ofBitVec b with
  | .negative | .positive => rfl

/-- The bits of a double with the other sign stand for the parts with the other sign. -/
theorem unpack_flip (b : BitVec binary64.numBits) :
    unpack binary64 (packComponents binary64 (-(Sign.ofBitVec (unpackSign b))) (unpackExponent b)
      (unpackMantissa b)) = (unpack binary64 b).neg := by
  rw [unpack, unpack]
  simp only [unpackSign_packComponents, unpackExponent_packComponents,
    unpackMantissa_packComponents, ofBitVec_toBitVec_neg]
  by_cases hlast : unpackExponent b = -BitVec.ofNat binary64.exponentBits 1
  · rw [if_pos hlast, if_pos hlast]
    split <;> rfl
  · rw [if_neg hlast, if_neg hlast]
    by_cases hfirst : unpackExponent b = BitVec.ofNat binary64.exponentBits 0
    · rw [if_pos hfirst, if_pos hfirst]
      split <;> rfl
    · rw [if_neg hfirst, if_neg hfirst]
      rfl

/-- A double that is none of the undefined ones has a negative with the other sign in its bits. -/
theorem valid_flip {b : BitVec binary64.numBits} (s : Sign)
    (h : unpackExponent b = -BitVec.ofNat binary64.exponentBits 1 →
      unpackMantissa b = BitVec.ofNat binary64.mantissaBitsWithoutImplicit 0) :
    binary64.Valid (packComponents binary64 s (unpackExponent b) (unpackMantissa b)) := by
  refine ⟨fun hexponent hmantissa => ?_⟩
  rw [unpackExponent_packComponents] at hexponent
  rw [unpackMantissa_packComponents] at hmantissa
  exact absurd (h hexponent) hmantissa

theorem unpack_eq_notANumber {b : BitVec binary64.numBits}
    (hexponent : unpackExponent b = -BitVec.ofNat binary64.exponentBits 1)
    (hmantissa : unpackMantissa b ≠ BitVec.ofNat binary64.mantissaBitsWithoutImplicit 0) :
    unpack binary64 b = .notANumber := by
  rw [unpack]
  dsimp only
  rw [if_pos hexponent, if_neg hmantissa]

/-- Nothing is lost when the negative of a double is put together. -/
theorem unpack_pack_neg (b : BitVec binary64.numBits) :
    unpack binary64 (UnpackedFloat.pack binary64 (unpack binary64 b).neg) =
      (unpack binary64 b).neg := by
  by_cases hnan : unpackExponent b = -BitVec.ofNat binary64.exponentBits 1 ∧
      unpackMantissa b ≠ BitVec.ofNat binary64.mantissaBitsWithoutImplicit 0
  · rw [unpack_eq_notANumber hnan.1 hnan.2]
    exact unpack_packedNaN
  · have hnumber : unpackExponent b = -BitVec.ofNat binary64.exponentBits 1 →
        unpackMantissa b = BitVec.ofNat binary64.mantissaBitsWithoutImplicit 0 := by
      intro hexponent
      by_contra hmantissa
      exact hnan ⟨hexponent, hmantissa⟩
    rw [← unpack_flip, pack_unpack_of_valid (valid_flip _ hnumber)]

theorem unpack_neg (x : Float) : (-x).toModel.unpack = x.toModel.unpack.neg :=
  unpack_pack_neg x.toModel.toBits.toBitVec

/-! ## Adding a negative -/

theorem neg_apply (s : Sign) (n : Int) : (-s).apply n = -s.apply n := by
  match s with
  | .negative => exact (Int.neg_neg n).symm
  | .positive => rfl

/-- Adding parts with the other sign is subtracting the parts. -/
theorem unpacked_add_neg (f g : UnpackedFloat) :
    UnpackedFloat.add binary64 f g.neg = UnpackedFloat.sub binary64 f g := by
  cases f with
  | notANumber => cases g <;> rfl
  | infinity s => cases g <;> rfl
  | zero s => cases g <;> rfl
  | finite s m e hm =>
    cases g with
    | notANumber | infinity | zero => rfl
    | finite t n k hn =>
      rw [neg, UnpackedFloat.add, UnpackedFloat.sub]
      dsimp only
      rw [neg_apply, Int.sub_eq_add_neg]

/-- The difference of two doubles is the sum of the first and the negative of the second. -/
theorem add_neg (x y : Float) : x + -y = x - y := by
  have hsum : x + -y =
      .ofModel (.pack (UnpackedFloat.add binary64 x.toModel.unpack (-y).toModel.unpack)) := rfl
  have hdifference : x - y =
      .ofModel (.pack (UnpackedFloat.sub binary64 x.toModel.unpack y.toModel.unpack)) := rfl
  rw [hsum, hdifference, unpack_neg, unpacked_add_neg]

end Spreadsheet.Number
