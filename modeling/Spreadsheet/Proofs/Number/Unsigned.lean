import Mathlib
import Spreadsheet.Number.Reading
import Spreadsheet.Number.Shortest

/-!
# Numbers without a sign

A numeral has no sign of its own, so the double that it is read as has none either. Doubles are
taken apart into a sign, a significand and an exponent for this: rounding keeps the sign, and the
product and the quotient of two doubles without a minus sign have none.

## Main results

* `positive_of_read?`: what is read without a minus sign in front has none.
* `isNegative_of_positive`: a double without a minus sign is not below zero.
-/

namespace Spreadsheet.Number

open Float.Model (UnpackedFloat Format)
open Float.Model.UnpackedFloat (Sign Accuracy packComponents unpackSign roundWithAccuracy)

/-- A double that was taken apart has no minus sign; what is no number has none. -/
inductive PositiveParts : UnpackedFloat → Prop
  | notANumber : PositiveParts .notANumber
  | infinity : PositiveParts (.infinity .positive)
  | zero : PositiveParts (.zero .positive)
  | finite (m : Nat) (e : Int) (hm : 0 < m) : PositiveParts (.finite .positive m e hm)

/-- Whether a double has no minus sign. -/
def Positive (x : Float) : Prop := PositiveParts x.toModel.unpack

variable {spec : Format} {f g : UnpackedFloat} {x y : Float}

/-! ## Packing -/

/-- The sign bit of a packed double without a minus sign is not set. -/
theorem unpackSign_pack (h : PositiveParts f) : unpackSign (UnpackedFloat.pack spec f) = 0#1 := by
  have hbit : ∀ exponent mantissa,
      unpackSign (packComponents spec .positive exponent mantissa) = 0#1 :=
    UnpackedFloat.unpackSign_packComponents .positive
  cases h with
  | notANumber => exact hbit _ _
  | infinity => exact hbit _ _
  | zero => exact hbit _ _
  | finite m e hm =>
    rw [UnpackedFloat.pack]
    split
    · exact hbit _ _
    · split
      · exact hbit _ _
      · exact hbit _ _

/-- What is unpacked without a sign bit has no minus sign. -/
theorem positiveParts_unpack {b : BitVec spec.numBits} (h : unpackSign b = 0#1) :
    PositiveParts (UnpackedFloat.unpack spec b) := by
  have hsign : Sign.ofBitVec (unpackSign b) = .positive := by
    rw [h]
    rfl
  rw [UnpackedFloat.unpack, hsign]
  split
  · split
    · exact .infinity
    · exact .notANumber
  · split
    · split
      · exact .zero
      · exact .finite _ _ _
    · exact .finite _ _ _

theorem positive_pack (h : PositiveParts f) : Positive (.ofModel (.pack f)) :=
  positiveParts_unpack (unpackSign_pack h)

/-! ## Arithmetic -/

/-- Rounding keeps the sign. -/
theorem positiveParts_round (m : Nat) (e : Int) (a : Accuracy) :
    PositiveParts (roundWithAccuracy spec .positive m e a) := by
  rw [roundWithAccuracy]
  split
  dsimp only
  split
  · exact .zero
  · exact .finite _ _ _

theorem positiveParts_mul (hf : PositiveParts f) (hg : PositiveParts g) :
    PositiveParts (UnpackedFloat.mul spec f g) := by
  cases hf with
  | finite m e hm =>
    cases hg with
    | finite m' e' hm' => exact positiveParts_round _ _ _
    | _ => constructor
  | _ => cases hg <;> constructor

theorem positiveParts_div (hf : PositiveParts f) (hg : PositiveParts g) :
    PositiveParts (UnpackedFloat.div spec f g) := by
  cases hf with
  | finite m e hm =>
    cases hg with
    | finite m' e' hm' => exact positiveParts_round _ _ _
    | _ => constructor
  | _ => cases hg <;> constructor

theorem positiveParts_ofNat (n : Nat) : PositiveParts (UnpackedFloat.ofNat spec n) := by
  rw [UnpackedFloat.ofNat, UnpackedFloat.ofInt, UnpackedFloat.normalize]
  split
  · next hlt =>
    rw [Int.compare_eq_lt] at hlt
    omega
  · exact .zero
  · exact positiveParts_round _ _ _

theorem positiveParts_ofScientific (m : Nat) (e : Int) :
    PositiveParts (UnpackedFloat.ofScientific spec m e) := by
  rw [UnpackedFloat.ofScientific]
  split
  · exact .zero
  · split
    · exact .infinity
    · split
      · exact .zero
      · split
        · exact positiveParts_mul (.finite _ _ _) (.finite _ _ _)
        · exact positiveParts_div (.finite _ _ _) (.finite _ _ _)

theorem positive_mul (hx : Positive x) (hy : Positive y) : Positive (x * y) :=
  positive_pack (positiveParts_mul hx hy)

theorem positive_div (hx : Positive x) (hy : Positive y) : Positive (x / y) :=
  positive_pack (positiveParts_div hx hy)

/-! ## Numerals -/

/-- The powers of ten that are doubles have no minus sign. -/
theorem positive_powerOfTen {e : Nat} (h : e < Float.exactlyRepresentablePowersOfTen.size) :
    Positive Float.exactlyRepresentablePowersOfTen[e] := by
  have hsigns : ∀ p ∈ Float.exactlyRepresentablePowersOfTen.toList,
      @unpackSign Format.binary64 p.toModel.toBits.toBitVec = 0#1 := by
    decide +kernel
  exact positiveParts_unpack (hsigns _ (Array.getElem_mem_toList h))

theorem positive_ofScientific (m : Nat) (small : Bool) (e : Nat) :
    Positive (Float.ofScientific m small e) := by
  rw [Float.ofScientific]
  split
  · dsimp only
    have hm : Positive m.toUInt64.toFloat := positive_pack (positiveParts_ofNat _)
    split
    · exact positive_div hm (positive_powerOfTen _)
    · exact positive_mul hm (positive_powerOfTen _)
  · exact positive_pack (positiveParts_ofScientific _ _)

/-- The double nearest to a numeral has no minus sign. -/
theorem positive_toFloat (d : Decimal) : Positive d.toFloat := by
  rw [Decimal.toFloat]
  split
  · exact positive_ofScientific _ _ _
  · split
    · exact positive_div (positive_ofScientific _ _ _) (positive_ofScientific _ _ _)
    · exact positive_ofScientific _ _ _

theorem positive_of_magnitude? {cs : List Char} (h : magnitude? cs = some x) : Positive x := by
  have hone : Positive 1.0 := positive_ofScientific _ _ _
  have hzero : Positive 0.0 := positive_ofScientific _ _ _
  unfold magnitude? at h
  split at h
  · cases h
    exact positive_toFloat _
  · dsimp only at h
    split at h
    · cases h
      exact positive_div hone hzero
    · split at h
      · cases h
        exact positive_div hzero hzero
      · cases h

/-- What is read without a minus sign in front has none. -/
theorem positive_of_read? {cs : List Char} (h : read? cs = some x)
    (hsign : ∀ c ∈ cs.head?, c ≠ '-') : Positive x := by
  have hplus : ∃ rest, splitSign cs = (false, rest) := by
    unfold splitSign
    split
    · next rest => exact absurd rfl (hsign '-' rfl)
    · exact ⟨_, rfl⟩
    · exact ⟨_, rfl⟩
  obtain ⟨rest, hrest⟩ := hplus
  rw [read?, hrest] at h
  obtain ⟨y, hy, hx⟩ := Option.map_eq_some_iff.1 h
  rw [if_neg Bool.false_ne_true] at hx
  exact hx ▸ positive_of_magnitude? hy

/-- A double without a minus sign is not below zero. -/
theorem isNegative_of_positive (h : Positive x) : isNegative x = false := by
  have hzero : (0.0 : Float).toModel.unpack = .zero .positive := rfl
  have hparts : ∀ parts, PositiveParts parts → parts.lt (.zero .positive) = false := by
    intro parts hpositive
    cases hpositive <;> rfl
  have hmodel : ¬ x.toModel < (0.0 : Float).toModel := by
    change ¬ x.toModel.unpack.lt (0.0 : Float).toModel.unpack = true
    rw [hzero, hparts _ h]
    exact Bool.false_ne_true
  have hlt : ¬ Float.lt x 0.0 = true := of_decide_eq_false (by simp [Float.lt, hmodel])
  exact decide_eq_false hlt

end Spreadsheet.Number
