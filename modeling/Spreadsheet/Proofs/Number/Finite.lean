import Mathlib

/-!
# Doubles that stay finite

A double is finite unless its exponent lies beyond the last one that there is. Rounding raises the
exponent by one at most, and only where it carries into a further digit. So the negative of a finite
double is finite, and so is its quotient by a double that is not less than one. The double of a
positive whole number is not less than one, and it is finite unless the number is astronomically
large.

## Main results

* `isFinite_neg`, `isFinite_div`: negation and division by a large double keep doubles finite.
* `isFinite_ofNat`: the doubles of whole numbers are finite.
-/

namespace Spreadsheet.Number

open Float.Model (UnpackedFloat Format totalExponent)
open Float.Model.UnpackedFloat
open Float.Model.Format (binary64)

/-! ## Packing -/

/-- Parts that are those of a finite double once they are packed. -/
inductive Packable : UnpackedFloat → Prop
  | zero (s : Sign) : Packable (.zero s)
  | finite {s : Sign} {m : Nat} {e : Int} (hm : 0 < m) (he : e ≤ 971) :
    Packable (.finite s m e hm)

theorem isFinite_unpack_components {s : Sign} {exponent : BitVec 11} {mantissa : BitVec 52}
    (h : exponent ≠ -1#11) :
    (unpack binary64 (packComponents binary64 s exponent mantissa)).isFinite = true := by
  rw [unpack]
  dsimp only
  rw [unpackExponent_packComponents, if_neg h]
  split
  · split <;> rfl
  · rfl

theorem isFinite_unpack_pack {f : UnpackedFloat} (h : Packable f) :
    (unpack binary64 (UnpackedFloat.pack binary64 f)).isFinite = true := by
  have hzero : (0#11 : BitVec 11) ≠ -1#11 := by decide
  cases h with
  | zero s => exact isFinite_unpack_components hzero
  | @finite s m e hm he =>
    have hbias : (binary64.exponentBias : Int) = 1023 := rfl
    rw [UnpackedFloat.pack]
    dsimp only
    rw [if_neg (by omega)]
    split
    · refine isFinite_unpack_components fun hall => ?_
      have hnat := congrArg BitVec.toNat hall
      rw [BitVec.toNat_ofNat] at hnat
      have hlast : (-1#11).toNat = 2047 := rfl
      rw [hlast] at hnat
      omega
    · exact isFinite_unpack_components hzero

theorem isFinite_ofModel_pack {f : UnpackedFloat} (h : Packable f) :
    (Float.ofModel (.pack f)).isFinite = true :=
  isFinite_unpack_pack h

/-- The parts of a finite double. -/
inductive FiniteParts : UnpackedFloat → Prop
  | zero (s : Sign) : FiniteParts (.zero s)
  | finite {s : Sign} {m : Nat} {e : Int} (hm : 0 < m) (hsmall : m < 2 ^ 53) (he : e ≤ 971) :
    FiniteParts (.finite s m e hm)

theorem finiteParts_unpack {b : BitVec binary64.numBits}
    (h : (unpack binary64 b).isFinite = true) : FiniteParts (unpack binary64 b) := by
  have hbias : (binary64.exponentBias : Int) + binary64.mantissaBitsWithoutImplicit = 1075 := rfl
  have hmantissa : (unpackMantissa b).toNat < 2 ^ 52 := (unpackMantissa b).isLt
  have hexponent : (unpackExponent b).toNat < 2048 := (unpackExponent b).isLt
  rw [unpack] at h ⊢
  dsimp only at h ⊢
  rw [hbias] at h ⊢
  split at h
  · split at h <;> cases h
  · next hlast =>
    have hne : (unpackExponent b).toNat ≠ 2047 := fun hall => hlast (BitVec.eq_of_toNat_eq hall)
    rw [if_neg hlast]
    split
    · next hfirst =>
      split
      · exact .zero _
      · refine .finite _ (by omega) ?_
        rw [hfirst]
        decide
    · refine .finite _ ?_ (by omega)
      exact (1#1 ++ unpackMantissa b).isLt

/-! ## Rounding -/

theorem mantissa_shiftRight (em : ExtendedMantissa) (k : Nat) :
    (em >>> k).mantissa = em.mantissa / 2 ^ k := by
  induction k with
  | zero =>
    rw [Nat.pow_zero, Nat.div_one]
    rfl
  | succ k ih =>
    have hstep : (em >>> (k + 1)).mantissa = (em >>> k).mantissa / 2 := rfl
    rw [hstep, ih, Nat.div_div_eq_div_mul, Nat.pow_succ]

theorem mantissa_ofMantissaAndAccuracy (m : Nat) (a : Accuracy) :
    (ExtendedMantissa.ofMantissaAndAccuracy m a).mantissa = m := by
  match a with
  | .exact | .inexact .lt | .inexact .eq | .inexact .gt => rfl

/-- Rounding goes to one of the two neighbours, and up only if the first bit behind the point is
set. -/
theorem roundedMantissa_bounds (em : ExtendedMantissa) :
    em.mantissa ≤ em.roundedMantissa ∧ em.roundedMantissa ≤ em.mantissa + em.roundBit.toNat := by
  match em with
  | ⟨m, false, false⟩ => exact ⟨Nat.le_refl m, Nat.le_refl m⟩
  | ⟨m, false, true⟩ => exact ⟨Nat.le_refl m, Nat.le_refl m⟩
  | ⟨m, true, true⟩ => exact ⟨Nat.le_succ m, Nat.le_refl (m + 1)⟩
  | ⟨m, true, false⟩ =>
    change m ≤ m + m % 2 ∧ m + m % 2 ≤ m + 1
    omega

/-- The exponent that a significand is shifted to. -/
def shiftedExponent (m : Nat) (e : Int) : Int :=
  max e (max (totalExponent m e - 53) (-1074))

theorem shiftToTargetExponent_eq (m : Nat) (e : Int) (a : Accuracy) :
    shiftToTargetExponent binary64 m e a =
      (ExtendedMantissa.ofMantissaAndAccuracy m a >>> (shiftedExponent m e - e).toNat,
        shiftedExponent m e) := by
  have htarget : binary64.targetExponent (totalExponent m e) =
      max (totalExponent m e - 53) (-1074) := rfl
  have hamount : (max (totalExponent m e - 53) (-1074) - e).toNat =
      (shiftedExponent m e - e).toNat := by
    rw [shiftedExponent]
    omega
  have hexponent : e + ((shiftedExponent m e - e).toNat : Int) = shiftedExponent m e := by
    rw [shiftedExponent]
    omega
  rw [shiftToTargetExponent, htarget, shiftToExponent, hamount, hexponent]

/-- The significand after the first shift, rounded. -/
def roundedShift (m : Nat) (e : Int) (a : Accuracy) : Nat :=
  (ExtendedMantissa.ofMantissaAndAccuracy m a >>> (shiftedExponent m e - e).toNat).roundedMantissa

/-- Rounding shifts, rounds, and shifts once more if it has carried. -/
theorem roundWithAccuracy_eq (s : Sign) (m : Nat) (e : Int) (a : Accuracy) :
    roundWithAccuracy binary64 s m e a =
      let r := roundedShift m e a
      let last := shiftedExponent r (shiftedExponent m e)
      if h : r / 2 ^ (last - shiftedExponent m e).toNat = 0 then .zero s
      else .finite s (r / 2 ^ (last - shiftedExponent m e).toNat) last (Nat.pos_of_ne_zero h) := by
  rw [roundWithAccuracy, shiftToTargetExponent_eq]
  dsimp only
  rw [shiftToTargetExponent_eq]
  dsimp only
  simp only [mantissa_shiftRight, mantissa_ofMantissaAndAccuracy]
  rfl

/-- What is left of a significand after the first shift fits in a double. -/
theorem div_lt_of_shifted (m : Nat) (e : Int) :
    m / 2 ^ (shiftedExponent m e - e).toNat < 2 ^ 53 := by
  rw [Nat.div_lt_iff_lt_mul (Nat.two_pow_pos _), ← Nat.pow_add]
  refine Nat.lt_of_lt_of_le Nat.lt_log2_self (Nat.pow_le_pow_right (by decide) ?_)
  rw [shiftedExponent, totalExponent]
  omega

theorem roundedShift_bounds (m : Nat) (e : Int) (a : Accuracy) :
    m / 2 ^ (shiftedExponent m e - e).toNat ≤ roundedShift m e a ∧
      roundedShift m e a ≤ m / 2 ^ (shiftedExponent m e - e).toNat + 1 := by
  have hbounds := roundedMantissa_bounds
    (ExtendedMantissa.ofMantissaAndAccuracy m a >>> (shiftedExponent m e - e).toNat)
  rw [mantissa_shiftRight, mantissa_ofMantissaAndAccuracy] at hbounds
  have hbit : ∀ b : Bool, b.toNat ≤ 1 := Bool.toNat_le
  exact ⟨hbounds.1, Nat.le_trans hbounds.2 (Nat.add_le_add_left (hbit _) _)⟩

theorem log2_le_of_lt {n k : Nat} (h : n < 2 ^ (k + 1)) : n.log2 ≤ k := by
  by_cases hn : n = 0
  · rw [hn]
    exact Nat.zero_le k
  · exact Nat.le_of_lt_succ ((Nat.log2_lt hn).2 h)

/-- Rounding raises the exponent by one at most, and only if it carries. -/
theorem packable_round {s : Sign} {m : Nat} {e : Int} {a : Accuracy}
    (h : shiftedExponent m e ≤ 970 ∨
      shiftedExponent m e ≤ 971 ∧ roundedShift m e a < 2 ^ 53) :
    Packable (roundWithAccuracy binary64 s m e a) := by
  have hlow : -1074 ≤ shiftedExponent m e := by
    rw [shiftedExponent]
    omega
  have hlog : (roundedShift m e a).log2 ≤ 53 := by
    refine log2_le_of_lt ?_
    have hshifted := div_lt_of_shifted m e
    have hbounds := (roundedShift_bounds m e a).2
    omega
  rw [roundWithAccuracy_eq]
  dsimp only
  split
  · exact .zero s
  · refine .finite _ ?_
    rw [shiftedExponent, totalExponent]
    rcases h with hsmall | ⟨hlast, hcarry⟩
    · omega
    · have hkept := log2_le_of_lt hcarry
      omega

/-! ## Division -/

/-- The parts of a double that is not less than one, but for its sign. -/
inductive AtLeastOne : UnpackedFloat → Prop
  | infinity (s : Sign) : AtLeastOne (.infinity s)
  | finite {s : Sign} {m : Nat} {e : Int} (hm : 0 < m) (hlog : m.log2 = 52) (he : -52 ≤ e) :
    AtLeastOne (.finite s m e hm)

/-- The quotient of two significands, the second of which has all its bits. -/
theorem log2_quotient {m d : Nat} (k : Nat) (hd : 2 ^ 52 ≤ d) :
    ((m <<< k / d).log2 : Int) ≤ max 0 (m.log2 + k - 52) := by
  have hd0 : 0 < d := Nat.lt_of_lt_of_le (by decide) hd
  have hquotient : m <<< k / d * 2 ^ 52 < 2 ^ (m.log2 + 1 + k) := by
    calc m <<< k / d * 2 ^ 52 ≤ m <<< k / d * d := Nat.mul_le_mul_left _ hd
      _ ≤ m <<< k := Nat.div_mul_le_self _ _
      _ = m * 2 ^ k := Nat.shiftLeft_eq m k
      _ < 2 ^ (m.log2 + 1) * 2 ^ k :=
        Nat.mul_lt_mul_of_pos_right Nat.lt_log2_self (Nat.two_pow_pos k)
      _ = 2 ^ (m.log2 + 1 + k) := (Nat.pow_add 2 _ _).symm
  by_cases hlarge : 52 ≤ m.log2 + k
  · have hsplit : m.log2 + 1 + k = m.log2 + k - 52 + 1 + 52 := by omega
    rw [hsplit, Nat.pow_add] at hquotient
    have hlog := log2_le_of_lt (Nat.lt_of_mul_lt_mul_right hquotient)
    omega
  · have hone : m <<< k / d < 2 ^ (0 + 1) := by
      have hle : 2 ^ (m.log2 + 1 + k) ≤ 2 ^ 52 := Nat.pow_le_pow_right (by decide) (by omega)
      have hlt : m <<< k / d * 2 ^ 52 < 1 * 2 ^ 52 := by omega
      have hzero := Nat.lt_of_mul_lt_mul_right hlt
      omega
    have hlog := log2_le_of_lt hone
    omega

/-- A significand that is shifted by one place is rounded up only if it is odd. -/
theorem roundedShift_of_one {m : Nat} {e : Int} {a : Accuracy} (h : shiftedExponent m e = e + 1) :
    roundedShift m e a ≤ (m + 1) / 2 := by
  have hamount : (shiftedExponent m e - e).toNat = 1 := by omega
  have hbounds := (roundedMantissa_bounds (ExtendedMantissa.ofMantissaAndAccuracy m a >>> 1)).2
  have hbit : (ExtendedMantissa.ofMantissaAndAccuracy m a >>> 1).roundBit = (m % 2 != 0) := by
    change ((ExtendedMantissa.ofMantissaAndAccuracy m a).mantissa % 2 != 0) = _
    rw [mantissa_ofMantissaAndAccuracy]
  rw [mantissa_shiftRight, mantissa_ofMantissaAndAccuracy, hbit] at hbounds
  rw [roundedShift, hamount]
  refine Nat.le_trans hbounds ?_
  rcases Nat.mod_two_eq_zero_or_one m with heven | hodd
  · rw [heven]
    have hnone : ((0 : Nat) != 0).toNat = 0 := rfl
    omega
  · rw [hodd]
    have hone : ((1 : Nat) != 0).toNat = 1 := rfl
    omega

/-- Division by a double that is not less than one does not lead beyond the last exponent. -/
theorem packable_div {f g : UnpackedFloat} (hf : FiniteParts f) (hg : AtLeastOne g) :
    Packable (UnpackedFloat.div binary64 f g) := by
  cases hf with
  | zero s =>
    cases hg with
    | infinity s' => exact .zero _
    | finite _ _ _ => exact .zero _
  | @finite s m e hm hsmall he =>
    cases hg with
    | infinity s' => exact .zero _
    | @finite s' d e' hd hlog he' =>
      have hlogm : m.log2 ≤ 52 := log2_le_of_lt hsmall
      have hd' : 2 ^ 52 ≤ d := hlog ▸ Nat.log2_self_le (Nat.ne_of_gt hd)
      -- the exponent that the quotient is computed with, and its significand
      generalize hq : min (e - e') (max (totalExponent m e - totalExponent d e' - 53) (-1074)) = q
      have hcore : ∃ a, UnpackedFloat.div binary64 (.finite s m e hm) (.finite s' d e' hd) =
          roundWithAccuracy binary64 (s / s') (m <<< (e - e' - q).toNat / d) q a := by
        rw [← hq]
        exact ⟨_, rfl⟩
      obtain ⟨a, hdiv⟩ := hcore
      rw [hdiv]
      rw [totalExponent, totalExponent, hlog] at hq
      have hlogq := log2_quotient (m := m) (e - e' - q).toNat hd'
      have hshifted : shiftedExponent (m <<< (e - e' - q).toNat / d) q ≤ 971 := by
        rw [shiftedExponent, totalExponent]
        omega
      refine packable_round ?_
      by_cases hlast : shiftedExponent (m <<< (e - e' - q).toNat / d) q ≤ 970
      · exact .inl hlast
      · -- the quotient can be as large as the dividend only if that is the last exponent's
        have hvalues : m.log2 = 52 ∧ e = 971 ∧ e' = -52 ∧ q = 970 := by
          rw [shiftedExponent, totalExponent] at hlast
          omega
        obtain ⟨_, rfl, rfl, rfl⟩ := hvalues
        refine .inr ⟨hshifted, ?_⟩
        have hround := roundedShift_of_one (a := a)
          (m := m <<< (971 - -52 - 970 : Int).toNat / d) (e := 970) (by omega)
        have hbound : m <<< (971 - -52 - 970 : Int).toNat / d ≤ 2 * m := by
          have hshift : m <<< (971 - -52 - 970 : Int).toNat = 2 * m * 2 ^ 52 := by
            rw [Nat.shiftLeft_eq]
            change m * 2 ^ 53 = _
            omega
          rw [hshift]
          calc 2 * m * 2 ^ 52 / d ≤ 2 * m * 2 ^ 52 / 2 ^ 52 :=
                Nat.div_le_div_left hd' (by decide)
            _ = 2 * m := Nat.mul_div_cancel _ (by decide)
        omega

/-! ## Normal doubles -/

/-- The parts of a normal double with an exponent between two bounds. -/
inductive Normal (least most : Int) : UnpackedFloat → Prop
  | finite {s : Sign} {m : Nat} {e : Int} (hm : 0 < m) (hlog : m.log2 = 52) (hleast : least ≤ e)
    (hmost : e ≤ most) : Normal least most (.finite s m e hm)

variable {least most : Int} {f : UnpackedFloat}

theorem Normal.mono (h : Normal least most f) {least' most' : Int} (hleast : least' ≤ least)
    (hmost : most ≤ most') : Normal least' most' f := by
  cases h with
  | finite hm hlog hl hm' => exact .finite hm hlog (Int.le_trans hleast hl) (Int.le_trans hm' hmost)

theorem Normal.packable (h : Normal least most f) (hmost : most ≤ 971) : Packable f := by
  cases h with
  | finite hm _ _ he => exact .finite hm (Int.le_trans he hmost)

theorem Normal.atLeastOne (h : Normal least most f) (hleast : -52 ≤ least) : AtLeastOne f := by
  cases h with
  | finite hm hlog he _ => exact .finite hm hlog (Int.le_trans hleast he)

/-- The significand of a normal double has all its bits. -/
theorem log2_one_append (mantissa : BitVec 52) : (1#1 ++ mantissa).toNat.log2 = 52 := by
  have hbits : (1#1 ++ mantissa).toNat = 1 <<< 52 ||| mantissa.toNat := BitVec.toNat_append ..
  have hlow : 2 ^ 52 ≤ (1#1 ++ mantissa).toNat := hbits ▸ Nat.left_le_or
  have hhigh : (1#1 ++ mantissa).toNat < 2 ^ 53 := (1#1 ++ mantissa).isLt
  exact (Nat.log2_eq_iff (by omega)).2 ⟨hlow, hhigh⟩

theorem normal_unpack_components {s : Sign} {exponent : BitVec 11} {mantissa : BitVec 52}
    (hfirst : exponent ≠ 0#11) (hlast : exponent ≠ -1#11) :
    Normal (exponent.toNat - 1075) (exponent.toNat - 1075)
      (unpack binary64 (packComponents binary64 s exponent mantissa)) := by
  have hbias : (binary64.exponentBias : Int) + binary64.mantissaBitsWithoutImplicit = 1075 := rfl
  rw [unpack]
  dsimp only
  rw [hbias, unpackExponent_packComponents, if_neg hlast, if_neg hfirst]
  exact .finite _ (log2_one_append _) (Int.le_refl _) (Int.le_refl _)

/-- A normal double has the same exponent once it is packed and unpacked. -/
theorem Normal.unpack_pack (h : Normal least most f) (hleast : -1074 ≤ least)
    (hmost : most ≤ 971) :
    Normal least most (unpack binary64 (UnpackedFloat.pack binary64 f)) := by
  cases h with
  | @finite s m e hm hlog hl hm' =>
    have hbias : (binary64.exponentBias : Int) = 1023 := rfl
    have hbits : (binary64.mantissaBitsWithoutImplicit : Int) = 52 := rfl
    obtain ⟨biased, hbiased⟩ : ∃ biased, biased = (e + 1023 + 52).toNat := ⟨_, rfl⟩
    have hpack : UnpackedFloat.pack binary64 (.finite s m e hm) =
        packComponents binary64 s (BitVec.ofNat 11 biased) (BitVec.ofNat 52 m) := by
      have hnormal : m.log2 + 1 = 53 := by omega
      have hexponents : ¬ 2 ^ 11 ≤ biased + 1 := by omega
      rw [UnpackedFloat.pack, hbias, hbits, ← hbiased]
      exact (if_neg hexponents).trans (if_pos hnormal)
    have hexponent : (BitVec.ofNat 11 biased).toNat = biased := by
      rw [BitVec.toNat_ofNat]
      exact Nat.mod_eq_of_lt (by omega)
    rw [hpack]
    refine (normal_unpack_components (fun hfirst => ?_) fun hlast => ?_).mono ?_ ?_
    · have hzero : (BitVec.ofNat 11 biased).toNat = 0 := congrArg BitVec.toNat hfirst
      omega
    · have hall : (BitVec.ofNat 11 biased).toNat = 2047 := congrArg BitVec.toNat hlast
      omega
    · omega
    · omega

/-- Rounding a significand that has all its bits keeps the exponent of its first bit, or raises it
by one. -/
theorem normal_round (s : Sign) {m : Nat} {e : Int} (a : Accuracy) (hlog : 52 ≤ m.log2)
    (hlow : -1021 ≤ totalExponent m e) :
    Normal (totalExponent m e - 53) (totalExponent m e - 52)
      (roundWithAccuracy binary64 s m e a) := by
  have hm : m ≠ 0 := fun hzero => by
    rw [hzero] at hlog
    exact absurd hlog (by decide)
  have hfirst : shiftedExponent m e = totalExponent m e - 53 := by
    rw [shiftedExponent, totalExponent] at *
    omega
  have hamount : (shiftedExponent m e - e).toNat = m.log2 - 52 := by
    rw [hfirst, totalExponent]
    omega
  have hbounds := roundedShift_bounds m e a
  have hhigh := div_lt_of_shifted m e
  have hhalf : 2 ^ 52 ≤ m / 2 ^ (shiftedExponent m e - e).toNat := by
    rw [hamount, Nat.le_div_iff_mul_le (Nat.two_pow_pos _), ← Nat.pow_add]
    have hsum : 52 + (m.log2 - 52) = m.log2 := by omega
    rw [hsum]
    exact Nat.log2_self_le hm
  rw [roundWithAccuracy_eq, hfirst]
  generalize roundedShift m e a = r at hbounds
  generalize totalExponent m e = t at hlow
  dsimp only
  by_cases hcarry : r < 2 ^ 53
  · have hr : r.log2 = 52 := (Nat.log2_eq_iff (by omega)).2 ⟨by omega, hcarry⟩
    have hlast : shiftedExponent r (t - 53) = t - 53 := by
      rw [shiftedExponent, totalExponent, hr]
      omega
    simp only [hlast, Int.sub_self, Int.toNat_zero, Nat.pow_zero, Nat.div_one]
    rw [dif_neg (by omega)]
    exact .finite _ hr (Int.le_refl _) (by omega)
  · obtain rfl : r = 2 ^ 53 := by omega
    have hlast : shiftedExponent (2 ^ 53) (t - 53) = t - 52 := by
      rw [shiftedExponent, totalExponent, Nat.log2_two_pow]
      omega
    have hone : (t - 52 - (t - 53)).toNat = 1 := by omega
    simp only [hlast, hone]
    exact .finite _ (by decide +kernel) (by omega) (Int.le_refl _)

theorem log2_shiftLeft {m : Nat} (hm : m ≠ 0) (k : Nat) : (m <<< k).log2 = m.log2 + k := by
  rw [Nat.shiftLeft_eq]
  refine (Nat.log2_eq_iff (Nat.mul_ne_zero hm (Nat.ne_of_gt (Nat.two_pow_pos k)))).2 ⟨?_, ?_⟩
  · rw [Nat.pow_add]
    exact Nat.mul_le_mul_right _ (Nat.log2_self_le hm)
  · rw [Nat.add_right_comm, Nat.pow_add]
    exact Nat.mul_lt_mul_of_pos_right Nat.lt_log2_self (Nat.two_pow_pos k)

/-- A significand with too few bits gets more of them before it is rounded. -/
theorem normal_normalized (s : Sign) {m : Nat} {e : Int} (hm : m ≠ 0)
    (hlow : -1021 ≤ totalExponent m e) :
    Normal (totalExponent m e - 53) (totalExponent m e - 52)
      (UnpackedFloat.round binary64 s m e) := by
  obtain ⟨k, hk⟩ : ∃ k, k = (e - max (totalExponent m e - 53) (-1074)).toNat := ⟨_, rfl⟩
  have hround : UnpackedFloat.round binary64 s m e =
      roundWithAccuracy binary64 s (m <<< k) (e - k) .exact := by
    rw [hk]
    rfl
  have hlog := log2_shiftLeft hm k
  have htotal : totalExponent (m <<< k) (e - k) = totalExponent m e := by
    rw [totalExponent, totalExponent, hlog]
    omega
  rw [totalExponent] at hk hlow
  rw [hround, ← htotal]
  refine normal_round s .exact (by omega) ?_
  rw [htotal, totalExponent]
  exact hlow

/-! ## Whole numbers -/

/-- The parts of the double of a positive whole number. -/
theorem normal_ofUnsigned {n : Nat} (hn : 0 < n) :
    Normal (n.log2 - 52) (n.log2 - 51) (UnpackedFloat.ofNat binary64 n) := by
  have hround : UnpackedFloat.ofNat binary64 n =
      UnpackedFloat.round binary64 .positive n 0 := by
    have hcompare : compare (n : Int) 0 = .gt := by
      rw [Int.compare_eq_gt]
      omega
    rw [UnpackedFloat.ofNat, UnpackedFloat.ofInt, UnpackedFloat.normalize, hcompare]
    rfl
  have htotal : totalExponent n 0 = n.log2 + 1 := by rw [totalExponent, Int.add_zero]
  have hnormal := normal_normalized .positive (m := n) (e := 0) (by omega) (by omega)
  rw [hround]
  exact hnormal.mono (by omega) (by omega)

/-- A product with a normal double whose significand is a power of two. -/
theorem Normal.mul_one (h : Normal least most f) (hleast : -1074 ≤ least) {s : Sign}
    (hm : 0 < 2 ^ 52) :
    Normal least (most + 1) (UnpackedFloat.mul binary64 f (.finite s (2 ^ 52) (-52) hm)) := by
  cases h with
  | @finite s' m e hm' hlog hl hmost =>
    have hshift : m * 2 ^ 52 = m <<< 52 := (Nat.shiftLeft_eq m 52).symm
    have hlog' : (m * 2 ^ 52).log2 = 104 := by rw [hshift, log2_shiftLeft (by omega), hlog]
    have htotal : totalExponent (m * 2 ^ 52) (e + -52) = e + 53 := by
      rw [totalExponent, hlog']
      omega
    have hround := normal_round (s' * s) (m := m * 2 ^ 52) (e := e + -52) .exact (by omega)
      (by omega)
    exact hround.mono (by omega) (by omega)

/-- The double of a positive whole number, and the bounds of its exponent. -/
theorem exists_normal_of_ofNat {n : Nat} (hn : 0 < n) :
    ∃ f, Float.ofNat n = Float.ofModel (.pack f) ∧ Normal (n.log2 - 52) (n.log2 - 50) f := by
  have hscientific : Float.ofNat n = Float.ofScientific n false 0 := rfl
  by_cases hsmall : n < 2 ^ 53
  · have hlog := log2_le_of_lt hsmall
    have hproduct : Float.ofNat n = n.toUInt64.toFloat * 1.0 := by
      rw [hscientific, Float.ofScientific, dif_pos ⟨hsmall, by decide⟩]
      rfl
    have hone : (1.0 : Float).toModel.unpack = .finite .positive (2 ^ 52) (-52) (by decide) := by
      rfl
    have hvalue : n.toUInt64.toNat = n := by
      rw [Nat.toUInt64, UInt64.toNat_ofNat']
      exact Nat.mod_eq_of_lt (by omega)
    have hparts : n.toUInt64.toFloat.toModel.unpack =
        unpack binary64 (UnpackedFloat.pack binary64
          (UnpackedFloat.ofNat binary64 n.toUInt64.toNat)) := rfl
    have hnormal := (normal_ofUnsigned hn).unpack_pack (by omega) (by omega)
    refine ⟨_, hproduct, ?_⟩
    rw [hone, hparts, hvalue]
    exact (hnormal.mul_one (by omega) _).mono (Int.le_refl _) (by omega)
  · have hbig : 2 ^ 53 ≤ n := Nat.le_of_not_lt hsmall
    have hlog : 53 ≤ n.log2 := (Nat.le_log2 (by omega)).2 hbig
    have hmodel : Float.ofNat n =
        Float.ofModel (.pack (UnpackedFloat.ofScientific binary64 n 0)) := by
      rw [hscientific, Float.ofScientific, dif_neg (by omega)]
      rfl
    have hround : UnpackedFloat.ofScientific binary64 n 0 =
        roundWithAccuracy binary64 (.positive * .positive) (n <<< 53 * 1) (-53 + 0) .exact := by
      have hbits : ((2 : Int) ^ binary64.exponentBits) = 2048 := rfl
      rw [UnpackedFloat.ofScientific, dif_neg (by omega), hbits, if_neg (by decide),
        if_neg (by omega), if_pos (by decide), UnpackedFloat.mul]
      rfl
    refine ⟨_, hmodel, ?_⟩
    have hlog' : (n <<< 53 * 1).log2 = n.log2 + 53 := by
      rw [Nat.mul_one, log2_shiftLeft (by omega)]
    have htotal : totalExponent (n <<< 53 * 1) (-53 + 0) = n.log2 + 1 := by
      rw [totalExponent, hlog']
      omega
    rw [hround]
    exact (normal_round _ .exact (by omega) (by omega)).mono (by omega) (by omega)

/-! ## What stays finite -/

theorem atLeastOne_of_pack_infinity (s : Sign) :
    AtLeastOne (unpack binary64 (packedInfinity binary64 s)) := by
  cases s with
  | negative => exact .infinity .negative
  | positive => exact .infinity .positive

theorem Normal.atLeastOne_unpack_pack (h : Normal least most f) (hleast : -52 ≤ least) :
    AtLeastOne (unpack binary64 (UnpackedFloat.pack binary64 f)) := by
  cases h with
  | @finite s m e hm hlog hl hmost =>
    by_cases hfits : e ≤ 971
    · have hnormal : Normal e e (.finite s m e hm) :=
        .finite hm hlog (Int.le_refl e) (Int.le_refl e)
      exact (hnormal.unpack_pack (by omega) hfits).atLeastOne (by omega)
    · have hbias : (binary64.exponentBias : Int) = 1023 := rfl
      have hbits : (binary64.mantissaBitsWithoutImplicit : Int) = 52 := rfl
      have hpack : UnpackedFloat.pack binary64 (.finite s m e hm) = packedInfinity binary64 s := by
        have hexponents : 2 ^ 11 ≤ (e + 1023 + 52).toNat + 1 := by omega
        rw [UnpackedFloat.pack, hbias, hbits]
        exact if_pos hexponents
      rw [hpack]
      exact atLeastOne_of_pack_infinity s

/-- The double of a positive whole number is not less than one. -/
theorem atLeastOne_ofNat {n : Nat} (hn : 0 < n) : AtLeastOne (Float.ofNat n).toModel.unpack := by
  obtain ⟨f, hf, hnormal⟩ := exists_normal_of_ofNat hn
  rw [hf]
  exact hnormal.atLeastOne_unpack_pack (by omega)

/-- The double of a whole number is finite, unless the number is beyond all words of a machine. -/
theorem isFinite_ofNat {n : Nat} (hn : n < 2 ^ 64) : (Float.ofNat n).isFinite = true := by
  by_cases hzero : n = 0
  · rw [hzero]
    rfl
  · obtain ⟨f, hf, hnormal⟩ := exists_normal_of_ofNat (Nat.pos_of_ne_zero hzero)
    have hlog : n.log2 ≤ 63 := log2_le_of_lt hn
    rw [hf]
    exact isFinite_ofModel_pack (hnormal.packable (by omega))

theorem isFinite_neg {x : Float} (h : x.isFinite = true) : (-x).isFinite = true := by
  have hparts : FiniteParts x.toModel.unpack := finiteParts_unpack h
  have hneg : -x = Float.ofModel (.pack x.toModel.unpack.neg) := rfl
  rw [hneg]
  refine isFinite_ofModel_pack ?_
  generalize x.toModel.unpack = f at hparts
  cases hparts with
  | zero s => exact .zero _
  | finite hm _ he => exact .finite hm he

theorem isFinite_div {x y : Float} (hx : x.isFinite = true) (hy : AtLeastOne y.toModel.unpack) :
    (x / y).isFinite = true := by
  have hdiv : x / y =
      Float.ofModel (.pack (UnpackedFloat.div binary64 x.toModel.unpack y.toModel.unpack)) := rfl
  rw [hdiv]
  exact isFinite_ofModel_pack (packable_div (finiteParts_unpack hx) hy)

end Spreadsheet.Number
