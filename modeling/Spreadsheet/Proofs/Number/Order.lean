import Spreadsheet.Value

/-!
# The order of doubles

Doubles are compared by their parts: by the side of zero on which they lie, then by exponent, and
then by significand, the last two the other way round below zero. Every double but the undefined
ones has a rank made of these three, and comparing two doubles is comparing their ranks. So the
order of doubles has the laws of a lexicographic order. An undefined double counts as equal to every
double: the order is still reversed when two doubles change places, but it is no longer transitive.

## Main results

* `compare_eq_order`: the comparison of parts is that of their ranks.
* `orderNumbers_swap`: the order of two doubles is reversed when they change places.
* `isLE_orderNumbers_trans`: it is transitive but for undefined doubles.
-/

namespace Spreadsheet.Number

open Float.Model (UnpackedFloat)

/-! ## Ranks -/

/-- The place of a double in the order. The side tells the infinities from the numbers below zero,
zero, and the numbers above it. -/
structure Rank where
  side : Nat
  exponent : Int
  significand : Int

/-- By the side, then by the exponent, and then by the significand. -/
def Rank.order : Rank → Rank → Ordering :=
  compareLex (compareOn side) (compareLex (compareOn exponent) (compareOn significand))

instance : Std.TransCmp Rank.order :=
  inferInstanceAs (Std.TransCmp (compareLex _ (compareLex _ _)))

/-- The rank of a double from its parts. An undefined double has the rank of zero, which nothing
depends on. -/
def rank : UnpackedFloat → Rank
  | .infinity .negative => ⟨0, 0, 0⟩
  | .finite .negative m e _ => ⟨1, -e, -m⟩
  | .zero _ | .notANumber => ⟨2, 0, 0⟩
  | .finite .positive m e _ => ⟨3, e, m⟩
  | .infinity .positive => ⟨4, 0, 0⟩

theorem compare_neg (m n : Int) : compare (-m) (-n) = (compare m n).swap := by
  rw [← Std.OrientedOrd.eq_swap]
  simp only [compare, compareOfLessAndEq, Int.neg_lt_neg_iff, Int.neg_inj, eq_comm]

theorem compare_natCast (m n : Nat) : compare (m : Int) (n : Int) = compare m n := by
  simp only [compare, compareOfLessAndEq, Int.ofNat_lt, Int.ofNat_inj]

/-- Comparing the parts of two doubles is comparing their ranks. -/
theorem compare_eq_order {f g : UnpackedFloat} (hf : f.isNaN = false) (hg : g.isNaN = false) :
    f.compare g = some (Rank.order (rank f) (rank g)) := by
  cases f with
  | notANumber => cases hf
  | infinity s =>
    cases g with
    | notANumber => cases hg
    | infinity t => cases s <;> cases t <;> rfl
    | zero t => cases s <;> rfl
    | finite t n k hn => cases s <;> cases t <;> rfl
  | zero s =>
    cases g with
    | notANumber => cases hg
    | infinity t => cases t <;> rfl
    | zero t => rfl
    | finite t n k hn => cases t <;> rfl
  | finite s m e hm =>
    cases g with
    | notANumber => cases hg
    | infinity t => cases s <;> cases t <;> rfl
    | zero t => cases s <;> rfl
    | finite t n k hn =>
      match s, t with
      | .negative, .negative =>
        show some ((compare e k).then (compare m n)).swap =
          some ((compare (-e) (-k)).then (compare (-(m : Int)) (-(n : Int))))
        rw [compare_neg, compare_neg, compare_natCast, Ordering.swap_then]
      | .negative, .positive | .positive, .negative => rfl
      | .positive, .positive =>
        show some ((compare e k).then (compare m n)) =
          some ((compare e k).then (compare (m : Int) (n : Int)))
        rw [compare_natCast]

/-- With an undefined double there is no order. -/
theorem compare_eq_none {f g : UnpackedFloat} (h : f.isNaN = true ∨ g.isNaN = true) :
    f.compare g = none := by
  rcases h with hf | hg
  · cases f with
    | notANumber => rfl
    | infinity | zero | finite => cases hf
  · cases g with
    | notANumber => cases f <;> rfl
    | infinity | zero | finite => cases hg

/-! ## The order of doubles -/

variable {x y z : Float}

/-- The rank of a double. -/
def rankOf (x : Float) : Rank := rank x.toModel.unpack

theorem lt_iff_compare : x < y ↔ x.toModel.unpack.compare y.toModel.unpack = some .lt := by
  have hmodel : x < y ↔
      decide ((x.toModel.unpack.compare y.toModel.unpack == some .lt) = true) = true := Iff.rfl
  rw [hmodel, decide_eq_true_eq, beq_iff_eq]

/-- The order of two doubles that are numbers is that of their ranks. -/
theorem orderNumbers_eq_order (hx : x.isNaN = false) (hy : y.isNaN = false) :
    Value.orderNumbers x y = Rank.order (rankOf x) (rankOf y) := by
  have hlt : x < y ↔ Rank.order (rankOf x) (rankOf y) = .lt := by
    rw [lt_iff_compare, compare_eq_order hx hy, Option.some.injEq]
    rfl
  have hgt : y < x ↔ Rank.order (rankOf x) (rankOf y) = .gt := by
    rw [lt_iff_compare, compare_eq_order hy hx, Option.some.injEq]
    exact Std.OrientedCmp.gt_iff_lt.symm
  rw [Value.orderNumbers]
  cases horder : Rank.order (rankOf x) (rankOf y) with
  | lt => rw [if_pos (hlt.2 horder)]
  | eq => rw [if_neg (by simp [hlt, horder]), if_neg (by simp [hgt, horder])]
  | gt => rw [if_neg (by simp [hlt, horder]), if_pos (hgt.2 horder)]

/-- An undefined double counts as equal to every double. -/
theorem orderNumbers_of_isNaN (h : x.isNaN = true ∨ y.isNaN = true) :
    Value.orderNumbers x y = .eq := by
  have hlt : ¬x < y := by
    rw [lt_iff_compare, compare_eq_none h]
    exact nofun
  have hgt : ¬y < x := by
    rw [lt_iff_compare, compare_eq_none h.symm]
    exact nofun
  rw [Value.orderNumbers, if_neg hlt, if_neg hgt]

/-- The order of two doubles is reversed when they change places. -/
theorem orderNumbers_swap (x y : Float) :
    Value.orderNumbers x y = (Value.orderNumbers y x).swap := by
  by_cases h : x.isNaN = true ∨ y.isNaN = true
  · rw [orderNumbers_of_isNaN h, orderNumbers_of_isNaN h.symm]
    rfl
  · rw [not_or, Bool.not_eq_true, Bool.not_eq_true] at h
    rw [orderNumbers_eq_order h.1 h.2, orderNumbers_eq_order h.2 h.1]
    exact Std.OrientedCmp.eq_swap

/-- The order of doubles that are numbers is transitive. -/
theorem isLE_orderNumbers_trans (hx : x.isNaN = false) (hy : y.isNaN = false)
    (hz : z.isNaN = false) (hxy : (Value.orderNumbers x y).isLE = true)
    (hyz : (Value.orderNumbers y z).isLE = true) : (Value.orderNumbers x z).isLE = true := by
  rw [orderNumbers_eq_order hx hy] at hxy
  rw [orderNumbers_eq_order hy hz] at hyz
  rw [orderNumbers_eq_order hx hz]
  exact Std.TransCmp.isLE_trans hxy hyz

end Spreadsheet.Number
