import Spreadsheet.Number.Shortest

/-!
# Plain digits

A finite double without a minus sign is written as digits with at most one point among them. The
digits before a point and those behind it are never missing, so the text can be cut off only where
its digits end.

## Main results

* `plain_render`: the text of a finite double without a minus sign is plain.
-/

namespace Spreadsheet.Number

/-- Digits with at most one point, and not at the ends. -/
inductive Plain : List Char → Prop
  | whole {ds : List Char} (hne : ds ≠ []) (hdigits : ∀ c ∈ ds, c.isDigit = true) : Plain ds
  | point {ds fs : List Char} (hne : ds ≠ []) (hdigits : ∀ c ∈ ds, c.isDigit = true)
    (hne' : fs ≠ []) (hfraction : ∀ c ∈ fs, c.isDigit = true) : Plain (ds ++ '.' :: fs)

theorem isDigit_of_mem_zeros {n : Nat} {c : Char} (h : c ∈ List.replicate n '0') :
    c.isDigit = true := by
  rw [List.eq_of_mem_replicate h]
  rfl

/-- Digits with a point put in before some of them, but not before all. -/
theorem plain_of_places {ds : List Char} {places : Nat} (hdigits : ∀ c ∈ ds, c.isDigit = true)
    (hplaces : 0 < places) (hlength : places < ds.length) :
    Plain (ds.take (ds.length - places) ++ '.' :: ds.drop (ds.length - places)) := by
  refine .point ?_ (fun c hc => hdigits c (List.mem_of_mem_take hc)) ?_
    fun c hc => hdigits c (List.mem_of_mem_drop hc)
  · rw [← List.length_pos_iff, List.length_take]
    omega
  · rw [← List.length_pos_iff, List.length_drop]
    omega

/-- A numeral is written with plain digits. -/
theorem plain_decimal (d : Decimal) : Plain d.plain := by
  have hdigits : ∀ c ∈ Nat.toDigits 10 d.digits, c.isDigit = true :=
    fun c => Nat.isDigit_of_mem_toDigits (by decide) (by decide)
  have hne : Nat.toDigits 10 d.digits ≠ [] := Nat.toDigits_ne_nil
  rw [Decimal.plain]
  split
  · refine .whole (by simp [hne]) fun c hc => ?_
    rcases List.mem_append.1 hc with hfirst | hzero
    · exact hdigits c hfirst
    · exact isDigit_of_mem_zeros hzero
  · next hexponent =>
    refine plain_of_places (fun c hc => ?_) (by omega) ?_
    · rcases List.mem_append.1 hc with hzero | hlast
      · exact isDigit_of_mem_zeros hzero
      · exact hdigits c hlast
    · rw [List.length_append, List.length_replicate]
      omega

/-! ## Finite doubles -/

theorem not_isNaN_of_isFinite {x : Float} (h : x.isFinite = true) : x.isNaN = false := by
  have hparts : x.toModel.unpack.isFinite = true := h
  change x.toModel.unpack.isNaN = false
  cases hx : x.toModel.unpack with
  | notANumber =>
    rw [hx] at hparts
    cases hparts
  | _ => rfl

theorem not_isInf_of_isFinite {x : Float} (h : x.isFinite = true) : x.isInf = false := by
  have hparts : x.toModel.unpack.isFinite = true := h
  change x.toModel.unpack.isInf = false
  cases hx : x.toModel.unpack with
  | infinity s =>
    rw [hx] at hparts
    cases hparts
  | _ => rfl

/-- The text of a finite double without a minus sign is plain. -/
theorem plain_render {x : Float} (hfinite : x.isFinite = true) (hsign : isNegative x = false) :
    Plain (render x).toList := by
  rw [render, not_isNaN_of_isFinite hfinite, not_isInf_of_isFinite hfinite, hsign]
  simp only [Bool.false_eq_true, if_false]
  split
  · change Plain ['0']
    exact .whole (by simp) (by simp)
  · rw [List.nil_append, String.toList_ofList]
    exact plain_decimal _

end Spreadsheet.Number
