import Spreadsheet.Proofs.Grid.Names
import Mathlib.Data.List.TakeWhile

/-!
# The case of letters in numbers

The only letters in a numeral are those of its exponent, and the words for numbers that are not
finite can be written in any case. So the case of letters makes no difference to a number.

## Main results

* `read?_map_toUpper`: a number is read alike in any case.
-/

namespace Spreadsheet.Number

variable {cs : List Char}

theorem takeWhile_isDigit_map_toUpper (cs : List Char) :
    (cs.map Char.toUpper).takeWhile Char.isDigit = cs.takeWhile Char.isDigit := by
  have hsame : cs.takeWhile (Char.isDigit ∘ Char.toUpper) = cs.takeWhile Char.isDigit :=
    congrArg (cs.takeWhile ·) (funext Text.isDigit_toUpper)
  rw [List.takeWhile_map, hsame]
  exact Text.map_toUpper_of_isDigit fun c hc => List.mem_takeWhile_imp hc

theorem dropWhile_isDigit_map_toUpper (cs : List Char) :
    (cs.map Char.toUpper).dropWhile Char.isDigit =
      (cs.dropWhile Char.isDigit).map Char.toUpper := by
  have hsame : cs.dropWhile (Char.isDigit ∘ Char.toUpper) = cs.dropWhile Char.isDigit :=
    congrArg (cs.dropWhile ·) (funext Text.isDigit_toUpper)
  rw [List.dropWhile_map, hsame]

theorem splitSign_map_toUpper (cs : List Char) :
    splitSign (cs.map Char.toUpper) =
      ((splitSign cs).1, (splitSign cs).2.map Char.toUpper) := by
  cases cs with
  | nil => rfl
  | cons c rest =>
    by_cases hminus : c = '-'
    · rw [hminus]; rfl
    · by_cases hplus : c = '+'
      · rw [hplus]; rfl
      · have hminus' : c.toUpper ≠ '-' := by rwa [Ne, Text.toUpper_eq_iff (by decide)]
        have hplus' : c.toUpper ≠ '+' := by rwa [Ne, Text.toUpper_eq_iff (by decide)]
        simp [splitSign, hminus, hplus, hminus', hplus']

theorem exponentValue?_map_toUpper (cs : List Char) :
    exponentValue? (cs.map Char.toUpper) = exponentValue? cs := by
  cases cs with
  | nil => rfl
  | cons e rest =>
    have hletter : e.toUpper.toLower = e.toLower := Text.apply_toUpper Char.toLower (by decide) e
    have hdigits : ∀ ds : List Char,
        (ds.map Char.toUpper).all Char.isDigit = ds.all Char.isDigit := by
      intro ds
      rw [List.all_map]
      exact congrArg ds.all (funext Text.isDigit_toUpper)
    rw [List.map_cons, exponentValue?, exponentValue?, splitSign_map_toUpper]
    dsimp only
    rw [hletter, List.isEmpty_map, hdigits]
    split
    · next hall =>
      simp only [Bool.and_eq_true, List.all_eq_true] at hall
      rw [Text.map_toUpper_of_isDigit hall.2]
    · rfl

theorem decimal?_map_toUpper (cs : List Char) : decimal? (cs.map Char.toUpper) = decimal? cs := by
  rw [decimal?, decimal?, takeWhile_isDigit_map_toUpper, dropWhile_isDigit_map_toUpper]
  cases cs.dropWhile Char.isDigit with
  | nil => rfl
  | cons c rest =>
    by_cases hpoint : c = '.'
    · have hupper : ('.' : Char).toUpper = '.' := by decide
      simp only [hpoint, hupper, List.map_cons, takeWhile_isDigit_map_toUpper,
        dropWhile_isDigit_map_toUpper, exponentValue?_map_toUpper]
    · have hpoint' : c.toUpper ≠ '.' := by rwa [Ne, Text.toUpper_eq_iff (by decide)]
      have htail :
          exponentValue? (c.toUpper :: rest.map Char.toUpper) = exponentValue? (c :: rest) :=
        exponentValue?_map_toUpper (c :: rest)
      simp [hpoint, hpoint', htail]

theorem magnitude?_map_toUpper (cs : List Char) :
    magnitude? (cs.map Char.toUpper) = magnitude? cs := by
  have hword : (cs.map Char.toUpper).map Char.toLower = cs.map Char.toLower := by
    rw [List.map_map]
    exact List.map_congr_left fun c _ => Text.apply_toUpper Char.toLower (by decide) c
  rw [magnitude?, magnitude?, decimal?_map_toUpper, hword]

/-- A number is read alike in any case. -/
theorem read?_map_toUpper (cs : List Char) : read? (cs.map Char.toUpper) = read? cs := by
  rw [read?, read?, splitSign_map_toUpper]
  dsimp only
  rw [magnitude?_map_toUpper]

end Spreadsheet.Number
