import Spreadsheet.Grid.Column

/-!
# Places in the grid

A cell lies at a row and a column, both counted from zero. Its canonical name has no anchors, no
small letters and no leading zeros. Cells are listed row by row, and from left to right within a
row.

## Main results

* `Position` has a lawful linear order, so that it can be the key of an ordered map.
-/

namespace Spreadsheet

/-- A place in the grid; rows and columns count from zero. -/
structure Position where
  row : Nat
  col : Nat
  deriving DecidableEq, Repr

namespace Position

/-- Whether the place belongs to the grid. -/
def inGrid (p : Position) : Bool :=
  p.row < maxRows && p.col < maxColumns

theorem inGrid_iff {p : Position} : p.inGrid = true ↔ p.row < maxRows ∧ p.col < maxColumns := by
  simp [inGrid]

/-- The canonical name: column letters and row number. -/
def name (p : Position) : String :=
  Column.letters p.col ++ toString (p.row + 1)

/-- Row by row, and from left to right within a row. -/
def compareRowMajor : Position → Position → Ordering :=
  compareLex (compareOn row) (compareOn col)

instance : Ord Position := ⟨compareRowMajor⟩

instance : Std.TransOrd Position :=
  inferInstanceAs (Std.TransCmp (compareLex (compareOn row) (compareOn col)))

instance : Std.LawfulEqOrd Position where
  eq_of_compare {p q} h := by
    have h : (compare p.row q.row).then (compare p.col q.col) = .eq := h
    rw [Ordering.then_eq_eq, Nat.compare_eq_eq, Nat.compare_eq_eq] at h
    cases p
    cases q
    simp_all

end Position

end Spreadsheet
