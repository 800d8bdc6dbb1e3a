import Spreadsheet.Grid.Range

/-!
# Walking through a range

A cursor that starts at the first cell of a range passes its cells in the order in which they are
listed, and passes every cell of the rectangle. Since it passes whole columns, a range that is cut
between two columns is passed one part after the other.

## Main results

* `cursor_ahead`: the walk through a range is the list of its cells.
* `mem_cells_iff`: a place is listed exactly if it lies in the rectangle.
* `cells_eq_append`: the cells of a range are those up to a column and those beyond it.
-/

namespace Spreadsheet.Range

/-! ## Cells in the list -/

/-- The cells of one column, from a row on. -/
def columnFrom (row count col : Nat) : List Position :=
  (List.range' row count).map fun row => ⟨row, col⟩

/-- The cells of whole columns of a range, from a column on. -/
def columnsFrom (r : Range) (col count : Nat) : List Position :=
  (List.range' col count).flatMap (columnFrom r.first.row r.rows)

theorem columnFrom_succ (row count col : Nat) :
    columnFrom row (count + 1) col = ⟨row, col⟩ :: columnFrom (row + 1) count col := by
  simp [columnFrom, List.range'_succ]

theorem columnsFrom_succ (r : Range) (col count : Nat) :
    r.columnsFrom col (count + 1) =
      columnFrom r.first.row r.rows col ++ r.columnsFrom (col + 1) count := by
  simp [columnsFrom, List.range'_succ]

theorem cells_eq_columnsFrom (r : Range) : r.cells = r.columnsFrom r.first.col r.cols := rfl

/-- A place is listed exactly if it lies in the rectangle. -/
theorem mem_cells_iff {r : Range} {p : Position} : p ∈ r.cells ↔ r.contains p = true := by
  have hrow := r.row_le
  have hcol := r.col_le
  obtain ⟨row, col⟩ := p
  simp only [cells, rows, cols, contains, List.mem_flatMap, List.mem_map, List.mem_range'_1,
    Position.mk.injEq, Bool.and_eq_true, decide_eq_true_eq]
  constructor
  · rintro ⟨c, hc, i, hi, rfl, rfl⟩
    omega
  · intro h
    exact ⟨col, by omega, row, by omega, rfl, rfl⟩

namespace Cursor

/-- The cells that a cursor has still to pass. -/
def ahead (c : Cursor) : List Position :=
  (c.take c.remaining).1

theorem ahead_of_remaining_eq_zero {c : Cursor} (h : c.remaining = 0) : c.ahead = [] := by
  rw [ahead, h, take]

/-- As long as cells remain, the next one is passed first. -/
theorem ahead_of_remaining_ne_zero {c : Cursor} (h : c.remaining ≠ 0) :
    c.ahead = c.next :: c.advance.ahead := by
  obtain ⟨n, hn⟩ := Nat.exists_eq_succ_of_ne_zero h
  have hadvance : c.advance.remaining = n := by simp [advance, hn]
  rw [ahead, hn, take, if_neg h, ahead, hadvance]

/-- From any cell of a range on, a cursor passes the rest of the column and then the columns that
are left. The induction is on the number of cells that remain; the two cases are those of
`following`. -/
theorem ahead_eq {c : Cursor} {row col left : Nat} (hnext : c.next = ⟨row, col⟩)
    (hlow : c.range.first.row ≤ row) (hhigh : row ≤ c.range.last.row)
    (hremaining : c.remaining = (c.range.last.row + 1 - row) + c.range.rows * left) :
    c.ahead = columnFrom row (c.range.last.row + 1 - row) col
      ++ c.range.columnsFrom (col + 1) left := by
  induction hn : c.remaining generalizing c row col left with
  | zero => omega
  | succ n ih =>
    rw [ahead_of_remaining_ne_zero (by omega)]
    have hadvance : c.advance.remaining = n := by simp [advance, hn]
    by_cases hlast : row = c.range.last.row
    · have hfollowing : c.advance.next = ⟨c.range.first.row, col + 1⟩ := by
        simp [advance, following, hnext, hlast]
      have hcolumn : columnFrom row (c.range.last.row + 1 - row) col = [⟨row, col⟩] := by
        rw [show c.range.last.row + 1 - row = 0 + 1 by omega, columnFrom_succ]
        rfl
      rw [hcolumn, hnext]
      cases left with
      | zero =>
        have hzero : n = 0 := by omega
        rw [ahead_of_remaining_eq_zero (by omega)]
        rfl
      | succ left =>
        have hrows : c.range.rows = c.range.last.row + 1 - c.range.first.row := by
          simp only [rows]
          omega
        have hleft : c.advance.remaining =
            (c.range.last.row + 1 - c.range.first.row) + c.range.rows * left := by
          rw [Nat.mul_succ] at hremaining
          omega
        rw [ih hfollowing (Nat.le_refl _) c.range.row_le hleft hadvance, columnsFrom_succ, hrows]
        rfl
    · have hfollowing : c.advance.next = ⟨row + 1, col⟩ := by
        simp [advance, following, hnext, hlast]
      have hbelow : row + 1 ≤ c.range.last.row := by omega
      have hleft : c.advance.remaining =
          (c.range.last.row + 1 - (row + 1)) + c.range.rows * left := by omega
      rw [ih hfollowing (Nat.le_succ_of_le hlow) hbelow hleft hadvance, hnext,
        show c.range.last.row + 1 - row = (c.range.last.row + 1 - (row + 1)) + 1 by omega,
        columnFrom_succ]
      rfl

end Cursor

/-- The walk through a range is the list of its cells. -/
theorem cursor_ahead (r : Range) : r.cursor.ahead = r.cells := by
  obtain ⟨left, hleft⟩ : ∃ left, r.cols = left + 1 := ⟨r.last.col - r.first.col, rfl⟩
  have hrows : r.rows = r.last.row + 1 - r.first.row := by
    have hrow := r.row_le
    simp only [rows]
    omega
  have hremaining : r.cursor.remaining =
      (r.last.row + 1 - r.first.row) + r.rows * left := by
    simp only [cursor, count, hleft, Nat.mul_succ]
    omega
  have hwalk : r.cursor.ahead = columnFrom r.first.row (r.last.row + 1 - r.first.row) r.first.col
      ++ r.columnsFrom (r.first.col + 1) left :=
    Cursor.ahead_eq rfl (Nat.le_refl _) r.row_le hremaining
  rw [hwalk, cells_eq_columnsFrom, hleft, columnsFrom_succ, hrows]

/-! ## Cutting a range between two columns -/

/-- The part of a range up to a column. -/
def upTo (r : Range) (col : Nat) (h : r.first.col ≤ col) : Range where
  first := r.first
  last := ⟨r.last.row, col⟩
  row_le := r.row_le
  col_le := h

/-- The part of a range beyond a column. -/
def beyond (r : Range) (col : Nat) (h : col < r.last.col) : Range where
  first := ⟨r.first.row, col + 1⟩
  last := r.last
  row_le := r.row_le
  col_le := h

section Cut

variable {r : Range} {col : Nat} (hleft : r.first.col ≤ col) (hright : col < r.last.col)

theorem columnsFrom_add (r : Range) (col m n : Nat) :
    r.columnsFrom col (m + n) = r.columnsFrom col m ++ r.columnsFrom (col + m) n := by
  rw [columnsFrom, ← List.range'_append_1, List.flatMap_append]
  rfl

theorem cols_eq_add : r.cols = (r.upTo col hleft).cols + (r.beyond col hright).cols := by
  simp only [cols, upTo, beyond]
  omega

/-- The cells of a range are those up to a column and those beyond it. -/
theorem cells_eq_append : r.cells = (r.upTo col hleft).cells ++ (r.beyond col hright).cells := by
  have hnext : r.first.col + (r.upTo col hleft).cols = col + 1 := by
    simp only [cols, upTo]
    omega
  rw [cells_eq_columnsFrom, cols_eq_add hleft hright, columnsFrom_add, hnext]
  rfl

theorem count_eq_add : r.count = (r.upTo col hleft).count + (r.beyond col hright).count := by
  rw [count, cols_eq_add hleft hright, Nat.mul_add]
  rfl

end Cut

end Spreadsheet.Range
