import Spreadsheet.Proofs.Grid.Spellings
import Spreadsheet.Proofs.Grid.Walk
import Spreadsheet.Proofs.Number.MachineWords
import Mathlib.Data.List.Nodup

/-!
# The expansion of a range

The cells of a range are listed column by column, so the place of a cell in the list is its row and
its column in base `rows`, both counted from the corner. A cursor passes this list and always knows
what is left of it. The numbers in this are those of machine words: rows take 32 bits, columns 16,
and the count of cells 64. The cells that a cursor has to pass lie in the grid, and from this alone
none of its steps leaves the words.

## Main results

* `getElem?_cells`: the cell at a place in the list.
* `take_eq`: what a cursor has passed after some steps, and how much is left.
* `takeChecked_eq`: no step of a cursor overflows.
* `exact_of_parse`: the expansion of a range between two addresses is exact.
-/

namespace Spreadsheet

namespace Range

variable {r : Range}

/-! ## The list of cells -/

/-- The cell at a place in whole columns. By induction on the number of columns. -/
theorem getElem?_columnsFrom {col count i : Nat} (h : i < r.rows * count) :
    (r.columnsFrom col count)[i]? = some ⟨r.first.row + i % r.rows, col + i / r.rows⟩ := by
  induction count generalizing col i with
  | zero => simp at h
  | succ count ih =>
    have hlength : (columnFrom r.first.row r.rows col).length = r.rows := by simp [columnFrom]
    rw [columnsFrom_succ]
    by_cases hfirst : i < r.rows
    · rw [List.getElem?_append_left (by omega), Nat.mod_eq_of_lt hfirst, Nat.div_eq_of_lt hfirst]
      simp [columnFrom, hfirst]
    · obtain ⟨j, rfl⟩ : ∃ j, i = j + r.rows := ⟨i - r.rows, by omega⟩
      have hrest : j < r.rows * count := by
        rw [Nat.mul_succ] at h
        omega
      have hrows : 0 < r.rows := Nat.succ_pos _
      have hcol : col + 1 + j / r.rows = col + (j / r.rows + 1) := by omega
      rw [List.getElem?_append_right (by omega), hlength, Nat.add_sub_cancel, ih hrest,
        Nat.add_mod_right, Nat.add_div_right j hrows, hcol]

theorem length_columnsFrom (r : Range) (col count : Nat) :
    (r.columnsFrom col count).length = r.rows * count := by
  induction count generalizing col with
  | zero => rfl
  | succ count ih =>
    rw [columnsFrom_succ, List.length_append, ih, Nat.mul_succ, Nat.add_comm]
    simp [columnFrom]

theorem length_cells (r : Range) : r.cells.length = r.count :=
  r.length_columnsFrom r.first.col r.cols

/-- The cell at a place in the list of a range's cells. -/
theorem getElem?_cells {i : Nat} (h : i < r.count) :
    r.cells[i]? = some ⟨r.first.row + i % r.rows, r.first.col + i / r.rows⟩ :=
  getElem?_columnsFrom h

/-- No cell is listed twice: its place in the list can be told from its row and column. -/
theorem nodup_cells (r : Range) : r.cells.Nodup := by
  rw [List.nodup_iff_getElem?_ne_getElem?]
  intro i j hij hj hsame
  rw [length_cells] at hj
  rw [getElem?_cells (hij.trans hj), getElem?_cells hj, Option.some.injEq,
    Position.mk.injEq] at hsame
  have hmod : i % r.rows = j % r.rows := by omega
  have hdiv : i / r.rows = j / r.rows := by omega
  have hi := Nat.div_add_mod i r.rows
  rw [hdiv, hmod, Nat.div_add_mod] at hi
  omega

/-- The cells of a range of the grid have different names. -/
theorem nodup_names (h : r.last.inGrid = true) : r.names.Nodup := by
  have hgrid : ∀ p ∈ r.cells, p.inGrid = true :=
    fun p hp => inGrid_of_contains h (mem_cells_iff.1 hp)
  exact r.nodup_cells.map_on fun p hp q hq hname =>
    Position.eq_of_name_eq (hgrid p hp) (hgrid q hq) hname

/-! ## Steps of a cursor -/

/-- After some steps a cursor has passed that many of the cells that were ahead of it, and knows how
many are left. By induction on the number of steps. -/
theorem Cursor.take_eq (c : Cursor) (k : Nat) :
    (c.take k).1 = c.ahead.take k ∧ (c.take k).2.remaining = c.remaining - k := by
  induction k generalizing c with
  | zero => exact ⟨rfl, rfl⟩
  | succ k ih =>
    rw [take]
    by_cases hend : c.remaining = 0
    · rw [if_pos hend, ahead_of_remaining_eq_zero hend]
      dsimp only
      exact ⟨rfl, by omega⟩
    · obtain ⟨hcells, hremaining⟩ := ih c.advance
      have hadvance : c.advance.remaining = c.remaining - 1 := rfl
      rw [if_neg hend, ahead_of_remaining_ne_zero hend]
      dsimp only
      rw [hcells, hremaining, hadvance]
      exact ⟨rfl, by omega⟩

/-! ## Counting in machine words -/

section Words

variable (h : r.last.inGrid = true)

/-- The number of rows, in 32 bits. -/
def rowsChecked (r : Range) : Option Nat :=
  Checked.span 32 r.first.row r.last.row

/-- The number of columns, in 16 bits. -/
def colsChecked (r : Range) : Option Nat :=
  Checked.span 16 r.first.col r.last.col

/-- The number of cells, in 64 bits. -/
def countChecked (r : Range) : Option Nat := do
  Checked.mul 64 (← r.rowsChecked) (← r.colsChecked)

include h

theorem rows_le_maxRows : r.rows ≤ maxRows := by
  have hrow := (Position.inGrid_iff.1 h).1
  rw [rows]
  omega

theorem cols_le_maxColumns : r.cols ≤ maxColumns := by
  have hcol := (Position.inGrid_iff.1 h).2
  rw [cols]
  omega

theorem rowsChecked_eq : r.rowsChecked = some r.rows :=
  Checked.span_eq r.row_le (Nat.lt_of_le_of_lt (rows_le_maxRows h) (by decide))

theorem colsChecked_eq : r.colsChecked = some r.cols :=
  Checked.span_eq r.col_le (Nat.lt_of_le_of_lt (cols_le_maxColumns h) (by decide))

theorem countChecked_eq : r.countChecked = some r.count := by
  have hfits : r.rows * r.cols < 2 ^ 64 :=
    Nat.lt_of_le_of_lt (Nat.mul_le_mul (rows_le_maxRows h) (cols_le_maxColumns h)) (by decide)
  rw [countChecked, rowsChecked_eq h, colsChecked_eq h]
  exact Checked.mul_eq hfits

end Words

namespace Cursor

/-- One step of a cursor: the row in 32 bits, the column in 16, and what remains in 64. -/
def advanceChecked (c : Cursor) : Option Cursor := do
  let remaining ← Checked.sub c.remaining 1
  if c.next.row = c.range.last.row then
    return { c with next := ⟨c.range.first.row, ← Checked.add 16 c.next.col 1⟩, remaining }
  else
    return { c with next := ⟨← Checked.add 32 c.next.row 1, c.next.col⟩, remaining }

/-- The next `n` cells, as far as there are any, and the cursor behind them; nothing if a step
overflows. -/
def takeChecked (c : Cursor) : Nat → Option (List Position × Cursor)
  | 0 => some ([], c)
  | n + 1 =>
    if c.remaining = 0 then some ([], c)
    else do
      let (cells, rest) ← (← c.advanceChecked).takeChecked n
      return (c.next :: cells, rest)

theorem advanceChecked_eq {c : Cursor} (hremaining : c.remaining ≠ 0)
    (hnext : c.next.inGrid = true) : c.advanceChecked = some c.advance := by
  obtain ⟨hrow, hcol⟩ := Position.inGrid_iff.1 hnext
  have hrowFits : c.next.row + 1 < 2 ^ 32 := Nat.lt_of_le_of_lt hrow (by decide)
  have hcolFits : c.next.col + 1 < 2 ^ 16 := Nat.lt_of_le_of_lt hcol (by decide)
  rw [advanceChecked, Checked.sub_eq (Nat.one_le_iff_ne_zero.2 hremaining),
    Checked.add_eq hrowFits, Checked.add_eq hcolFits, advance, following]
  by_cases hlast : c.next.row = c.range.last.row
  · rw [if_pos hlast]
    exact if_pos hlast
  · rw [if_neg hlast]
    exact if_neg hlast

/-- As long as the cells that are ahead lie in the grid, no step overflows. By induction on the
number of steps, each of which leaves fewer cells ahead. -/
theorem takeChecked_eq {c : Cursor} (h : ∀ p ∈ c.ahead, p.inGrid = true) (k : Nat) :
    c.takeChecked k = some (c.take k) := by
  induction k generalizing c with
  | zero => rfl
  | succ k ih =>
    rw [takeChecked, take]
    by_cases hend : c.remaining = 0
    · rw [if_pos hend, if_pos hend]
    · rw [ahead_of_remaining_ne_zero hend] at h
      have hadvance := advanceChecked_eq hend (h _ List.mem_cons_self)
      have hrest := ih fun p hp => h p (List.mem_cons_of_mem _ hp)
      rw [if_neg hend, if_neg hend, hadvance]
      simp only [Option.bind_eq_bind, Option.bind_some, hrest]
      rfl

end Cursor

/-! ## The expansion of a range -/

/-- The cells of a range are its rectangle, listed once each in the order of columns, a cursor
counts them exactly, and no number in this leaves its machine word. -/
structure Exact (r : Range) : Prop where
  length_eq : r.cells.length = r.rows * r.cols
  cell_at : ∀ i < r.rows * r.cols,
    r.cells[i]? = some ⟨r.first.row + i % r.rows, r.first.col + i / r.rows⟩
  cells_distinct : r.cells.Nodup
  listed_iff : ∀ p, p ∈ r.cells ↔ r.contains p = true
  names_distinct : r.names.Nodup
  passed : ∀ k, (r.cursor.take k).1 = r.cells.take k
  left : ∀ k, (r.cursor.take k).2.remaining = r.count - k
  counts_fit : r.rowsChecked = some r.rows ∧ r.colsChecked = some r.cols ∧
    r.countChecked = some r.count
  steps_fit : ∀ k, r.cursor.takeChecked k = some (r.cursor.take k)

theorem exact_of_inGrid (h : r.last.inGrid = true) : r.Exact where
  length_eq := r.length_cells
  cell_at _ hi := getElem?_cells hi
  cells_distinct := r.nodup_cells
  listed_iff _ := mem_cells_iff
  names_distinct := nodup_names h
  passed k := by rw [(r.cursor.take_eq k).1, cursor_ahead]
  left k := (r.cursor.take_eq k).2
  counts_fit := ⟨rowsChecked_eq h, colsChecked_eq h, countChecked_eq h⟩
  steps_fit k := by
    refine Cursor.takeChecked_eq (fun p hp => ?_) k
    rw [cursor_ahead, mem_cells_iff] at hp
    exact inGrid_of_contains h hp

/-- Two names of cells, in any order, are the corners of a range whose expansion is exact. -/
theorem exact_of_parse {start stop : String} {a b : Address}
    (ha : Address.parse start = .ok a) (hb : Address.parse stop = .ok b) :
    ∃ r, ofNames start stop = .ok r ∧ r = ofCorners a.toPosition b.toPosition ∧ r.Exact := by
  have hrange := ofNames_of_parse ha hb
  exact ⟨_, hrange, rfl, exact_of_inGrid (inGrid_last hrange)⟩

/-- The four cells at the end of the grid, from corners given in another order. -/
theorem exact_at_end :
    Address.parse "$xfd$1048575" = .ok ⟨⟨1048574, 16383⟩, true, true⟩ ∧
      Address.parse " xfc1048576" = .ok ⟨⟨1048575, 16382⟩, false, false⟩ ∧
      ∃ r, ofNames "$xfd$1048575" " xfc1048576" = .ok r ∧
        r = ofCorners ⟨1048574, 16383⟩ ⟨1048575, 16382⟩ ∧ r.Exact := by
  have hstart : Address.parse "$xfd$1048575" = .ok ⟨⟨1048574, 16383⟩, true, true⟩ := by
    decide +kernel
  have hstop : Address.parse " xfc1048576" = .ok ⟨⟨1048575, 16382⟩, false, false⟩ := by
    decide +kernel
  exact ⟨hstart, hstop, exact_of_parse hstart hstop⟩

end Range

end Spreadsheet
