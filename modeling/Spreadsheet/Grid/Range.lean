import Spreadsheet.Grid.Address

/-!
# Rectangles of cells

A range is a rectangle between two corners, which may be given in any order. Its cells are listed
column by column, each column from top to bottom. A cursor walks through that list and knows how
many cells are left, so that a large range never has to be listed as a whole.
-/

namespace Spreadsheet

/-- A rectangle of cells; `first` is its top left corner and `last` its bottom right one. -/
structure Range where
  first : Position
  last : Position
  row_le : first.row ≤ last.row := by omega
  col_le : first.col ≤ last.col := by omega
  deriving DecidableEq, Repr

namespace Range

/-- The smallest rectangle with two given corners. -/
def ofCorners (p q : Position) : Range where
  first := ⟨min p.row q.row, min p.col q.col⟩
  last := ⟨max p.row q.row, max p.col q.col⟩
  row_le := Nat.le_trans (Nat.min_le_left ..) (Nat.le_max_left ..)
  col_le := Nat.le_trans (Nat.min_le_left ..) (Nat.le_max_left ..)

/-- The rectangle between two corners given by their names. -/
def ofNames (start stop : String) : Except RangeError Range := do
  let p ← corner .start start
  let q ← corner .stop stop
  .ok (ofCorners p q)
where
  /-- The place of a corner. -/
  corner (which : Corner) (name : String) : Except RangeError Position :=
    match Address.parse name with
    | .ok a => .ok a.toPosition
    | .error e => .error (.corner which (Text.trim name) e)

/-- Reads two corners with a colon between them, or a single cell. -/
def parse (s : String) : Except RangeError Range :=
  let cs := Text.trimChars s.toList
  match cs.dropWhile (· != ':') with
  | [] =>
    match Address.read cs with
    | .ok a => .ok (ofCorners a.toPosition a.toPosition)
    | .error e => .error (.single e)
  | _ :: stop => ofNames (String.ofList (cs.takeWhile (· != ':'))) (String.ofList stop)

/-- The number of rows. -/
def rows (r : Range) : Nat :=
  r.last.row - r.first.row + 1

/-- The number of columns. -/
def cols (r : Range) : Nat :=
  r.last.col - r.first.col + 1

/-- The number of cells. -/
def count (r : Range) : Nat :=
  r.rows * r.cols

/-- Whether a place lies in the rectangle. -/
def contains (r : Range) (p : Position) : Bool :=
  r.first.row ≤ p.row && p.row ≤ r.last.row && r.first.col ≤ p.col && p.col ≤ r.last.col

/-- The text of a range: one address, or two with a colon between them. -/
def text (r : Range) : String :=
  if r.first = r.last then r.first.name else r.first.name ++ ":" ++ r.last.name

/-- The cells of a range, column by column. -/
def cells (r : Range) : List Position :=
  (List.range' r.first.col r.cols).flatMap fun col =>
    (List.range' r.first.row r.rows).map fun row => ⟨row, col⟩

/-- The canonical names of the cells of a range. -/
def names (r : Range) : List String :=
  r.cells.map Position.name

/-! ## Walking through a range -/

/-- A place in the list of a range's cells. -/
structure Cursor where
  range : Range
  /-- The next cell. -/
  next : Position
  /-- How many cells are still to come, the next one included. -/
  remaining : Nat
  deriving DecidableEq, Repr

/-- The cursor at the first cell. -/
def cursor (r : Range) : Cursor where
  range := r
  next := r.first
  remaining := r.count

namespace Cursor

/-- The place after `next`: one row down, or the top of the next column. -/
def following (c : Cursor) : Position :=
  if c.next.row = c.range.last.row then ⟨c.range.first.row, c.next.col + 1⟩
  else ⟨c.next.row + 1, c.next.col⟩

/-- The cursor one cell on. -/
def advance (c : Cursor) : Cursor :=
  { c with next := c.following, remaining := c.remaining - 1 }

/-- The next `n` cells, as far as there are any, and the cursor behind them. -/
def take (c : Cursor) : Nat → List Position × Cursor
  | 0 => ([], c)
  | n + 1 =>
    if c.remaining = 0 then ([], c)
    else
      let (cells, rest) := c.advance.take n
      (c.next :: cells, rest)

end Cursor

end Range

end Spreadsheet
