/-!
# The bounds of the grid, and faults of addresses and ranges

The grid has `maxColumns` columns, A to XFD, and `maxRows` rows. Each fault of a text that should
name a cell or a range is a constructor; the wording is in `AddressError.message` and
`RangeError.message`.
-/

namespace Spreadsheet

/-- The number of columns of the grid. -/
def maxColumns : Nat := 16384

/-- The number of rows of the grid. -/
def maxRows : Nat := 1048576

/-- The greatest index that a message shows, which takes 32 bits; larger ones are shown as this
one. -/
def greatestShownIndex : Nat := 4294967295

/-- What can be wrong with the text of a cell address. -/
inductive AddressError
  /-- There is nothing but blanks. -/
  | empty
  /-- No letter stands where the column is expected. -/
  | noColumn (text : String)
  /-- A column name without a letter. -/
  | emptyColumn
  /-- A column name with a character other than a letter. -/
  | badColumnLetter (letter : Char)
  /-- The letters name a column beyond the grid. -/
  | columnOutOfBounds
  /-- Nothing follows the column. -/
  | noRow (text : String)
  /-- Something other than digits follows the column. -/
  | badRow (text : String)
  /-- The row number is zero; rows are numbered from one. -/
  | rowZero (text : String)
  /-- The digits name a row beyond the grid. -/
  | rowOutOfBounds (row : Nat)
  deriving DecidableEq, Repr

/-- The two corners that a range is written with. -/
inductive Corner
  | start
  | stop
  deriving DecidableEq, Repr

/-- What can be wrong with the text of a range. -/
inductive RangeError
  /-- The text has no colon and is no address. -/
  | single (cause : AddressError)
  /-- One corner is no address. -/
  | corner (which : Corner) (text : String) (cause : AddressError)
  deriving DecidableEq, Repr

namespace AddressError

/-- The text of an address error. -/
def message : AddressError → String
  | .empty => malformed "empty address"
  | .noColumn text => malformed s!"no column letters in '{text}'"
  | .emptyColumn => malformed "empty column letters"
  | .badColumnLetter letter => malformed s!"invalid column letter '{letter}'"
  | .noRow text => malformed s!"no row number in '{text}'"
  | .badRow text => malformed s!"invalid row number in '{text}'"
  | .rowZero text => malformed s!"row number must be >= 1 in '{text}'"
  | .columnOutOfBounds => s!"Column index {greatestShownIndex} out of bounds (max: {maxColumns})"
  | .rowOutOfBounds row => s!"Row index {min row greatestShownIndex} out of bounds (max: {maxRows})"
where
  /-- The text for an address that is not written as one. -/
  malformed (detail : String) : String := "Invalid cell address: " ++ detail

end AddressError

namespace RangeError

/-- The text of a range error. -/
def message : RangeError → String
  | .single cause => cause.message
  | .corner .start text cause => s!"Invalid cell range: start corner '{text}': {cause.message}"
  | .corner .stop text cause => s!"Invalid cell range: end corner '{text}': {cause.message}"

end RangeError

end Spreadsheet
