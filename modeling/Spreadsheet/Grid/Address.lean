import Spreadsheet.Grid.Position
import Spreadsheet.Number.Reading
import Spreadsheet.Text.Blank
import Spreadsheet.Text.LetterCase

/-!
# Cell addresses

The address of a cell is written as column letters and a row number, as in `B7`; a `$` before either
part anchors it. Anchors are kept with the address and play no part in which cell it names. Letters
may be small and row numbers may begin with zeros, so a cell has many addresses; all of them share
its canonical name.
-/

namespace Spreadsheet

/-- A cell address as written, with its anchors. -/
structure Address extends Position where
  rowAnchored : Bool := false
  colAnchored : Bool := false
  deriving DecidableEq, Repr

namespace Address

/-- The address of a place, without anchors. -/
def ofPosition (p : Position) : Address :=
  { p with }

/-- The address of a place with both parts anchored. -/
def anchored (p : Position) : Address :=
  { p with rowAnchored := true, colAnchored := true }

/-- The text of an address, anchors included. -/
def text (a : Address) : String :=
  (if a.colAnchored then "$" else "") ++ Column.letters a.col
    ++ (if a.rowAnchored then "$" else "") ++ toString (a.row + 1)

/-- Splits a leading anchor off. -/
def splitAnchor : List Char → Bool × List Char
  | '$' :: rest => (true, rest)
  | rest => (false, rest)

/-- The row that the characters after the column name; `whole` is the text they come from. -/
def readRow (whole : String) (cs : List Char) : Except AddressError Nat :=
  if cs.isEmpty then .error (.noRow whole)
  else if !cs.all Char.isDigit then .error (.badRow whole)
  else
    let number := Number.digitsValue cs
    if number = 0 then .error (.rowZero whole)
    else if maxRows < number then .error (.rowOutOfBounds number)
    else .ok (number - 1)

/-- Reads an address from characters without blanks around them. -/
def read (cs : List Char) : Except AddressError Address := do
  let whole := String.ofList cs
  if cs.isEmpty then .error .empty
  let (colAnchored, cs) := splitAnchor cs
  let letters := cs.takeWhile Char.isAlpha
  if letters.isEmpty then .error (.noColumn whole)
  let col ← Column.ofLetters letters
  let (rowAnchored, cs) := splitAnchor (cs.dropWhile Char.isAlpha)
  let row ← readRow whole cs
  .ok ⟨⟨row, col⟩, rowAnchored, colAnchored⟩

/-- Reads an address; blanks around it do not matter. -/
def parse (s : String) : Except AddressError Address :=
  read (Text.trimChars s.toList)

end Address

/-- The name under which a reference is looked up. An address of the grid has the canonical name of
its cell; any other text loses its `$` signs and small letters, and as a rule still names no
cell. -/
def canonicalName (name : String) : String :=
  match Address.parse name with
  | .ok a => a.name
  | .error _ => String.ofList ((name.toList.filter (· != '$')).map Char.toUpper)

end Spreadsheet
