import Spreadsheet.Grid.Fault

/-!
# Column letters

Columns are named A, B, …, Z, AA, AB, …: positive numbers in base 26 with the digits A = 1 to
Z = 26 and no zero. Inside the library columns count from zero.
-/

namespace Spreadsheet.Column

/-- The letters of a positive number in base 26 without zero. -/
def digits : Nat → List Char
  | 0 => []
  | n + 1 => digits (n / 26) ++ [Char.ofNat ('A'.toNat + n % 26)]
termination_by n => n
decreasing_by omega

/-- The letters of a column. -/
def letters (col : Nat) : String :=
  String.ofList (digits (col + 1))

/-- The value of a letter as a digit, in either case. -/
def digitValue (c : Char) : Nat :=
  c.toUpper.toNat - 'A'.toNat + 1

/-- Reads on from the number that the letters so far denote. A number beyond the grid is refused at
the letter that makes it so. -/
def readFrom (number : Nat) : List Char → Except AddressError Nat
  | [] => .ok (number - 1)
  | c :: rest =>
    if !c.isAlpha then .error (.badColumnLetter c)
    else
      let next := 26 * number + digitValue c
      if maxColumns < next then .error .columnOutOfBounds else readFrom next rest

/-- The column that letters name. -/
def ofLetters (letters : List Char) : Except AddressError Nat :=
  if letters.isEmpty then .error .emptyColumn else readFrom 0 letters

end Spreadsheet.Column
