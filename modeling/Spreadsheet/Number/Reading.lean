import Spreadsheet.Number.Decimal

/-!
# Reading numbers

A number is an optional sign followed by digits with at most one point, at least one digit in all,
and an optional exponent with at least one digit; or a sign and one of the words `inf`, `infinity`
and `nan` in any case. The result is the nearest double.
-/

namespace Spreadsheet.Number

/-- The natural number that a run of digits denotes. -/
def digitsValue (ds : List Char) : Nat :=
  ds.foldl (fun n d => 10 * n + (d.toNat - '0'.toNat)) 0

/-- Splits an optional sign off; the flag says whether it is a minus. -/
def splitSign : List Char → Bool × List Char
  | '-' :: rest => (true, rest)
  | '+' :: rest => (false, rest)
  | rest => (false, rest)

/-- The value of an exponent part: nothing, or a letter `e`, an optional sign and digits. -/
def exponentValue? : List Char → Option Int
  | [] => some 0
  | e :: rest =>
    let (negative, digits) := splitSign rest
    if e.toLower = 'e' && !digits.isEmpty && digits.all Char.isDigit then
      some (if negative then -(digitsValue digits : Int) else digitsValue digits)
    else none

/-- A numeral without a sign. -/
def decimal? (cs : List Char) : Option Decimal :=
  let whole := cs.takeWhile Char.isDigit
  let afterWhole := cs.dropWhile Char.isDigit
  let (fraction, tail) := match afterWhole with
    | '.' :: rest => (rest.takeWhile Char.isDigit, rest.dropWhile Char.isDigit)
    | _ => ([], afterWhole)
  if whole.isEmpty && fraction.isEmpty then none
  else (exponentValue? tail).map fun e =>
    ⟨digitsValue (whole ++ fraction), e - fraction.length⟩

/-- The magnitude of a number: a numeral or one of the words. -/
def magnitude? (cs : List Char) : Option Float :=
  match decimal? cs with
  | some d => some d.toFloat
  | none =>
    let word := String.ofList (cs.map Char.toLower)
    if word = "inf" || word = "infinity" then some (1.0 / 0.0)
    else if word = "nan" then some (0.0 / 0.0)
    else none

/-- The double that a text denotes. -/
def read? (cs : List Char) : Option Float :=
  let (negative, rest) := splitSign cs
  (magnitude? rest).map fun x => if negative then -x else x

end Spreadsheet.Number
