import Spreadsheet.Text.LetterCase

/-!
# Names of the built-in functions

The set of functions is closed, and their names are reserved: a word that is one of them is never a
cell name.
-/

namespace Spreadsheet

/-- The built-in functions. -/
inductive Builtin
  | abs | cos | sin | tan | exp | log | log10 | pi | ceil | floor | sqrt | round | mod | int | power
  | max | min | sum | average | mean | count
  | and | or | not | xor
  /-- One of two values, by a condition. -/
  | choose
  | len | upper | lower | concat
  deriving DecidableEq, Repr

namespace Builtin

/-- Every built-in function. -/
def all : List Builtin :=
  [.abs, .cos, .sin, .tan, .exp, .log, .log10, .pi, .ceil, .floor, .sqrt, .round, .mod, .int,
    .power, .max, .min, .sum, .average, .mean, .count, .and, .or, .not, .xor, .choose, .len,
    .upper, .lower, .concat]

/-- The name of a function, in upper case. -/
def name : Builtin → String
  | .abs => "ABS"
  | .cos => "COS"
  | .sin => "SIN"
  | .tan => "TAN"
  | .exp => "EXP"
  | .log => "LOG"
  | .log10 => "LOG10"
  | .pi => "PI"
  | .ceil => "CEIL"
  | .floor => "FLOOR"
  | .sqrt => "SQRT"
  | .round => "ROUND"
  | .mod => "MOD"
  | .int => "INT"
  | .power => "POWER"
  | .max => "MAX"
  | .min => "MIN"
  | .sum => "SUM"
  | .average => "AVERAGE"
  | .mean => "MEAN"
  | .count => "COUNT"
  | .and => "AND"
  | .or => "OR"
  | .not => "NOT"
  | .xor => "XOR"
  | .choose => "IF"
  | .len => "LEN"
  | .upper => "UPPER"
  | .lower => "LOWER"
  | .concat => "CONCAT"

/-- The function of a given name, in any case. -/
def ofName? (name : String) : Option Builtin :=
  let upper := Text.upperAscii name
  all.find? (·.name == upper)

/-- A function is found by its own name only. -/
theorem name_of_ofName? {name : String} {f : Builtin} (h : ofName? name = some f) :
    f.name = Text.upperAscii name :=
  eq_of_beq (List.find?_some (p := fun g : Builtin => g.name == Text.upperAscii name) h)

end Builtin

end Spreadsheet
