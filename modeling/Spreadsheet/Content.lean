import Spreadsheet.Value
import Std.Data.TreeMap

/-!
# Cell contents

A cell holds a value or the text of a formula, which is read when the cell is needed. Typed input is
classified by its first character and by whether it denotes a truth value or a number.

An environment says what each cell holds. It is asked by canonical names, and a cell that it does
not know is empty.
-/

namespace Spreadsheet

/-- What a cell holds. -/
inductive Content
  | value (v : Value)
  /-- The text of a formula, without an equals sign before it. -/
  | formula (text : String)
  deriving DecidableEq, Inhabited

namespace Content

/-- A formula; one equals sign before its text is dropped. -/
def ofFormula (text : String) : Content :=
  match text.toList with
  | '=' :: rest => .formula (String.ofList rest)
  | _ => .formula text

/-- Classifies typed input: a formula begins with an equals sign, `TRUE` and `FALSE` are truth
values, what reads as a finite number is a number, and all else is text, kept with its blanks. -/
def ofInput (input : String) : Content :=
  let trimmed := Text.trim input
  if trimmed.toList.head? == some '=' then ofFormula trimmed
  else if Text.sameName trimmed "TRUE" then .value (.boolean true)
  else if Text.sameName trimmed "FALSE" then .value (.boolean false)
  else match (Number.read? trimmed.toList).filter Float.isFinite with
    | some n => .value (.number n)
    | none => .value (.text input)

/-- Whether a cell holds a formula. -/
def isFormula : Content → Bool
  | .formula _ => true
  | .value _ => false

end Content

/-- What each cell holds, by its canonical name. -/
abbrev Environment := String → Option Content

/-- The environment of a map from names to contents. -/
def Environment.ofMap (cells : Std.TreeMap String Content) : Environment :=
  fun name => cells[name]?

end Spreadsheet
