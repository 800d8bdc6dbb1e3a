import Spreadsheet.Formula.Fault
import Spreadsheet.Number.Reading
import Spreadsheet.Number.Shortest
import Spreadsheet.Text.Blank
import Spreadsheet.Text.LetterCase

/-!
# Values

A cell holds, and a formula yields, a number, a text or a truth value; a range yields the list of
its values. The empty text is the value of a cell that nobody has written to. Values are converted
to the type that an operation needs: a conversion `as…` may have no result, and a conversion `to…`
turns that into an error that names the operation.
-/

namespace Spreadsheet

/-- The values of formulas. -/
inductive Value
  | number (n : Float)
  | text (s : String)
  | boolean (b : Bool)
  | list (items : List Value)
  deriving Inhabited

namespace Value

/-! ## Equality -/

mutual

/-- Whether two values are the same; numbers are told apart by their bits. -/
def decideEq : (v w : Value) → Decidable (v = w)
  | .number x, .number y => if h : x = y then isTrue (by rw [h]) else isFalse (by simpa using h)
  | .text s, .text t => if h : s = t then isTrue (by rw [h]) else isFalse (by simpa using h)
  | .boolean a, .boolean b => if h : a = b then isTrue (by rw [h]) else isFalse (by simpa using h)
  | .list vs, .list ws =>
    match decideEqAll vs ws with
    | isTrue h => isTrue (by rw [h])
    | isFalse h => isFalse (by simpa using h)
  | .number _, .text _ | .number _, .boolean _ | .number _, .list _ => isFalse nofun
  | .text _, .number _ | .text _, .boolean _ | .text _, .list _ => isFalse nofun
  | .boolean _, .number _ | .boolean _, .text _ | .boolean _, .list _ => isFalse nofun
  | .list _, .number _ | .list _, .text _ | .list _, .boolean _ => isFalse nofun

/-- Whether two lists of values are the same. -/
def decideEqAll : (vs ws : List Value) → Decidable (vs = ws)
  | [], [] => isTrue rfl
  | [], _ :: _ | _ :: _, [] => isFalse nofun
  | v :: vs, w :: ws =>
    match decideEq v w, decideEqAll vs ws with
    | isTrue h, isTrue hs => isTrue (by rw [h, hs])
    | isFalse h, _ => isFalse fun e => h (List.cons.inj e).1
    | _, isFalse hs => isFalse fun e => hs (List.cons.inj e).2

end

instance : DecidableEq Value := decideEq

/-! ## The empty value -/

/-- The value of a cell that nobody has written to. -/
def empty : Value := .text ""

/-- Whether a value is the empty text. -/
def isEmpty : Value → Bool
  | .text s => s.isEmpty
  | _ => false

/-- Whether a value is a list. -/
def isList : Value → Bool
  | .list _ => true
  | _ => false

/-! ## Texts of values -/

mutual

/-- The text of a value; a list stands in braces. -/
def display : Value → String
  | .number n => Number.render n
  | .text s => s
  | .boolean b => if b then "TRUE" else "FALSE"
  | .list items => "\x7b" ++ ", ".intercalate (displayAll items) ++ "\x7d"

/-- The texts of the members of a list. -/
def displayAll : List Value → List String
  | [] => []
  | v :: rest => v.display :: displayAll rest

end

/-- A value as it is described in error messages. -/
def describe : Value → String
  | .number n => "number " ++ Number.render n
  | .text s => if s.isEmpty then "an empty cell" else s!"text \"{s}\""
  | .boolean b => "boolean " ++ (boolean b).display
  | .list items => s!"a range of {items.length} values"

/-- An operand of the wrong type. -/
def mismatch (v : Value) (operation : String) : FormulaError :=
  .typeMismatch operation v.describe

/-! ## Conversions -/

/-- The number that a text denotes: blanks count as zero, and infinities are no numbers. -/
def numberOfText? (s : String) : Option Float :=
  match Text.trimChars s.toList with
  | [] => some 0.0
  | cs => (Number.read? cs).filter Float.isFinite

/-- A value as a number. -/
def asNumber? : Value → Option Float
  | .number n => some n
  | .boolean b => some (if b then 1.0 else 0.0)
  | .text s => numberOfText? s
  | .list _ => none

/-- A value as a number, on behalf of an operation. -/
def toNumber (v : Value) (operation : String) : Except FormulaError Float :=
  match v.asNumber? with
  | some n => .ok n
  | none => .error (v.mismatch operation)

/-- The truth value that a text denotes: blanks count as false. -/
def booleanOfText? (s : String) : Option Bool :=
  let word := Text.upperAscii (Text.trim s)
  if word = "" || word = "FALSE" then some false
  else if word = "TRUE" then some true
  else none

/-- A value as a truth value; a number is true unless it is zero. -/
def asBoolean? : Value → Option Bool
  | .boolean b => some b
  | .number n => some (n != 0.0)
  | .text s => booleanOfText? s
  | .list _ => none

/-- A value as a truth value, on behalf of an operation. -/
def toBoolean (v : Value) (operation : String) : Except FormulaError Bool :=
  match v.asBoolean? with
  | some b => .ok b
  | none => .error (v.mismatch operation)

/-- A value as a text, on behalf of an operation; a list has no text. -/
def toText (v : Value) (operation : String) : Except FormulaError String :=
  if v.isList then .error (v.mismatch operation) else .ok v.display

/-! ## Order -/

/-- What stands for a value when it is compared with another: an empty text counts as zero beside a
number and as false beside a truth value. -/
def besides (v other : Value) : Value :=
  if v.isEmpty then
    match other with
    | .number _ => .number 0.0
    | .boolean _ => .boolean false
    | _ => v
  else v

/-- The order of two numbers; a pair with no order counts as equal. -/
def orderNumbers (x y : Float) : Ordering :=
  if x < y then .lt else if y < x then .gt else .eq

/-- The place of a value's type in the order of types. -/
def typeRank : Value → Nat
  | .number _ => 0
  | .text _ => 1
  | .boolean _ => 2
  | .list _ => 3

/-- The order of two scalars once the empty text is replaced: numbers before texts before truth
values, texts without regard to case. -/
def orderScalars : Value → Value → Ordering
  | .number x, .number y => orderNumbers x y
  | .text s, .text t => compare (Text.lower s) (Text.lower t)
  | .boolean a, .boolean b => compare a b
  | v, w => compare v.typeRank w.typeRank

/-- The order of two values on behalf of an operation; lists have none. -/
def order (v w : Value) (operation : String) : Except FormulaError Ordering :=
  if v.isList then .error (v.mismatch operation)
  else if w.isList then .error (w.mismatch operation)
  else .ok (orderScalars (v.besides w) (w.besides v))

end Value

end Spreadsheet
