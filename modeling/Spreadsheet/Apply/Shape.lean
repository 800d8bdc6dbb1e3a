import Spreadsheet.Value

/-!
# How functions take their operands

A function is given by its shape: a Lean function with as many parameters as it takes operands. A
function therefore never reads an operand that is not there, and its arity is read off its shape.

## Main results

* `Shape.outcome?_isSome`: a function has a result, or fails for a reason of its own, on exactly the
  operand lists whose length its arity admits.
-/

namespace Spreadsheet

/-- The outcome of applying an operation. -/
abbrev Outcome := Except FormulaError Value

/-- A function by the number of its operands. -/
inductive Shape
  | nullary (f : Outcome)
  | unary (f : Value → Outcome)
  | binary (f : Value → Value → Outcome)
  | unaryOrBinary (f : Value → Option Value → Outcome)
  | binaryOrTernary (f : Value → Value → Option Value → Outcome)
  /-- One operand or more, all treated alike. -/
  | variadic (f : List Value → Outcome)

namespace Shape

/-- The number of operands that a function of this shape takes. -/
def arity : Shape → Arity
  | .nullary _ => .exactly 0
  | .unary _ => .exactly 1
  | .binary _ => .exactly 2
  | .unaryOrBinary _ => ⟨1, some 2⟩
  | .binaryOrTernary _ => ⟨2, some 3⟩
  | .variadic _ => ⟨1, none⟩

/-- The outcome on a list of operands, if it has an admitted length. -/
def outcome? : Shape → List Value → Option Outcome
  | .nullary f, [] => some f
  | .unary f, [x] => some (f x)
  | .binary f, [x, y] => some (f x y)
  | .unaryOrBinary f, [x] => some (f x none)
  | .unaryOrBinary f, [x, y] => some (f x (some y))
  | .binaryOrTernary f, [x, y] => some (f x y none)
  | .binaryOrTernary f, [x, y, z] => some (f x y (some z))
  | .variadic f, x :: xs => some (f (x :: xs))
  | _, _ => none

theorem outcome?_isSome (s : Shape) (args : List Value) :
    (s.outcome? args).isSome = s.arity.admits args.length := by
  rcases args with _ | ⟨a, _ | ⟨b, _ | ⟨c, _ | ⟨d, rest⟩⟩⟩⟩ <;> cases s <;>
    simp [outcome?, arity, Arity.admits, Arity.exactly]

end Shape

/-! ## Results -/

/-- A number as a result; an infinity or a value that is no number is an error of the operation. -/
def finite (operation : String) (x : Float) : Outcome :=
  if x.isFinite then .ok (.number x) else .error (.evaluation (.notFinite operation))

/-- An operand outside the domain of an operation. -/
def outsideDomain (operation : String) (operand : Value) : FormulaError :=
  .evaluation (.undefinedFor operation operand.describe)

end Spreadsheet
