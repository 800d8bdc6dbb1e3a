import Spreadsheet.Apply.Shape

/-!
# Functions of any number of operands

Ranges and scalars may be mixed. A scalar operand is converted to the type that the function needs;
of a range only the members of that type count, and the others are passed over, except that a text
function takes every member.
-/

namespace Spreadsheet.Aggregate

/-! ## What counts -/

/-- The number that a member of a range contributes. -/
def memberNumber? : Value → Option Float
  | .number n => some n
  | _ => none

/-- Whether a member of a range takes part in a logical function. -/
def isLogicalMember : Value → Bool
  | .text _ => false
  | _ => true

/-- The numbers that one operand contributes. -/
def numbersOf (operation : String) : Value → Except FormulaError (List Float)
  | .list items => .ok (items.filterMap memberNumber?)
  | v => do return [← v.toNumber operation]

/-- The truth values that one operand contributes. -/
def booleansOf (operation : String) : Value → Except FormulaError (List Bool)
  | .list items => (items.filter isLogicalMember).mapM (·.toBoolean operation)
  | v => do return [← v.toBoolean operation]

/-- The texts that one operand contributes. -/
def textsOf (operation : String) : Value → Except FormulaError (List String)
  | .list items => items.mapM (·.toText operation)
  | v => do return [← v.toText operation]

/-- How many numbers one operand contributes to a count. -/
def countOf : Value → Nat
  | .list items => (items.filterMap memberNumber?).length
  | v => if !v.isEmpty && v.asNumber?.isSome then 1 else 0

/-- What all operands contribute, in their order. -/
def collect {α : Type} (contribution : Value → Except FormulaError (List α)) (args : List Value) :
    Except FormulaError (List α) := do
  return (← args.mapM contribution).flatten

/-! ## Numbers -/

/-- The sum of numbers, added from left to right. -/
def total (xs : List Float) : Float :=
  xs.foldl (· + ·) 0.0

/-- The lesser of two numbers; one that is no number is passed over. -/
def lesser (x y : Float) : Float :=
  if x.isNaN then y else if y < x then y else x

/-- The greater of two numbers; one that is no number is passed over. -/
def greater (x y : Float) : Float :=
  if x.isNaN then y else if x < y then y else x

/-- The number that wins against all others; zero if there is none. -/
def champion (better : Float → Float → Float) : List Float → Float
  | [] => 0.0
  | x :: xs => xs.foldl better x

/-- The sum. -/
def sum (operation : String) (args : List Value) : Outcome := do
  return .number (total (← collect (numbersOf operation) args))

/-- The least or greatest number. -/
def extreme (better : Float → Float → Float) (operation : String) (args : List Value) :
    Outcome := do
  return .number (champion better (← collect (numbersOf operation) args))

/-- The arithmetic mean; without any number there is none. -/
def mean (operation : String) (args : List Value) : Outcome := do
  let xs ← collect (numbersOf operation) args
  if xs.isEmpty then .error (.divisionByZero operation)
  else .ok (.number (total xs / Float.ofNat xs.length))

/-- The number of numbers. -/
def count (args : List Value) : Outcome :=
  .ok (.number (Float.ofNat (args.foldl (fun n v => n + countOf v) 0)))

/-! ## Truth values and texts -/

/-- A truth value computed from all truth values. -/
def logical (f : List Bool → Bool) (operation : String) (args : List Value) : Outcome := do
  return .boolean (f (← collect (booleansOf operation) args))

/-- Whether an odd number of truth values is true. -/
def parity (bs : List Bool) : Bool :=
  bs.count true % 2 == 1

/-- All texts one after the other. -/
def concat (operation : String) (args : List Value) : Outcome := do
  return .text (String.join (← collect (textsOf operation) args))

end Spreadsheet.Aggregate
