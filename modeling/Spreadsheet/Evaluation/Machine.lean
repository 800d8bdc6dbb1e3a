import Spreadsheet.Content
import Spreadsheet.Evaluation.Step
import Std.Data.TreeMap
import Std.Data.TreeSet

/-!
# The evaluation machine

Cells refer to cells, so the evaluation of one formula interrupts that of another. The machine keeps
the interrupted ones as a list of frames instead of nesting its own calls, which makes the length of
a chain of references a limit of its own. It remembers the value of every formula cell that it has
resolved, and the cells that it is resolving, so that a cell which needs its own value is found out.
-/

namespace Spreadsheet

/-- The limits of an evaluation. -/
structure Options where
  /-- How deeply groups and calls may nest in a formula. -/
  maxNesting : Nat := defaultNesting
  /-- How many formula cells may be resolved at once, each for the sake of the one before. -/
  maxReferences : Nat := 1024
  /-- How many cells a range may have. -/
  maxRangeCells : Nat := 1048576
  /-- Whether a formula cell that needs its own value is reported as such. -/
  detectCycles : Bool := true
  deriving DecidableEq, Repr

namespace Evaluation

/-- An evaluation that has begun. -/
inductive Frame
  /-- Steps still to be made, and the formula cell that they resolve, if any. -/
  | steps (todo : List Step) (cell : Option String)
  /-- The rest of a range, and how many of its cells have been loaded. -/
  | range (cursor : Range.Cursor) (loaded : Nat)

/-- The state of the machine. -/
structure State where
  /-- What is being evaluated, innermost first. -/
  frames : List Frame
  /-- The stack of values, the top first. -/
  values : List Value := []
  /-- The values of the formula cells that have been resolved. -/
  resolved : Std.TreeMap String Value := ∅
  /-- The formula cells that are being resolved, if cycles are to be found. -/
  resolving : Std.TreeSet String := ∅
  /-- How many formula cells are being resolved. -/
  depth : Nat := 0

/-- What the next step of the machine leads to. -/
inductive Progress
  | finished (outcome : Outcome)
  | running (s : State)

/-- Takes the top `n` values off a stack and puts them, the top one last, before `taken`. -/
def takeTop : Nat → List Value → List Value → Option (List Value × List Value)
  | 0, stack, taken => some (taken, stack)
  | n + 1, v :: stack, taken => takeTop n stack (v :: taken)
  | _ + 1, [], _ => none

namespace State

/-- The state before the first of some steps. -/
def start (steps : List Step) : State where
  frames := [.steps steps none]

/-- Puts a value on the stack. -/
def push (s : State) (v : Value) : State :=
  { s with values := v :: s.values }

/-- Replaces the top `n` values by what `f` makes of them. -/
def replaceTop (s : State) (n : Nat) (f : List Value → Outcome) : Except FormulaError State :=
  match takeTop n s.values [] with
  | none => .error (.evaluation .tooFewOperands)
  | some (args, stack) =>
    match f args with
    | .error e => .error e
    | .ok v => .ok { s with values := v :: stack }

/-- The outcome once nothing is left to evaluate. -/
def outcome (s : State) : Outcome :=
  match s.values with
  | v :: _ => .ok v
  | [] => .error (.evaluation .noValue)

/-- Begins to resolve a formula cell. -/
def enter (s : State) (options : Options) (name : String) (steps : List Step) : State :=
  { s with
    frames := .steps steps (some name) :: s.frames
    resolving := if options.detectCycles then s.resolving.insert name else s.resolving
    depth := s.depth + 1 }

/-- Ends the steps of a frame, of which `rest` is what was interrupted. The value of a formula cell
is on the top of the stack. -/
def leave (s : State) (cell : Option String) (rest : List Frame) : State :=
  match cell with
  | none => { s with frames := rest }
  | some name =>
    { s with
      frames := rest
      resolved := s.resolved.insert name (s.values.head?.getD .empty)
      resolving := s.resolving.erase name
      depth := s.depth - 1 }

/-- Loads a cell: its remembered value, its content if that is a value, nothing as the empty text;
for a formula, the machine begins to resolve it. -/
def load (env : Environment) (options : Options) (s : State) (name : String) :
    Except FormulaError State :=
  match s.resolved[name]? with
  | some v => .ok (s.push v)
  | none =>
    if options.detectCycles && s.resolving.contains name then .error (.circularReference name)
    else match env name with
      | none => .ok (s.push .empty)
      | some (.value v) => .ok (s.push v)
      | some (.formula text) =>
        if s.depth < options.maxReferences then do
          let e ← Expr.ofFormula text options.maxNesting
          return s.enter options name (← e.steps)
        else .error (.evaluation (.chainTooDeep name options.maxReferences))

/-- Begins to load the cells of a range. -/
def enterRange (options : Options) (s : State) (start stop : String) : Except FormulaError State :=
  match Range.ofNames start stop with
  | .error e => .error (.invalidReference e)
  | .ok r =>
    if options.maxRangeCells < r.count then
      .error (.evaluation (.rangeTooLarge start stop r.count options.maxRangeCells))
    else .ok { s with frames := .range r.cursor 0 :: s.frames }

/-- Makes one step. -/
def perform (env : Environment) (options : Options) (s : State) : Step → Except FormulaError State
  | .push v => .ok (s.push v)
  | .load name => s.load env options name
  | .range start stop => s.enterRange options start stop
  | .apply operation count => s.replaceTop count operation.apply

/-- Goes on with the innermost frame; `rest` is what it interrupted. -/
def proceed (env : Environment) (options : Options) (s : State) (rest : List Frame) :
    Frame → Except FormulaError State
  | .steps [] cell => .ok (s.leave cell rest)
  | .steps (step :: todo) cell =>
    { s with frames := .steps todo cell :: rest }.perform env options step
  | .range cursor loaded =>
    if cursor.remaining = 0 then
      { s with frames := rest }.replaceTop loaded fun items => .ok (.list items)
    else
      { s with frames := .range cursor.advance (loaded + 1) :: rest }.load env options
        cursor.next.name

/-- The next step of the machine. -/
def next (env : Environment) (options : Options) (s : State) : Progress :=
  match s.frames with
  | [] => .finished s.outcome
  | frame :: rest =>
    match s.proceed env options rest frame with
    | .error e => .finished (.error e)
    | .ok s => .running s

end State

end Evaluation

end Spreadsheet
