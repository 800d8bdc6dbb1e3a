import Spreadsheet.Proofs.FailsOnly
import Spreadsheet.Apply.Builtins

/-!
# What an operation is blamed for

An operation that fails on its operands names itself in the error, whatever the operands are. If it
takes as many operands as there are, the error is about the operands: their types, or a result that
they do not have.

## Main results

* `Operation.failsOnly_apply`: the error of an operation blames that operation.
* `Operator.failsOnly_apply_of_admits`, `Builtin.failsOnly_apply_of_admits`: for the right number
  of operands, it is an error of the operands.
-/

namespace Spreadsheet

/-- The errors of a certain operation that are about its operands. -/
inductive FormulaError.OfOperands (operation : String) : FormulaError → Prop
  | typeMismatch (operand : String) : OfOperands operation (.typeMismatch operation operand)
  | divisionByZero : OfOperands operation (.divisionByZero operation)
  | notFinite : OfOperands operation (.evaluation (.notFinite operation))
  | undefinedFor (operand : String) :
    OfOperands operation (.evaluation (.undefinedFor operation operand))

/-- The errors that name a certain operation, and those of operators that no operands suit. -/
inductive FormulaError.Blames (operation : String) : FormulaError → Prop
  | argumentCount (expected : Arity) (actual : Nat) :
    Blames operation (.argumentCount operation expected actual)
  | typeMismatch (operand : String) : Blames operation (.typeMismatch operation operand)
  | divisionByZero : Blames operation (.divisionByZero operation)
  | notFinite : Blames operation (.evaluation (.notFinite operation))
  | undefinedFor (operand : String) :
    Blames operation (.evaluation (.undefinedFor operation operand))
  | unknownFunction : Blames operation (.unknownFunction operation)
  | rangeOfValues : Blames operation (.evaluation .rangeOfValues)

open FormulaError (Blames OfOperands)

theorem FormulaError.OfOperands.blames {operation : String} {e : FormulaError}
    (h : e.OfOperands operation) : e.Blames operation := by
  cases h with
  | typeMismatch operand => exact .typeMismatch operand
  | divisionByZero => exact .divisionByZero
  | notFinite => exact .notFinite
  | undefinedFor operand => exact .undefinedFor operand

variable (operation : String)

/-! ## Conversions and results -/

theorem Value.failsOnly_toNumber (v : Value) :
    FailsOnly (OfOperands operation) (v.toNumber operation) := by
  rw [toNumber]
  split
  · exact failsOnly_ok _
  · exact failsOnly_error.2 (.typeMismatch v.describe)

theorem Value.failsOnly_toBoolean (v : Value) :
    FailsOnly (OfOperands operation) (v.toBoolean operation) := by
  rw [toBoolean]
  split
  · exact failsOnly_ok _
  · exact failsOnly_error.2 (.typeMismatch v.describe)

theorem Value.failsOnly_toText (v : Value) :
    FailsOnly (OfOperands operation) (v.toText operation) := by
  rw [toText]
  split
  · exact failsOnly_error.2 (.typeMismatch v.describe)
  · exact failsOnly_ok _

theorem Value.failsOnly_order (v w : Value) :
    FailsOnly (OfOperands operation) (v.order w operation) := by
  rw [order]
  split
  · exact failsOnly_error.2 (.typeMismatch v.describe)
  · split
    · exact failsOnly_error.2 (.typeMismatch w.describe)
    · exact failsOnly_ok _

theorem failsOnly_finite (x : Float) : FailsOnly (OfOperands operation) (finite operation x) := by
  rw [finite]
  split
  · exact failsOnly_ok _
  · exact failsOnly_error.2 .notFinite

theorem failsOnly_outsideDomain {α : Type} (v : Value) :
    FailsOnly (OfOperands operation) (.error (outsideDomain operation v) : Except FormulaError α) :=
  failsOnly_error.2 (.undefinedFor v.describe)

/-! ## Operators -/

namespace Operator

/-- Arithmetic fails only on its operands; comparison and the operator that joins texts do without
it. -/
theorem failsOnly_arithmetic {op : Operator} (hfixity : op.fixity = .between) (hrange : op ≠ .range)
    (hconcat : op ≠ .concat) (hcompares : op.isComparison = false) (x y : Float) :
    FailsOnly (OfOperands op.symbol) (op.arithmetic x y) := by
  unfold arithmetic
  split
  · exact failsOnly_finite _ _
  · exact failsOnly_finite _ _
  · exact failsOnly_finite _ _
  · split
    · exact failsOnly_error.2 .divisionByZero
    · exact failsOnly_finite _ _
  · exact failsOnly_finite _ _
  · next hadd hsubtract hmultiply hdivide hpower => cases op <;> simp_all [fixity, isComparison]

theorem failsOnly_applyOne {op : Operator} (hfixity : op.fixity ≠ .between) (v : Value) :
    FailsOnly (OfOperands op.symbol) (op.applyOne v) := by
  unfold applyOne
  split
  · exact failsOnly_bind (v.failsOnly_toNumber _) fun x => failsOnly_ok _
  · exact failsOnly_bind (v.failsOnly_toNumber _) fun x => failsOnly_ok _
  · exact failsOnly_bind (v.failsOnly_toNumber _) fun x => failsOnly_ok _
  · next hidentity hnegate hpercent => cases op <;> simp_all [fixity]

theorem failsOnly_applyTwo {op : Operator} (hfixity : op.fixity = .between) (hrange : op ≠ .range)
    (v w : Value) : FailsOnly (OfOperands op.symbol) (op.applyTwo v w) := by
  rw [applyTwo]
  split
  · refine failsOnly_bind (v.failsOnly_toText _) fun s => ?_
    exact failsOnly_bind (w.failsOnly_toText _) fun t => failsOnly_ok _
  · next hconcat =>
    split
    · exact failsOnly_bind (v.failsOnly_order _ w) fun o => failsOnly_ok _
    · next hcompares =>
      refine failsOnly_bind (v.failsOnly_toNumber _) fun x => ?_
      refine failsOnly_bind (w.failsOnly_toNumber _) fun y => ?_
      exact failsOnly_arithmetic hfixity hrange hconcat (by simpa using hcompares) x y

theorem admits_arity_of_between {op : Operator} (hfixity : op.fixity = .between) (n : Nat) :
    op.arity.admits n = true ↔ n = 2 := by
  simp only [arity, if_pos hfixity, Arity.admits, Arity.exactly, Bool.and_eq_true,
    decide_eq_true_eq, Option.all_some]
  omega

theorem admits_arity_of_not_between {op : Operator} (hfixity : op.fixity ≠ .between) (n : Nat) :
    op.arity.admits n = true ↔ n = 1 := by
  simp only [arity, if_neg hfixity, Arity.admits, Arity.exactly, Bool.and_eq_true,
    decide_eq_true_eq, Option.all_some]
  omega

/-- An operator with as many operands as it takes fails only on them. -/
theorem failsOnly_apply_of_admits {op : Operator} {args : List Value} (hrange : op ≠ .range)
    (h : op.arity.admits args.length = true) :
    FailsOnly (OfOperands op.symbol) (op.apply args) := by
  by_cases hfixity : op.fixity = .between
  · rw [admits_arity_of_between hfixity] at h
    match args, h with
    | [v, w], _ =>
      rw [apply]
      · exact failsOnly_applyTwo hfixity hrange v w
      · exact hrange
  · rw [admits_arity_of_not_between hfixity] at h
    match args, h with
    | [v], _ =>
      rw [apply]
      · exact failsOnly_applyOne hfixity v
      · exact hrange

/-- With another number of operands, an operator fails as one that they do not suit. -/
theorem failsOnly_apply_of_not_admits {op : Operator} {args : List Value}
    (h : op.arity.admits args.length ≠ true) : FailsOnly (Blames op.symbol) (op.apply args) := by
  unfold apply
  split
  · exact failsOnly_error.2 .rangeOfValues
  · unfold applyOne
    split
    · exact absurd rfl h
    · exact absurd rfl h
    · exact absurd rfl h
    · exact failsOnly_error.2 (.argumentCount _ _)
  · next v w _ =>
    have hfixity : op.fixity ≠ .between :=
      fun hfixity => h ((admits_arity_of_between hfixity _).2 rfl)
    have hconcat : op ≠ .concat := fun hop => hfixity (by rw [hop]; rfl)
    have hcompares : op.isComparison = false := by cases op <;> simp_all [fixity, isComparison]
    rw [applyTwo, if_neg hconcat, hcompares]
    refine failsOnly_bind ((v.failsOnly_toNumber _).mono fun _ => OfOperands.blames) fun x => ?_
    refine failsOnly_bind ((w.failsOnly_toNumber _).mono fun _ => OfOperands.blames) fun y => ?_
    unfold arithmetic
    split
    · exact absurd rfl hfixity
    · exact absurd rfl hfixity
    · exact absurd rfl hfixity
    · exact absurd rfl hfixity
    · exact absurd rfl hfixity
    · exact failsOnly_error.2 .unknownFunction
  · exact failsOnly_error.2 (.argumentCount _ _)

/-- The error of an operator blames that operator. -/
theorem failsOnly_apply (op : Operator) (args : List Value) :
    FailsOnly (Blames op.symbol) (op.apply args) := by
  by_cases hrange : op = .range
  · rw [hrange]
    exact failsOnly_error.2 .rangeOfValues
  by_cases h : op.arity.admits args.length = true
  · exact (failsOnly_apply_of_admits hrange h).mono fun _ => OfOperands.blames
  · exact failsOnly_apply_of_not_admits h

end Operator

/-! ## Functions of real numbers -/

namespace Real

theorem failsOnly_everywhere (f : Float → Float) (v : Value) :
    FailsOnly (OfOperands operation) (everywhere operation f v) :=
  failsOnly_bind (v.failsOnly_toNumber operation) fun _ => failsOnly_finite operation _

theorem failsOnly_except (excluded : Float → Bool) (f : Float → Float) (v : Value) :
    FailsOnly (OfOperands operation) (Real.except operation excluded f v) := by
  refine failsOnly_bind (v.failsOnly_toNumber operation) fun x => ?_
  split
  · exact failsOnly_outsideDomain operation v
  · exact failsOnly_finite operation _

theorem failsOnly_log (v : Value) (base? : Option Value) :
    FailsOnly (OfOperands operation) (log operation v base?) := by
  refine failsOnly_bind (v.failsOnly_toNumber operation) fun x => ?_
  split
  · exact failsOnly_outsideDomain operation v
  · split
    · exact failsOnly_finite operation _
    · next base =>
      refine failsOnly_bind (base.failsOnly_toNumber operation) fun b => ?_
      split
      · exact failsOnly_outsideDomain operation base
      · exact failsOnly_finite operation _

theorem failsOnly_round (v : Value) (places? : Option Value) :
    FailsOnly (OfOperands operation) (round operation v places?) := by
  refine failsOnly_bind (v.failsOnly_toNumber operation) fun x => ?_
  cases places? with
  | none => exact failsOnly_finite operation _
  | some p =>
    refine failsOnly_bind ?_ fun places => failsOnly_finite operation _
    exact failsOnly_map (p.failsOnly_toNumber operation) _

theorem failsOnly_modulo (v w : Value) :
    FailsOnly (OfOperands operation) (modulo operation v w) := by
  refine failsOnly_bind (v.failsOnly_toNumber operation) fun x => ?_
  refine failsOnly_bind (w.failsOnly_toNumber operation) fun d => ?_
  split
  · exact failsOnly_error.2 .divisionByZero
  · exact failsOnly_finite operation _

theorem failsOnly_power (v w : Value) : FailsOnly (OfOperands operation) (power operation v w) := by
  refine failsOnly_bind (v.failsOnly_toNumber operation) fun x => ?_
  exact failsOnly_bind (w.failsOnly_toNumber operation) fun y => failsOnly_finite operation _

end Real

/-! ## Functions of any number of operands -/

namespace Aggregate

variable {α : Type}

theorem failsOnly_numbersOf (v : Value) :
    FailsOnly (OfOperands operation) (numbersOf operation v) := by
  unfold numbersOf
  split
  · exact failsOnly_ok _
  · exact failsOnly_bind (Value.failsOnly_toNumber operation _) fun x => failsOnly_ok _

theorem failsOnly_booleansOf (v : Value) :
    FailsOnly (OfOperands operation) (booleansOf operation v) := by
  unfold booleansOf
  split
  · exact failsOnly_mapM (fun w => w.failsOnly_toBoolean operation) _
  · exact failsOnly_bind (Value.failsOnly_toBoolean operation _) fun b => failsOnly_ok _

theorem failsOnly_textsOf (v : Value) : FailsOnly (OfOperands operation) (textsOf operation v) := by
  unfold textsOf
  split
  · exact failsOnly_mapM (fun w => w.failsOnly_toText operation) _
  · exact failsOnly_bind (Value.failsOnly_toText operation _) fun s => failsOnly_ok _

theorem failsOnly_collect {contribution : Value → Except FormulaError (List α)}
    (h : ∀ v, FailsOnly (OfOperands operation) (contribution v)) (args : List Value) :
    FailsOnly (OfOperands operation) (collect contribution args) :=
  failsOnly_bind (failsOnly_mapM h args) fun _ => failsOnly_ok _

theorem failsOnly_sum (args : List Value) :
    FailsOnly (OfOperands operation) (sum operation args) :=
  failsOnly_bind (failsOnly_collect operation (failsOnly_numbersOf operation) args)
    fun _ => failsOnly_ok _

theorem failsOnly_extreme (better : Float → Float → Float) (args : List Value) :
    FailsOnly (OfOperands operation) (extreme better operation args) :=
  failsOnly_bind (failsOnly_collect operation (failsOnly_numbersOf operation) args)
    fun _ => failsOnly_ok _

theorem failsOnly_mean (args : List Value) :
    FailsOnly (OfOperands operation) (mean operation args) := by
  refine failsOnly_bind (failsOnly_collect operation (failsOnly_numbersOf operation) args)
    fun xs => ?_
  split
  · exact failsOnly_error.2 .divisionByZero
  · exact failsOnly_ok _

theorem failsOnly_logical (f : List Bool → Bool) (args : List Value) :
    FailsOnly (OfOperands operation) (logical f operation args) :=
  failsOnly_bind (failsOnly_collect operation (failsOnly_booleansOf operation) args)
    fun _ => failsOnly_ok _

theorem failsOnly_concat (args : List Value) :
    FailsOnly (OfOperands operation) (concat operation args) :=
  failsOnly_bind (failsOnly_collect operation (failsOnly_textsOf operation) args)
    fun _ => failsOnly_ok _

end Aggregate

/-! ## Built-in functions -/

namespace Shape

/-- A function of this shape fails only with errors of a certain kind. -/
def FailsOnly (P : FormulaError → Prop) : Shape → Prop
  | .nullary f => Spreadsheet.FailsOnly P f
  | .unary f => ∀ x, Spreadsheet.FailsOnly P (f x)
  | .binary f => ∀ x y, Spreadsheet.FailsOnly P (f x y)
  | .unaryOrBinary f => ∀ x y?, Spreadsheet.FailsOnly P (f x y?)
  | .binaryOrTernary f => ∀ x y z?, Spreadsheet.FailsOnly P (f x y z?)
  | .variadic f => ∀ xs, Spreadsheet.FailsOnly P (f xs)

theorem FailsOnly.outcome? {P : FormulaError → Prop} {s : Shape} (h : s.FailsOnly P)
    {args : List Value} {outcome : Outcome} (houtcome : s.outcome? args = some outcome) :
    Spreadsheet.FailsOnly P outcome := by
  unfold Shape.outcome? at houtcome
  split at houtcome <;> cases houtcome
  · exact h
  · exact h _
  · exact h _ _
  · exact h _ _
  · exact h _ _
  · exact h _ _ _
  · exact h _ _ _
  · exact h _

end Shape

namespace Builtin

theorem failsOnly_chooseBy (condition whenTrue : Value) (whenFalse? : Option Value) :
    FailsOnly (OfOperands operation) (chooseBy operation condition whenTrue whenFalse?) :=
  failsOnly_bind (condition.failsOnly_toBoolean operation) fun _ => failsOnly_ok _

theorem failsOnly_ofText (f : String → Value) (v : Value) :
    FailsOnly (OfOperands operation) (ofText operation f v) :=
  failsOnly_bind (v.failsOnly_toText operation) fun _ => failsOnly_ok _

theorem failsOnly_shape (f : Builtin) : f.shape.FailsOnly (OfOperands f.name) := by
  cases f
  case abs | cos | sin | tan | exp | ceil | floor | int =>
    exact fun v => Real.failsOnly_everywhere _ _ v
  case log10 | sqrt => exact fun v => Real.failsOnly_except _ _ _ v
  case log => exact fun v base? => Real.failsOnly_log _ v base?
  case pi => exact failsOnly_ok _
  case round => exact fun v places? => Real.failsOnly_round _ v places?
  case mod => exact fun v w => Real.failsOnly_modulo _ v w
  case power => exact fun v w => Real.failsOnly_power _ v w
  case max | min => exact fun args => Aggregate.failsOnly_extreme _ _ args
  case sum => exact fun args => Aggregate.failsOnly_sum _ args
  case average | mean => exact fun args => Aggregate.failsOnly_mean _ args
  case count => exact fun args => failsOnly_ok _
  case and | or | xor => exact fun args => Aggregate.failsOnly_logical _ _ args
  case not => exact fun v => failsOnly_bind (v.failsOnly_toBoolean _) fun b => failsOnly_ok _
  case choose => exact fun condition v w? => failsOnly_chooseBy _ condition v w?
  case len | upper | lower => exact fun v => failsOnly_ofText _ _ v
  case concat => exact fun args => Aggregate.failsOnly_concat _ args

/-- On as many operands as it takes, a function has the outcome that its shape gives. -/
theorem outcome?_of_admits {f : Builtin} {args : List Value}
    (h : f.arity.admits args.length = true) : f.shape.outcome? args = some (f.apply args) := by
  rw [arity, ← Shape.outcome?_isSome] at h
  obtain ⟨outcome, houtcome⟩ := Option.isSome_iff_exists.1 h
  rw [apply, houtcome]

/-- A function with as many operands as it takes fails only on them. -/
theorem failsOnly_apply_of_admits {f : Builtin} {args : List Value}
    (h : f.arity.admits args.length = true) : FailsOnly (OfOperands f.name) (f.apply args) :=
  f.failsOnly_shape.outcome? (outcome?_of_admits h)

/-- No function looks at operands of another number. -/
theorem apply_of_not_admits {f : Builtin} {args : List Value}
    (h : f.arity.admits args.length = false) :
    f.apply args = .error (.argumentCount f.name f.arity args.length) := by
  rw [arity, ← Shape.outcome?_isSome, Option.isSome_eq_false_iff, Option.isNone_iff_eq_none] at h
  rw [apply, h]

/-- The error of a function blames that function. -/
theorem failsOnly_apply (f : Builtin) (args : List Value) :
    FailsOnly (Blames f.name) (f.apply args) := by
  cases h : f.arity.admits args.length with
  | true => exact (failsOnly_apply_of_admits h).mono fun _ => OfOperands.blames
  | false =>
    rw [apply_of_not_admits h]
    exact failsOnly_error.2 (.argumentCount _ _)

end Builtin

/-- The error of an operation blames that operation. -/
theorem Operation.failsOnly_apply (operation : Operation) (args : List Value) :
    FailsOnly (Blames operation.name) (operation.apply args) := by
  cases operation with
  | operator op => exact op.failsOnly_apply args
  | builtin f => exact f.failsOnly_apply args

end Spreadsheet
