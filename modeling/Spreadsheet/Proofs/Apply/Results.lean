import Spreadsheet.Apply.Builtins

/-!
# What comes out of an operation

An operation yields one of its operands, a text, a truth value or a number, and never a list of its
own. Most numbers are checked for being finite before they are handed out. Those of the signs, the
percent sign, the aggregates and the functions that count are not.

## Main results

* `Operation.result_of_apply`: all that an operation can yield.
-/

namespace Spreadsheet

open Aggregate (numbersOf collect)

/-- The numbers that operations yield without a check. -/
inductive Operation.Unchecked : Operation → List Value → Float → Prop
  | identity {v : Value} {x : Float} (h : v.toNumber Operator.identity.symbol = .ok x) :
    Unchecked (.operator .identity) [v] x
  | negate {v : Value} {x : Float} (h : v.toNumber Operator.negate.symbol = .ok x) :
    Unchecked (.operator .negate) [v] (-x)
  | percent {v : Value} {x : Float} (h : v.toNumber Operator.percent.symbol = .ok x) :
    Unchecked (.operator .percent) [v] (x / 100.0)
  | pi : Unchecked (.builtin .pi) [] Real.pi
  | max {args : List Value} {xs : List Float}
    (h : collect (numbersOf Builtin.max.name) args = .ok xs) :
    Unchecked (.builtin .max) args (Aggregate.champion Aggregate.greater xs)
  | min {args : List Value} {xs : List Float}
    (h : collect (numbersOf Builtin.min.name) args = .ok xs) :
    Unchecked (.builtin .min) args (Aggregate.champion Aggregate.lesser xs)
  | sum {args : List Value} {xs : List Float}
    (h : collect (numbersOf Builtin.sum.name) args = .ok xs) :
    Unchecked (.builtin .sum) args (Aggregate.total xs)
  | mean {f : Builtin} {args : List Value} {xs : List Float} (hf : f = .average ∨ f = .mean)
    (h : collect (numbersOf f.name) args = .ok xs) (hne : xs ≠ []) :
    Unchecked (.builtin f) args (Aggregate.total xs / Float.ofNat xs.length)
  | count (args : List Value) :
    Unchecked (.builtin .count) args
      (Float.ofNat (args.foldl (fun n v => n + Aggregate.countOf v) 0))
  | len {v : Value} {s : String} (h : v.toText Builtin.len.name = .ok s) :
    Unchecked (.builtin .len) [v] (Float.ofNat s.length)

/-- What an operation can yield on some operands. -/
inductive Operation.Result (operation : Operation) (args : List Value) : Value → Prop
  | operand {v : Value} (h : v ∈ args) : Result operation args v
  | text (s : String) : Result operation args (.text s)
  | boolean (b : Bool) : Result operation args (.boolean b)
  | checked {x : Float} (h : x.isFinite = true) : Result operation args (.number x)
  | unchecked {x : Float} (h : operation.Unchecked args x) : Result operation args (.number x)

open Operation (Result Unchecked)

variable {v w : Value} {args : List Value}

/-- The parts of a computation that succeeds. -/
theorem bind_eq_ok {α β : Type} {r : Except FormulaError α} {f : α → Except FormulaError β}
    {b : β} : (r >>= f) = .ok b ↔ ∃ a, r = .ok a ∧ f a = .ok b := by
  cases r with
  | error e => simp [bind, Except.bind]
  | ok a => simp [bind, Except.bind]

theorem result_of_finite {operation : Operation} {name : String} {x : Float}
    (h : finite name x = .ok v) : operation.Result args v := by
  unfold finite at h
  split at h
  · next hfinite =>
    cases h
    exact .checked hfinite
  · cases h

/-! ## Operators -/

namespace Operator

variable {op : Operator}

theorem result_of_arithmetic {operation : Operation} {x y : Float}
    (h : op.arithmetic x y = .ok v) : operation.Result args v := by
  unfold arithmetic at h
  split at h
  · exact result_of_finite h
  · exact result_of_finite h
  · exact result_of_finite h
  · split at h
    · cases h
    · exact result_of_finite h
  · exact result_of_finite h
  · cases h

theorem result_of_applyOne (h : op.applyOne v = .ok w) : (Operation.operator op).Result [v] w := by
  unfold applyOne at h
  split at h
  · obtain ⟨x, hx, hw⟩ := bind_eq_ok.1 h
    cases hw
    exact .unchecked (.identity hx)
  · obtain ⟨x, hx, hw⟩ := bind_eq_ok.1 h
    cases hw
    exact .unchecked (.negate hx)
  · obtain ⟨x, hx, hw⟩ := bind_eq_ok.1 h
    cases hw
    exact .unchecked (.percent hx)
  · cases h

theorem result_of_applyTwo {operation : Operation} {u : Value} (h : op.applyTwo v w = .ok u) :
    operation.Result args u := by
  unfold applyTwo at h
  split at h
  · obtain ⟨s, _, h⟩ := bind_eq_ok.1 h
    obtain ⟨t, _, h⟩ := bind_eq_ok.1 h
    cases h
    exact .text (s ++ t)
  · split at h
    · obtain ⟨o, _, h⟩ := bind_eq_ok.1 h
      cases h
      exact .boolean _
    · obtain ⟨x, _, h⟩ := bind_eq_ok.1 h
      obtain ⟨y, _, h⟩ := bind_eq_ok.1 h
      exact result_of_arithmetic h

theorem result_of_apply (h : op.apply args = .ok v) : (Operation.operator op).Result args v := by
  unfold apply at h
  split at h
  · cases h
  · exact result_of_applyOne h
  · exact result_of_applyTwo h
  · cases h

end Operator

/-! ## Functions of real numbers -/

namespace Real

variable {operation : Operation} {name : String}

theorem result_of_everywhere {f : Float → Float} (h : everywhere name f v = .ok w) :
    operation.Result args w := by
  obtain ⟨x, _, h⟩ := bind_eq_ok.1 h
  exact result_of_finite h

theorem result_of_except {excluded : Float → Bool} {f : Float → Float}
    (h : Real.except name excluded f v = .ok w) : operation.Result args w := by
  obtain ⟨x, _, h⟩ := bind_eq_ok.1 h
  split at h
  · cases h
  · exact result_of_finite h

theorem result_of_log {base? : Option Value} (h : log name v base? = .ok w) :
    operation.Result args w := by
  obtain ⟨x, _, h⟩ := bind_eq_ok.1 h
  split at h
  · cases h
  · split at h
    · exact result_of_finite h
    · obtain ⟨b, _, h⟩ := bind_eq_ok.1 h
      split at h
      · cases h
      · exact result_of_finite h

theorem result_of_round {places? : Option Value} (h : round name v places? = .ok w) :
    operation.Result args w := by
  obtain ⟨x, _, h⟩ := bind_eq_ok.1 h
  cases places? with
  | none => exact result_of_finite h
  | some p =>
    obtain ⟨places, _, h⟩ := bind_eq_ok.1 h
    exact result_of_finite h

theorem result_of_modulo {u : Value} (h : modulo name v w = .ok u) : operation.Result args u := by
  obtain ⟨x, _, h⟩ := bind_eq_ok.1 h
  obtain ⟨d, _, h⟩ := bind_eq_ok.1 h
  split at h
  · cases h
  · exact result_of_finite h

theorem result_of_power {u : Value} (h : power name v w = .ok u) : operation.Result args u := by
  obtain ⟨x, _, h⟩ := bind_eq_ok.1 h
  obtain ⟨y, _, h⟩ := bind_eq_ok.1 h
  exact result_of_finite h

end Real

/-! ## Built-in functions -/

/-- Whatever a function of this shape yields is related to its operands. -/
def Shape.Yields (R : List Value → Value → Prop) : Shape → Prop
  | .nullary f => ∀ v, f = .ok v → R [] v
  | .unary f => ∀ x v, f x = .ok v → R [x] v
  | .binary f => ∀ x y v, f x y = .ok v → R [x, y] v
  | .unaryOrBinary f =>
    (∀ x v, f x none = .ok v → R [x] v) ∧ ∀ x y v, f x (some y) = .ok v → R [x, y] v
  | .binaryOrTernary f =>
    (∀ x y v, f x y none = .ok v → R [x, y] v) ∧
      ∀ x y z v, f x y (some z) = .ok v → R [x, y, z] v
  | .variadic f => ∀ args v, f args = .ok v → R args v

theorem Shape.Yields.outcome? {R : List Value → Value → Prop} {s : Shape} (h : s.Yields R)
    (houtcome : s.outcome? args = some (.ok v)) : R args v := by
  unfold Shape.outcome? at houtcome
  split at houtcome <;> simp only [Option.some.injEq, reduceCtorEq] at houtcome
  · exact h v houtcome
  · exact h _ v houtcome
  · exact h _ _ v houtcome
  · exact h.1 _ v houtcome
  · exact h.2 _ _ v houtcome
  · exact h.1 _ _ v houtcome
  · exact h.2 _ _ _ v houtcome
  · exact h _ v houtcome

namespace Builtin

theorem result_of_mean {f : Builtin} (hf : f = .average ∨ f = .mean)
    (h : Aggregate.mean f.name args = .ok v) : (Operation.builtin f).Result args v := by
  obtain ⟨xs, hxs, h⟩ := bind_eq_ok.1 h
  split at h
  · cases h
  · next hne =>
    cases h
    exact .unchecked (.mean hf hxs (by simpa using hne))

theorem result_of_choose {operation : Operation} {name : String} {condition u : Value}
    {whenFalse? : Option Value} (hv : v ∈ args) (hw : ∀ w, whenFalse? = some w → w ∈ args)
    (h : chooseBy name condition v whenFalse? = .ok u) : operation.Result args u := by
  obtain ⟨b, _, h⟩ := bind_eq_ok.1 h
  cases h
  split
  · exact .operand hv
  · cases whenFalse? with
    | none => exact .boolean false
    | some w => exact .operand (hw w rfl)

theorem result_of_logical {operation : Operation} {name : String} {f : List Bool → Bool}
    (h : Aggregate.logical f name args = .ok v) : operation.Result args v := by
  obtain ⟨bs, _, h⟩ := bind_eq_ok.1 h
  cases h
  exact .boolean _

theorem result_of_concat {operation : Operation} {name : String}
    (h : Aggregate.concat name args = .ok v) : operation.Result args v := by
  obtain ⟨texts, _, h⟩ := bind_eq_ok.1 h
  cases h
  exact .text _

theorem result_of_shape (f : Builtin) : f.shape.Yields (Operation.builtin f).Result := by
  cases f
  case abs | cos | sin | tan | exp | ceil | floor | int =>
    exact fun x v h => Real.result_of_everywhere h
  case log10 | sqrt => exact fun x v h => Real.result_of_except h
  case log => exact ⟨fun x v h => Real.result_of_log h, fun x y v h => Real.result_of_log h⟩
  case pi =>
    intro v h
    cases h
    exact .unchecked .pi
  case round => exact ⟨fun x v h => Real.result_of_round h, fun x y v h => Real.result_of_round h⟩
  case mod => exact fun x y v h => Real.result_of_modulo h
  case power => exact fun x y v h => Real.result_of_power h
  case max =>
    intro args v h
    obtain ⟨xs, hxs, h⟩ := bind_eq_ok.1 h
    cases h
    exact .unchecked (.max hxs)
  case min =>
    intro args v h
    obtain ⟨xs, hxs, h⟩ := bind_eq_ok.1 h
    cases h
    exact .unchecked (.min hxs)
  case sum =>
    intro args v h
    obtain ⟨xs, hxs, h⟩ := bind_eq_ok.1 h
    cases h
    exact .unchecked (.sum hxs)
  case average => exact fun args v h => result_of_mean (.inl rfl) h
  case mean => exact fun args v h => result_of_mean (.inr rfl) h
  case count =>
    intro args v h
    cases h
    exact .unchecked (.count args)
  case and | or | xor => exact fun args v h => result_of_logical h
  case not =>
    intro x v h
    obtain ⟨b, _, h⟩ := bind_eq_ok.1 h
    cases h
    exact .boolean _
  case choose =>
    exact ⟨fun x y v h => result_of_choose (by simp) (by simp) h,
      fun x y z v h => result_of_choose (by simp) (by simp) h⟩
  case len =>
    intro x v h
    obtain ⟨s, hs, h⟩ := bind_eq_ok.1 h
    cases h
    exact .unchecked (.len hs)
  case upper | lower =>
    intro x v h
    obtain ⟨s, _, h⟩ := bind_eq_ok.1 h
    cases h
    exact .text _
  case concat => exact fun args v h => result_of_concat h

theorem result_of_apply {f : Builtin} (h : f.apply args = .ok v) :
    (Operation.builtin f).Result args v := by
  unfold apply at h
  split at h
  · next outcome houtcome =>
    rw [h] at houtcome
    exact f.result_of_shape.outcome? houtcome
  · cases h

end Builtin

/-- All that an operation can yield. -/
theorem Operation.result_of_apply {operation : Operation} (h : operation.apply args = .ok v) :
    operation.Result args v := by
  cases operation with
  | operator op => exact Operator.result_of_apply h
  | builtin f => exact Builtin.result_of_apply h

end Spreadsheet
