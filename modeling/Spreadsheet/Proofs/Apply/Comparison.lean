import Spreadsheet.Apply.Operators
import Spreadsheet.Proofs.Number.Order

/-!
# The order of scalars

Any two scalars are ordered, and the order is reversed when they change places: the empty text is
replaced in the same way on either side. The comparison operators only read that order, so they
agree with each other. The empty text is equal to zero, to false and to itself, and an undefined
number to every number, which no order of values can be; all other scalars are totally preordered.

## Main results

* `Value.orderScalars_swap`: the order is reversed when two values change places.
* `Value.isLE_orderScalars_trans`: it is transitive on definite values.
* `comparisons_coherent`: the laws of the order and of the comparison operators.
-/

namespace Spreadsheet

namespace Value

variable {u v w : Value} {operation : String}

/-! ## Any two scalars -/

/-- Two scalars are ordered, once the empty text is replaced. -/
theorem order_of_scalars (hv : v.isList = false) (hw : w.isList = false) (operation : String) :
    v.order w operation = .ok (orderScalars (v.besides w) (w.besides v)) := by
  rw [order, hv, hw]
  rfl

/-- A list has no order, and the first of two lists is the one that is named. -/
theorem order_of_isList (h : v.isList = true ∨ w.isList = true) :
    v.order w operation = .error ((if v.isList then v else w).mismatch operation) := by
  rw [order]
  cases hv : v.isList with
  | true => rfl
  | false =>
    rw [hv] at h
    rw [h.resolve_left Bool.false_ne_true]
    rfl

/-- The order is reversed when two values change places. -/
theorem orderScalars_swap (v w : Value) : orderScalars v w = (orderScalars w v).swap := by
  cases v with
  | number x =>
    cases w with
    | number y => exact Number.orderNumbers_swap x y
    | text | boolean | list => rfl
  | text s =>
    cases w with
    | text t => exact Std.OrientedOrd.eq_swap
    | number | boolean | list => rfl
  | boolean a =>
    cases w with
    | boolean b => exact Std.OrientedOrd.eq_swap
    | number | text | list => rfl
  | list => cases w <;> rfl

/-- Any two scalars have an order, whatever it is asked for, and the reverse one when they change
places. -/
theorem exists_order (hv : v.isList = false) (hw : w.isList = false) :
    ∃ o, ∀ operation, v.order w operation = .ok o ∧ w.order v operation = .ok o.swap := by
  refine ⟨_, fun operation => ⟨order_of_scalars hv hw operation, ?_⟩⟩
  rw [← orderScalars_swap]
  exact order_of_scalars hw hv operation

/-! ## Definite values -/

/-- A scalar that is neither the empty text, whose value depends on what it is compared with, nor an
undefined number. -/
def Definite : Value → Prop
  | .number n => n.isNaN = false
  | .text s => s.isEmpty = false
  | .boolean _ => True
  | .list _ => False

theorem Definite.isList_eq_false (h : v.Definite) : v.isList = false := by
  cases v with
  | list => exact h.elim
  | number | text | boolean => rfl

/-- Nothing stands for a definite value. -/
theorem Definite.besides_eq (h : v.Definite) (w : Value) : v.besides w = v := by
  have hempty : v.isEmpty = false := by
    cases v with
    | text s => exact h
    | number | boolean | list => rfl
  exact if_neg (by simp [hempty])

theorem Definite.order_eq (hv : v.Definite) (hw : w.Definite) :
    v.order w operation = .ok (orderScalars v w) := by
  rw [order_of_scalars hv.isList_eq_false hw.isList_eq_false, hv.besides_eq, hw.besides_eq]

/-- The order is transitive on definite values. Between values of three types it is the order of the
types; two values of one type have the same place beside a value of another type. -/
theorem isLE_orderScalars_trans (hu : u.Definite) (hv : v.Definite) (hw : w.Definite)
    (huv : (orderScalars u v).isLE = true) (hvw : (orderScalars v w).isLE = true) :
    (orderScalars u w).isLE = true := by
  cases u with
  | list => exact hu.elim
  | number x =>
    cases w with
    | list => exact hw.elim
    | text | boolean => rfl
    | number z =>
      cases v with
      | list => exact hv.elim
      | text | boolean => cases hvw
      | number y => exact Number.isLE_orderNumbers_trans hu hv hw huv hvw
  | text s =>
    cases v with
    | list => exact hv.elim
    | number => cases huv
    | text t =>
      cases w with
      | list => exact hw.elim
      | number => cases hvw
      | text r => exact Std.TransOrd.isLE_trans huv hvw
      | boolean => rfl
    | boolean =>
      cases w with
      | list => exact hw.elim
      | number | text => cases hvw
      | boolean => rfl
  | boolean a =>
    cases v with
    | list => exact hv.elim
    | number | text => cases huv
    | boolean b =>
      cases w with
      | list => exact hw.elim
      | number | text => cases hvw
      | boolean c => exact Std.TransOrd.isLE_trans huv hvw

/-- The empty text is equal to zero and to false, which are not equal to each other. -/
example : let v := number 0.0
    let w := boolean false
    v.order empty "=" = .ok .eq ∧ empty.order w "=" = .ok .eq ∧ v.order w "=" = .ok .lt :=
  ⟨rfl, rfl, rfl⟩

end Value

/-! ## Comparison operators -/

namespace Operator

variable {op : Operator} {v w : Value}

theorem apply_of_isComparison (h : op.isComparison = true) :
    op.apply [v, w] = (do return .boolean (op.holds (← v.order w op.symbol))) := by
  cases op with
  | equal | notEqual | lessThan | lessEqual | greaterThan | greaterEqual => rfl
  | range | identity | negate | percent | power | multiply | divide | add | subtract | concat =>
    cases h

/-- A comparison operator reads the order of its operands. -/
theorem apply_of_order {o : Ordering} (h : op.isComparison = true)
    (horder : v.order w op.symbol = .ok o) : op.apply [v, w] = .ok (.boolean (op.holds o)) := by
  rw [apply_of_isComparison h, horder]
  rfl

end Operator

/-- The laws of comparison. Two scalars are ordered, and the order is reversed when they change
places. The comparison operators agree: of less, equal and greater exactly one holds, the other
three are their negations, and one value is less than another if the other is greater. On definite
values the order is transitive, and so it is a total preorder. A list makes every comparison
fail. -/
theorem comparisons_coherent :
    (∀ (v w : Value) operation, v.isList = false → w.isList = false →
      ∃ o, v.order w operation = .ok o ∧ w.order v operation = .ok o.swap) ∧
    (∀ v w : Value, v.isList = false → w.isList = false → ∃ less equal greater : Bool,
      (∀ operation, v.order w operation =
        .ok (if less then .lt else if equal then .eq else .gt)) ∧
      [less, equal, greater].count true = 1 ∧
      Operator.lessThan.apply [v, w] = .ok (.boolean less) ∧
      Operator.equal.apply [v, w] = .ok (.boolean equal) ∧
      Operator.greaterThan.apply [v, w] = .ok (.boolean greater) ∧
      Operator.lessEqual.apply [v, w] = .ok (.boolean !greater) ∧
      Operator.notEqual.apply [v, w] = .ok (.boolean !equal) ∧
      Operator.greaterEqual.apply [v, w] = .ok (.boolean !less) ∧
      Operator.greaterThan.apply [w, v] = .ok (.boolean less)) ∧
    (∀ (u v w : Value) operation o p, u.Definite → v.Definite → w.Definite →
      u.order v operation = .ok o → o.isLE = true → v.order w operation = .ok p → p.isLE = true →
      ∃ q, u.order w operation = .ok q ∧ q.isLE = true) ∧
    (∀ (op : Operator) (v w : Value), op.isComparison = true → v.isList = true ∨ w.isList = true →
      op.apply [v, w] = .error ((if v.isList then v else w).mismatch op.symbol)) := by
  refine ⟨?_, ?_, ?_, ?_⟩
  · intro v w operation hv hw
    obtain ⟨o, ho⟩ := Value.exists_order hv hw
    exact ⟨o, ho operation⟩
  · intro v w hv hw
    obtain ⟨o, ho⟩ := Value.exists_order hv hw
    have hstates : ∀ op : Operator, op.isComparison = true →
        op.apply [v, w] = .ok (.boolean (op.holds o)) ∧
          op.apply [w, v] = .ok (.boolean (op.holds o.swap)) := fun op hop =>
      ⟨op.apply_of_order hop (ho op.symbol).1, op.apply_of_order hop (ho op.symbol).2⟩
    refine ⟨o == .lt, o == .eq, o == .gt, ?_, ?_, (hstates .lessThan rfl).1, (hstates .equal rfl).1,
      (hstates .greaterThan rfl).1, (hstates .lessEqual rfl).1, (hstates .notEqual rfl).1,
      (hstates .greaterEqual rfl).1, ?_⟩
    · intro operation
      rw [(ho operation).1]
      cases o <;> rfl
    · cases o <;> rfl
    · rw [(hstates .greaterThan rfl).2]
      cases o <;> rfl
  · intro u v w operation o p hu hv hw huv ho hvw hp
    rw [hu.order_eq hv, Except.ok.injEq] at huv
    rw [hv.order_eq hw, Except.ok.injEq] at hvw
    rw [← huv] at ho
    rw [← hvw] at hp
    exact ⟨_, hu.order_eq hw, Value.isLE_orderScalars_trans hu hv hw ho hp⟩
  · intro op v w hop hlist
    rw [Operator.apply_of_isComparison hop, Value.order_of_isList hlist]
    rfl

/-- A number, a text and a truth value beside each other, and a list behind the text. -/
theorem comparisons_coherent_mixed :
    let x : Value := .number 2.0
    let s : Value := .text "b"
    let b : Value := .boolean false
    let l : Value := .list [x]
    (x.isList = false ∧ s.isList = false ∧
      ∃ o, x.order s "<" = .ok o ∧ s.order x "<" = .ok o.swap) ∧
    (x.Definite ∧ s.Definite ∧ b.Definite ∧ x.order s "<" = .ok .lt ∧ s.order b "<" = .ok .lt ∧
      ∃ o, x.order b "<" = .ok o ∧ o.isLE = true) ∧
    (l.isList = true ∧ Operator.lessThan.apply [s, l] = .error (l.mismatch "<")) := by
  intro x s b l
  have hx : (2.0 : Float).isNaN = false := by decide +kernel
  have hs : s.Definite := rfl
  have hxs : x.order s "<" = .ok .lt := rfl
  have hsb : s.order b "<" = .ok .lt := rfl
  obtain ⟨hreversed, -, htrans, hlist⟩ := comparisons_coherent
  exact ⟨⟨rfl, rfl, hreversed x s "<" rfl rfl⟩,
    ⟨hx, hs, trivial, hxs, hsb, htrans x s b "<" .lt .lt hx hs trivial hxs rfl hsb rfl⟩,
    rfl, hlist .lessThan s l rfl (.inr rfl)⟩

end Spreadsheet
