import Spreadsheet.Apply.Builtins

/-!
# Aggregates over lists

A function of any number of operands takes what each of them contributes, in their order, and knows
nothing else of them. The contribution of a list is that of its members, one after the other; so it
does not matter whether values come to such a function in one list or in two, neither for its value
nor for its error.

## Main results

* `Aggregate.collect_append`: two lists contribute what they contribute as one.
* `Builtin.apply_append`: an aggregate does not tell two lists from one.
-/

namespace Spreadsheet

/-- The functions of any number of operands. -/
def Builtin.aggregates : List Builtin :=
  [.sum, .min, .max, .average, .mean, .count, .and, .or, .xor, .concat]

namespace Aggregate

variable {α : Type} {contribution : Value → Except FormulaError (List α)}

/-- The contribution of a list is that of its parts, one after the other. -/
def Additive (contribution : Value → Except FormulaError (List α)) : Prop :=
  ∀ a b : List Value, contribution (.list (a ++ b)) = do
    return (← contribution (.list a)) ++ (← contribution (.list b))

theorem additive_numbersOf (operation : String) : Additive (numbersOf operation) := by
  intro a b
  simp only [numbersOf, List.filterMap_append]
  rfl

theorem additive_booleansOf (operation : String) : Additive (booleansOf operation) := by
  intro a b
  simp only [booleansOf, List.filter_append, List.mapM_append]

theorem additive_textsOf (operation : String) : Additive (textsOf operation) := by
  intro a b
  simp only [textsOf, List.mapM_append]

theorem countOf_append (a b : List Value) :
    countOf (.list (a ++ b)) = countOf (.list a) + countOf (.list b) := by
  simp only [countOf, List.filterMap_append, List.length_append]

/-- Two lists contribute what they contribute as one. -/
theorem collect_append (h : Additive contribution) (a b : List Value) :
    collect contribution [.list (a ++ b)] = collect contribution [.list a, .list b] := by
  simp only [collect, List.mapM_cons, List.mapM_nil, h a b]
  cases contribution (.list a) with
  | error e => rfl
  | ok xs =>
    cases contribution (.list b) with
    | error e => rfl
    | ok ys => simp [bind, Except.bind, pure, Except.pure]

/-! ### Every aggregate -/

section

variable (operation : String) (a b : List Value)

theorem sum_append : sum operation [.list (a ++ b)] = sum operation [.list a, .list b] := by
  rw [sum, sum, collect_append (additive_numbersOf operation)]

theorem extreme_append (better : Float → Float → Float) :
    extreme better operation [.list (a ++ b)] = extreme better operation [.list a, .list b] := by
  rw [extreme, extreme, collect_append (additive_numbersOf operation)]

theorem mean_append : mean operation [.list (a ++ b)] = mean operation [.list a, .list b] := by
  rw [mean, mean, collect_append (additive_numbersOf operation)]

theorem count_append : count [.list (a ++ b)] = count [.list a, .list b] := by
  simp only [count, List.foldl_cons, List.foldl_nil, countOf_append, Nat.add_assoc]

theorem logical_append (f : List Bool → Bool) :
    logical f operation [.list (a ++ b)] = logical f operation [.list a, .list b] := by
  rw [logical, logical, collect_append (additive_booleansOf operation)]

theorem concat_append :
    concat operation [.list (a ++ b)] = concat operation [.list a, .list b] := by
  rw [concat, concat, collect_append (additive_textsOf operation)]

end

end Aggregate

/-- An aggregate has the same value, or the same error, for values in one list and for the same ones
in two. -/
theorem Builtin.apply_append {f : Builtin} (hf : f ∈ aggregates) (a b : List Value) :
    f.apply [.list (a ++ b)] = f.apply [.list a, .list b] := by
  simp only [aggregates, List.mem_cons, List.not_mem_nil, or_false] at hf
  rcases hf with rfl | rfl | rfl | rfl | rfl | rfl | rfl | rfl | rfl | rfl
  · exact Aggregate.sum_append _ a b
  · exact Aggregate.extreme_append _ a b _
  · exact Aggregate.extreme_append _ a b _
  · exact Aggregate.mean_append _ a b
  · exact Aggregate.mean_append _ a b
  · exact Aggregate.count_append a b
  · exact Aggregate.logical_append _ a b _
  · exact Aggregate.logical_append _ a b _
  · exact Aggregate.logical_append _ a b _
  · exact Aggregate.concat_append _ a b

end Spreadsheet
