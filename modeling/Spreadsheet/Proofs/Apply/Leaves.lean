import Spreadsheet.Apply.Aggregate

/-!
# What a list holds

The aggregates look at the members of a list and not further. They see every scalar that a list
holds as long as no member is a list itself.

## Main results

* `Value.Flat.seen`: of a flat list the aggregates see everything that it holds.
-/

namespace Spreadsheet

namespace Value

/-- Lists have no other lists for members than certain ones. -/
def FlatUpTo (exempt : Value → Prop) : Value → Prop
  | .list items => ∀ v ∈ items, v.isList = true → exempt v
  | _ => True

/-- Lists have only scalars for members. -/
def Flat : Value → Prop
  | .list items => ∀ v ∈ items, v.isList = false
  | _ => True

variable {exempt : Value → Prop} {v : Value}

theorem flatUpTo_of_scalar (h : v.isList = false) : v.FlatUpTo exempt := by
  cases v with
  | list items => cases h
  | _ => trivial

theorem FlatUpTo.flat (h : v.FlatUpTo exempt) (hexempt : ∀ w, exempt w → w.isList = false) :
    v.Flat := by
  cases v with
  | list items =>
    intro w hw
    cases hlist : w.isList with
    | false => rfl
    | true => rw [← hlist, hexempt w (h w hw hlist)]
  | _ => trivial

mutual

/-- The scalars that a value holds, at any depth. -/
def leaves : Value → List Value
  | .list items => leavesOfAll items
  | .number n => [.number n]
  | .text s => [.text s]
  | .boolean b => [.boolean b]

/-- The scalars that several values hold. -/
def leavesOfAll : List Value → List Value
  | [] => []
  | v :: rest => v.leaves ++ leavesOfAll rest

end

theorem leaves_of_scalar (h : v.isList = false) : v.leaves = [v] := by
  cases v with
  | list items => cases h
  | _ => rfl

/-- A flat list holds its members and nothing else. -/
theorem Flat.leaves_eq {items : List Value} (h : (list items).Flat) :
    (list items).leaves = items := by
  rw [leaves]
  induction items with
  | nil => rfl
  | cons v rest ih =>
    obtain ⟨hv, hrest⟩ := List.forall_mem_cons.1 h
    rw [leavesOfAll, leaves_of_scalar hv, ih hrest]
    rfl

end Value

open Aggregate in
/-- What the aggregates take from a list is what they take from everything that it holds. -/
structure Value.Seen (items : List Value) : Prop where
  numbers (operation : String) :
    numbersOf operation (.list items) =
      .ok ((Value.list items).leaves.filterMap memberNumber?)
  count : countOf (.list items) = ((Value.list items).leaves.filterMap memberNumber?).length
  booleans (operation : String) :
    booleansOf operation (.list items) =
      ((Value.list items).leaves.filter isLogicalMember).mapM (·.toBoolean operation)
  texts (operation : String) :
    textsOf operation (.list items) = (Value.list items).leaves.mapM (·.toText operation)

theorem Value.Flat.seen {items : List Value} (h : (Value.list items).Flat) : Seen items := by
  constructor <;> intros <;> rw [h.leaves_eq] <;> rfl

end Spreadsheet
