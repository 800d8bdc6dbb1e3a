import Spreadsheet.Proofs.Apply.Leaves
import Spreadsheet.Proofs.Apply.Results
import Spreadsheet.Proofs.Number.Finite

/-!
# Operations on finite numbers

Most operations check that their result is finite. Those that do not have a finite result all the
same if their operands are finite, for they hand out one of their operands, or its negative, or a
quotient by a number that is not less than one. A sum is the exception: it can overflow, and so can
the sum that a mean is computed from.

## Main results

* `Operation.finite_of_apply`: an operation on finite values that does not overflow yields a finite
  value.
-/

namespace Spreadsheet

open Aggregate (numbersOf collect)

variable {v w : Value} {args : List Value} {x : Float} {xs : List Float}

namespace Value

/-- All numbers that a value holds are finite. -/
def Finite (v : Value) : Prop :=
  ∀ x, .number x ∈ v.leaves → x.isFinite = true

theorem finite_number_iff : (number x).Finite ↔ x.isFinite = true := by
  refine ⟨fun h => h x List.mem_cons_self, fun h y hy => ?_⟩
  cases List.mem_singleton.1 hy
  exact h

theorem finite_text (s : String) : (text s).Finite := by
  intro x hx
  cases List.mem_singleton.1 hx

theorem finite_boolean (b : Bool) : (boolean b).Finite := by
  intro x hx
  cases List.mem_singleton.1 hx

theorem mem_leavesOfAll_iff {items : List Value} :
    v ∈ leavesOfAll items ↔ ∃ item ∈ items, v ∈ item.leaves := by
  induction items with
  | nil => simp [leavesOfAll]
  | cons item rest ih => simp [leavesOfAll, ih]

theorem finite_list_iff {items : List Value} :
    (list items).Finite ↔ ∀ item ∈ items, item.Finite := by
  constructor
  · intro h item hitem x hx
    exact h x (mem_leavesOfAll_iff.2 ⟨item, hitem, hx⟩)
  · intro h x hx
    obtain ⟨item, hitem, hx⟩ := mem_leavesOfAll_iff.1 hx
    exact h item hitem x hx

/-- A finite value is converted to finite numbers: a text denotes no other. -/
theorem Finite.toNumber (hv : v.Finite) {operation : String} (h : v.toNumber operation = .ok x) :
    x.isFinite = true := by
  have hnumber : v.asNumber? = some x := by
    unfold Value.toNumber at h
    split at h
    · cases h
      assumption
    · cases h
  cases v with
  | number n =>
    cases hnumber
    exact finite_number_iff.1 hv
  | text s =>
    rw [asNumber?, numberOfText?] at hnumber
    split at hnumber
    · cases hnumber
      rfl
    · exact (Option.filter_eq_some_iff.1 hnumber).2
  | boolean b =>
    cases hnumber
    cases b <;> rfl
  | list items => cases hnumber

end Value

/-! ## Aggregates -/

namespace Aggregate

/-- Every part of a list of results is the result for one of the operands. -/
theorem exists_of_mapM {α : Type} {f : Value → Except FormulaError α} {parts : List α}
    (h : args.mapM f = .ok parts) : ∀ part ∈ parts, ∃ v ∈ args, f v = .ok part := by
  induction args generalizing parts with
  | nil =>
    cases h
    intro part hpart
    cases hpart
  | cons v rest ih =>
    rw [List.mapM_cons] at h
    obtain ⟨first, hfirst, h⟩ := bind_eq_ok.1 h
    obtain ⟨others, hothers, h⟩ := bind_eq_ok.1 h
    cases h
    refine List.forall_mem_cons.2 ⟨⟨v, List.mem_cons_self, hfirst⟩, fun part hpart => ?_⟩
    obtain ⟨w, hw, hpart⟩ := ih hothers part hpart
    exact ⟨w, List.mem_cons_of_mem v hw, hpart⟩

/-- The numbers that a finite operand contributes are finite. -/
theorem isFinite_of_numbersOf {operation : String} (hv : v.Finite)
    (h : numbersOf operation v = .ok xs) : ∀ x ∈ xs, x.isFinite = true := by
  cases v with
  | list items =>
    cases h
    intro x hx
    obtain ⟨item, hitem, hx⟩ := List.mem_filterMap.1 hx
    cases item with
    | number y =>
      cases hx
      exact Value.finite_number_iff.1 (Value.finite_list_iff.1 hv _ hitem)
    | _ => cases hx
  | _ =>
    obtain ⟨x, hx, h⟩ := bind_eq_ok.1 h
    cases h
    intro y hy
    cases List.mem_singleton.1 hy
    exact hv.toNumber hx

theorem isFinite_of_collect {operation : String} (hargs : ∀ v ∈ args, v.Finite)
    (h : collect (numbersOf operation) args = .ok xs) : ∀ x ∈ xs, x.isFinite = true := by
  obtain ⟨parts, hparts, hxs⟩ := bind_eq_ok.1 h
  cases hxs
  intro x hx
  obtain ⟨part, hpart, hx⟩ := List.mem_flatten.1 hx
  obtain ⟨v, hv, hpart⟩ := exists_of_mapM hparts part hpart
  exact isFinite_of_numbersOf (hargs v hv) hpart x hx

/-- A competition has a winner among those that compete. -/
theorem foldl_mem {better : Float → Float → Float}
    (hbetter : ∀ x y, better x y = x ∨ better x y = y) (x : Float) (rest : List Float) :
    rest.foldl better x ∈ x :: rest := by
  induction rest generalizing x with
  | nil => exact List.mem_cons_self
  | cons y rest ih =>
    rw [List.foldl_cons]
    rcases List.mem_cons.1 (ih (better x y)) with hwinner | hlater
    · rw [hwinner]
      rcases hbetter x y with hx | hy
      · rw [hx]
        exact List.mem_cons_self
      · rw [hy]
        exact List.mem_cons_of_mem x List.mem_cons_self
    · exact List.mem_cons_of_mem x (List.mem_cons_of_mem y hlater)

theorem lesser_eq (x y : Float) : lesser x y = x ∨ lesser x y = y := by
  unfold lesser
  split
  · exact .inr rfl
  · split
    · exact .inr rfl
    · exact .inl rfl

theorem greater_eq (x y : Float) : greater x y = x ∨ greater x y = y := by
  unfold greater
  split
  · exact .inr rfl
  · split
    · exact .inr rfl
    · exact .inl rfl

theorem isFinite_champion {better : Float → Float → Float}
    (hbetter : ∀ x y, better x y = x ∨ better x y = y) (hxs : ∀ x ∈ xs, x.isFinite = true) :
    (champion better xs).isFinite = true := by
  cases xs with
  | nil =>
    rw [champion]
    rfl
  | cons x rest => exact hxs _ (foldl_mem hbetter x rest)

end Aggregate

open Aggregate

/-! ## Overflow -/

/-- An operation leaves the range of doubles without noticing: a sum overflows, also one that a mean
is computed from, or more is counted than a machine can count. -/
inductive Operation.Overflows : Operation → List Value → Prop
  | total {f : Builtin} {args : List Value} {xs : List Float}
    (hf : f = .sum ∨ f = .average ∨ f = .mean) (h : collect (numbersOf f.name) args = .ok xs)
    (hxs : (Aggregate.total xs).isFinite = false) : Overflows (.builtin f) args
  | count {args : List Value} (h : 2 ^ 64 ≤ args.foldl (fun n v => n + countOf v) 0) :
    Overflows (.builtin .count) args
  | len {v : Value} {s : String} (h : v.toText Builtin.len.name = .ok s)
    (hs : 2 ^ 64 ≤ s.length) : Overflows (.builtin .len) [v]

theorem isFinite_total {f : Builtin} (hf : f = .sum ∨ f = .average ∨ f = .mean)
    (h : collect (numbersOf f.name) args = .ok xs)
    (hoverflow : ¬ (Operation.builtin f).Overflows args) : (total xs).isFinite = true := by
  cases hfinite : (total xs).isFinite with
  | true => rfl
  | false => exact absurd (.total hf h hfinite) hoverflow

/-- A number that is not checked is finite all the same, unless the operation overflows. -/
theorem Operation.Unchecked.isFinite {operation : Operation} (h : operation.Unchecked args x)
    (hargs : ∀ v ∈ args, v.Finite) (hoverflow : ¬ operation.Overflows args) :
    x.isFinite = true := by
  cases h with
  | identity h => exact (hargs _ List.mem_cons_self).toNumber h
  | negate h => exact Number.isFinite_neg ((hargs _ List.mem_cons_self).toNumber h)
  | percent h =>
    have hhundred : (100.0 : Float).toModel.unpack =
        .finite .positive 7036874417766400 (-46) (by decide) := rfl
    refine Number.isFinite_div ((hargs _ List.mem_cons_self).toNumber h) ?_
    rw [hhundred]
    exact .finite _ (by decide +kernel) (by decide)
  | pi => rfl
  | max h => exact isFinite_champion greater_eq (isFinite_of_collect hargs h)
  | min h => exact isFinite_champion lesser_eq (isFinite_of_collect hargs h)
  | sum h => exact isFinite_total (.inl rfl) h hoverflow
  | mean hf h hne =>
    exact Number.isFinite_div (isFinite_total (.inr hf) h hoverflow)
      (Number.atLeastOne_ofNat (List.length_pos_iff.2 hne))
  | count => exact Number.isFinite_ofNat (Nat.lt_of_not_le fun hle => hoverflow (.count hle))
  | len h => exact Number.isFinite_ofNat (Nat.lt_of_not_le fun hle => hoverflow (.len h hle))

/-- An operation on finite values that does not overflow yields a finite value. -/
theorem Operation.finite_of_apply {operation : Operation} (h : operation.apply args = .ok v)
    (hargs : ∀ v ∈ args, v.Finite) (hoverflow : ¬ operation.Overflows args) : v.Finite := by
  cases result_of_apply h with
  | operand hv => exact hargs _ hv
  | text s => exact Value.finite_text s
  | boolean b => exact Value.finite_boolean b
  | checked hx => exact Value.finite_number_iff.2 hx
  | unchecked hx => exact Value.finite_number_iff.2 (hx.isFinite hargs hoverflow)

end Spreadsheet
