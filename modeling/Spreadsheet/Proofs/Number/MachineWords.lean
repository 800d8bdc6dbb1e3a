import Mathlib.Algebra.Ring.Nat

/-!
# Arithmetic in machine words

Numbers are kept in words of a certain number of bits, without a sign. The library counts with
natural numbers instead; that this makes no difference is shown by doing the same work with checked
operations, which give nothing where a number leaves its word, and finding that they always give
something.
-/

namespace Spreadsheet

namespace Checked

variable {bits m n : Nat}

/-- A number put into a word of some bits; nothing if it does not fit. -/
def fit (bits n : Nat) : Option Nat :=
  if n < 2 ^ bits then some n else none

/-- A sum in a word of some bits; nothing if it does not fit. -/
def add (bits m n : Nat) : Option Nat :=
  if m + n < 2 ^ bits then some (m + n) else none

/-- A product in a word of some bits; nothing if it does not fit. -/
def mul (bits m n : Nat) : Option Nat :=
  if m * n < 2 ^ bits then some (m * n) else none

/-- A difference of words without a sign; nothing if it is below zero. -/
def sub (m n : Nat) : Option Nat :=
  if n ≤ m then some (m - n) else none

theorem fit_eq (h : n < 2 ^ bits) : fit bits n = some n := if_pos h

theorem add_eq (h : m + n < 2 ^ bits) : add bits m n = some (m + n) := if_pos h

theorem mul_eq (h : m * n < 2 ^ bits) : mul bits m n = some (m * n) := if_pos h

theorem sub_eq (h : n ≤ m) : sub m n = some (m - n) := if_pos h

/-- How many numbers there are from one number to another, both included, in a word of some bits. -/
def span (bits first last : Nat) : Option Nat := do
  add bits (← sub last first) 1

theorem span_eq (hle : m ≤ n) (hfits : n - m + 1 < 2 ^ bits) :
    span bits m n = some (n - m + 1) := by
  rw [span, sub_eq hle]
  exact add_eq hfits

end Checked

end Spreadsheet
