import Spreadsheet.Calculation
import Spreadsheet.Proofs.Evaluation.Remembering
import Spreadsheet.Proofs.Formula.CellNames

/-!
# What formulas find on a sheet

A sheet knows its cells by their places, and formulas look them up by their names. Under a canonical
name a formula finds what was written to that cell, and what is written to another cell does not
change that. Formulas refer to cells by canonical names only, so the formula cells that they can
reach are no more than the formula cells of the sheet.

## Main results

* `lookup_write_of_ne`: writing to a cell changes what is found under no other canonical name.
* `covers_formulaNames`: all formula cells that a formula leads to are formula cells of the sheet.
-/

namespace Spreadsheet.Sheet

variable {s : Sheet} {p : Position} {cell name text : String} {content : Content}

/-! ## Places and names -/

theorem place_name (h : p.inGrid = true) : place p.name = .ok p := by
  rw [place, parse_name h]
  rfl

theorem inGrid_of_place (h : place cell = .ok p) : p.inGrid = true := by
  rw [place] at h
  split at h
  · next a ha =>
    cases h
    exact inGrid_of_parse ha
  · cases h

/-- A canonical name is that of the place which it names. -/
theorem name_of_place (hname : Canonical name) (h : place name = .ok p) : p.name = name := by
  rw [place] at h
  split at h
  · next a ha =>
    cases h
    exact hname a ha
  · cases h

/-! ## Writing -/

/-- The sheet with another content in one cell. -/
def write (s : Sheet) (p : Position) (content : Content) : Sheet :=
  { s with cells := s.cells.insert p content }

theorem set_of_place (h : place cell = .ok p) : s.set cell content = .ok (s.write p content) := by
  rw [set, h]
  rfl

@[simp] theorem options_write : (s.write p content).options = s.options := rfl

/-- Under the name of a cell, a formula finds what was written to it. -/
theorem lookup_write_self (h : p.inGrid = true) :
    (s.write p content).lookup p.name = some content := by
  rw [lookup, place_name h]
  exact Std.TreeMap.getElem?_insert_self

/-- Under any other canonical name, it finds what it found before. -/
theorem lookup_write_of_ne (hname : Canonical name) (hne : name ≠ p.name) :
    (s.write p content).lookup name = s.lookup name := by
  rw [lookup, lookup]
  cases hplace : place name with
  | error e => rfl
  | ok q =>
    have hpq : p ≠ q := fun heq => hne (heq ▸ (name_of_place hname hplace).symm)
    change (s.cells.insert p content)[q]? = s.cells[q]?
    rw [Std.TreeMap.getElem?_insert, if_neg (by simpa using hpq)]

/-! ## Formula cells -/

/-- The names of the formula cells. -/
def formulaNames (s : Sheet) : Finset String :=
  (s.formulaCells.map Position.name).toFinset

theorem card_formulaNames_le (s : Sheet) : s.formulaNames.card ≤ s.formulaCells.length := by
  rw [← List.length_map (f := Position.name)]
  exact List.toFinset_card_le _

theorem mem_formulaNames (hname : Canonical name) (h : s.lookup name = some (.formula text)) :
    name ∈ s.formulaNames := by
  rw [lookup] at h
  split at h
  · next p hplace =>
    have hmem : (p, Content.formula text) ∈ s.toList :=
      Std.TreeMap.mem_toList_iff_getElem?_eq_some.2 h
    have hp : p ∈ s.formulaCells := by
      rw [formulaCells, List.mem_map]
      exact ⟨_, List.mem_filter.2 ⟨hmem, rfl⟩, rfl⟩
    rw [formulaNames, List.mem_toFinset, ← name_of_place hname hplace]
    exact List.mem_map_of_mem hp
  · cases h

/-- All formula cells that a formula leads to are formula cells of the sheet. -/
theorem covers_formulaNames (options : Options) (h : Mentioned options text name) :
    Forgetful.Covers s.lookup options s.formulaNames name := fun _ _ hreached hformula =>
  mem_formulaNames (canonical_of_reaches (canonical_of_mentioned h) hreached) hformula

end Spreadsheet.Sheet
