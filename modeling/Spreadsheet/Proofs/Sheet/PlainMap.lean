import Spreadsheet.Proofs.Evaluation.Locality
import Spreadsheet.Proofs.Sheet.Changes

/-!
# A sheet as a plain map

A sheet knows its cells by their places and reads every name that it is asked for; a plain map knows
its cells by their canonical names and compares texts. Formulas cannot tell them apart, since they
ask for canonical names only: under such a name the sheet finds the cell that is stored under it,
and a name that is canonical but names no cell of the grid is the name of no stored cell.

## Main results

* `getElem?_toMap`: what the map of a sheet holds.
* `ofMap_toMap`: under a canonical name, the map finds what the sheet finds.
* `evaluateFormula_toMap`: every formula comes to the same on a sheet and on its map.
-/

namespace Spreadsheet.Sheet

open Evaluation

variable {s : Sheet} {p q : Position} {name : String} {content : Content}

/-- The contents of a sheet by the canonical names of their cells. -/
def toMap (s : Sheet) : Std.TreeMap String Content :=
  .ofList (s.toList.map fun r => (r.1.name, r.2)) compare

/-- Different cells of a sheet have different names. -/
theorem names_distinct (hs : s.InGrid) : (s.toList.map fun r => (r.1.name, r.2)).Pairwise
    fun a b => ¬ compare a.1 b.1 = .eq := by
  rw [List.pairwise_map]
  refine s.toList_ordered.imp_of_mem fun {a b} ha hb hbefore hsame => hbefore.ne ?_
  exact Position.eq_of_name_eq (hs a.1 a.2 (mem_toList.1 ha)) (hs b.1 b.2 (mem_toList.1 hb))
    (Std.LawfulEqCmp.compare_eq_iff_eq.1 hsame)

/-- The map of a sheet holds the contents of its cells, each under the name of its cell. -/
theorem getElem?_toMap (hs : s.InGrid) : s.toMap[name]? = some content ↔
    ∃ p : Position, s.cells[p]? = some content ∧ p.name = name := by
  have hheld : ∀ (p : Position) (content : Content), s.cells[p]? = some content →
      s.toMap[p.name]? = some content := by
    intro p content hcell
    exact Std.TreeMap.getElem?_ofList_of_mem Std.ReflCmp.compare_self (names_distinct hs)
      (List.mem_map.2 ⟨(p, content), mem_toList.2 hcell, rfl⟩)
  constructor
  · intro hfound
    have hmapped : name ∈ s.toMap :=
      Std.TreeMap.mem_iff_isSome_getElem?.2 (by rw [hfound]; rfl)
    have hlisted : ((s.toList.map fun r => (r.1.name, r.2)).map Prod.fst).contains name = true :=
      Std.TreeMap.mem_ofList.1 hmapped
    rw [List.contains_iff_mem, List.map_map, List.mem_map] at hlisted
    obtain ⟨⟨p, other⟩, hmem, rfl⟩ := hlisted
    have hcell := mem_toList.1 hmem
    have hsame : some other = some content := (hheld p other hcell).symm.trans hfound
    exact ⟨p, hcell.trans hsame, rfl⟩
  · rintro ⟨p, hcell, rfl⟩
    exact hheld p content hcell

/-- Under a canonical name, the map finds what the sheet finds. -/
theorem ofMap_toMap (hs : s.InGrid) (hname : Canonical name) :
    Environment.ofMap s.toMap name = s.lookup name := by
  rw [Environment.ofMap]
  cases hplace : place name with
  | ok p =>
    have hp : p.name = name := name_of_place hname hplace
    rw [lookup_of_place hplace, Option.ext_iff]
    intro content
    rw [getElem?_toMap hs]
    constructor
    · rintro ⟨q, hcell, hq⟩
      have hsame : q = p :=
        Position.eq_of_name_eq (hs q content hcell) (inGrid_of_place hplace) (hq.trans hp.symm)
      rwa [← hsame]
    · exact fun hcell => ⟨p, hcell, hp⟩
  | error e =>
    rw [lookup, hplace]
    cases hfound : s.toMap[name]? with
    | none => rfl
    | some content =>
      obtain ⟨p, hcell, rfl⟩ := (getElem?_toMap hs).1 hfound
      rw [place_name (hs p content hcell)] at hplace
      cases hplace

/-- Every formula comes to the same, value or error, on a sheet and on the plain map of its
cells. -/
theorem evaluateFormula_toMap (changes : List Change) (options : Options) (text : String) :
    evaluateFormula (Environment.ofMap (new.afterAll changes).toMap) options text =
      evaluateFormula (new.afterAll changes).lookup options text :=
  evaluateFormula_eq_of_alike fun _ hreads =>
    ofMap_toMap (inGrid_afterAll changes) (canonical_of_dependsOn hreads)

end Spreadsheet.Sheet
