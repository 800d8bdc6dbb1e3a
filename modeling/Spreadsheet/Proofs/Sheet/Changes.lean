import Spreadsheet.Proofs.Grid.Spellings
import Spreadsheet.Proofs.Sheet.Lookup
import Mathlib.Data.Set.Card

/-!
# Sheets as maps

A sheet comes about by changes, each of which writes to a cell, empties one or replaces the options.
Whatever the changes were, the sheet is a finite map from places to contents: in each place it holds
what the last change there left, it finds that under every spelling of the address, and it lists the
places row by row. A change that names no cell fails and changes nothing.

One step says what a change leaves in a place, and the run follows by induction on the changes, the
last one first.

## Main results

* `getElem?_after`: what a place holds after one change.
* `getElem?_afterAll`: what it holds after a history.
* `afterAll_isMap`: a sheet is a finite map, whatever its history.
-/

namespace Spreadsheet

open Sheet (place)

/-- A place that comes before another one, row by row. -/
def Position.Before (p q : Position) : Prop :=
  p.row < q.row ∨ p.row = q.row ∧ p.col < q.col

theorem Position.compare_eq_lt {p q : Position} : compare p q = .lt ↔ p.Before q := by
  change (compare p.row q.row).then (compare p.col q.col) = .lt ↔ _
  rw [Ordering.then_eq_lt, Nat.compare_eq_lt, Nat.compare_eq_eq, Nat.compare_eq_lt, Before]

theorem Position.Before.ne {p q : Position} (h : p.Before q) : p ≠ q := by
  rintro rfl
  rw [Before] at h
  omega

/-- Places that are listed row by row are listed once. -/
theorem Position.nodup_of_ordered {α : Type} {rows : List (Position × α)}
    (h : rows.Pairwise fun a b => a.1.Before b.1) : (rows.map Prod.fst).Nodup :=
  List.pairwise_map.2 (h.imp Before.ne)

/-! ## Changes -/

/-- A change of a sheet. -/
inductive Change
  | setValue (cell : String) (v : Value)
  | setFormula (cell text : String)
  | setInput (cell input : String)
  | set (cell : String) (content : Content)
  | clear (cell : String)
  | setOptions (options : Options)

namespace Change

/-- The name of the cell that a change is about. -/
def cell? : Change → Option String
  | setValue cell _ | setFormula cell _ | setInput cell _ | set cell _ | clear cell => some cell
  | setOptions _ => none

/-- The place that a change is about, if it names one. -/
def place? (change : Change) : Option Position :=
  change.cell?.bind fun cell => (place cell).toOption

theorem place?_of_cell {change : Change} {cell : String} (hcell : change.cell? = some cell) :
    change.place? = (place cell).toOption := by
  rw [place?, hcell, Option.bind_some]

/-- What a change leaves in the cell that it is about. -/
def left : Change → Option Content
  | setValue _ v => some (.value v)
  | setFormula _ text => some (.ofFormula text)
  | setInput _ input => some (.ofInput input)
  | set _ content => some content
  | clear _ | setOptions _ => none

/-- Makes a change. -/
def perform (s : Sheet) : Change → Except SheetError Sheet
  | setValue cell v => s.setValue cell v
  | setFormula cell text => s.setFormula cell text
  | setInput cell input => s.setInput cell input
  | set cell content => s.set cell content
  | clear cell => (s.clear cell).map (·.2)
  | setOptions options => .ok { s with options }

/-- What a place holds after a history: what the last change there left. -/
def contentAfter (changes : List Change) (p : Position) : Option Content :=
  (changes.reverse.find? (·.place? == some p)).bind left

theorem contentAfter_concat (changes : List Change) (change : Change) (p : Position) :
    contentAfter (changes ++ [change]) p =
      if change.place? = some p then change.left else contentAfter changes p := by
  rw [contentAfter, contentAfter, List.reverse_append, List.reverse_singleton,
    List.singleton_append, List.find?_cons]
  by_cases hplace : change.place? = some p
  · rw [if_pos hplace, beq_iff_eq.2 hplace, Option.bind_some]
  · rw [if_neg hplace, beq_eq_false_iff_ne.2 hplace]

end Change

namespace Sheet

variable {s : Sheet} {p q : Position} {cell : String} {content : Content} {change : Change}
  {changes : List Change}

/-- The sheet after a change. A change that fails leaves it as it is. -/
def after (s : Sheet) (change : Change) : Sheet :=
  match change.perform s with
  | .ok t => t
  | .error _ => s

/-- The sheet after several changes, one after the other. -/
def afterAll (s : Sheet) (changes : List Change) : Sheet :=
  changes.foldl after s

theorem afterAll_concat : s.afterAll (changes ++ [change]) = (s.afterAll changes).after change := by
  rw [afterAll, List.foldl_append]
  rfl

/-! ## One change -/

/-- The sheet with another content in one cell, or with nothing there. -/
def put (s : Sheet) (p : Position) : Option Content → Sheet
  | some content => s.write p content
  | none => { s with cells := s.cells.erase p }

theorem getElem?_put {content? : Option Content} :
    (s.put p content?).cells[q]? = if p = q then content? else s.cells[q]? := by
  cases content? with
  | some content =>
    change (s.cells.insert p content)[q]? = _
    rw [Std.TreeMap.getElem?_insert]
    simp only [Std.LawfulEqCmp.compare_eq_iff_eq]
  | none =>
    change (s.cells.erase p)[q]? = _
    rw [Std.TreeMap.getElem?_erase]
    simp only [Std.LawfulEqCmp.compare_eq_iff_eq]

/-- A change of a cell puts there what it leaves. -/
theorem perform_of_place (hcell : change.cell? = some cell) (h : place cell = .ok p) :
    change.perform s = .ok (s.put p change.left) := by
  cases change with
  | setOptions options => cases hcell
  | clear name =>
    cases hcell
    rw [Change.perform, clear, h]
    rfl
  | setValue name _ | setFormula name _ | setInput name _ | set name _ =>
    cases hcell
    exact set_of_place h

/-- A change of something that is no cell fails. -/
theorem perform_of_error {e : SheetError} (hcell : change.cell? = some cell)
    (h : place cell = .error e) : change.perform s = .error e := by
  have hset : ∀ content, s.set cell content = .error e := by
    intro content
    rw [set, h]
    rfl
  cases change with
  | setOptions options => cases hcell
  | clear name =>
    cases hcell
    rw [Change.perform, clear, h]
    rfl
  | setValue name _ | setFormula name _ | setInput name _ | set name _ =>
    cases hcell
    exact hset _

theorem after_of_error {e : SheetError} (h : change.perform s = .error e) :
    s.after change = s := by
  rw [after, h]

/-- What a place holds after one change. -/
theorem getElem?_after :
    (s.after change).cells[p]? = if change.place? = some p then change.left else s.cells[p]? := by
  cases hcell : change.cell? with
  | none =>
    cases change with
    | setOptions options => rfl
    | setValue | setFormula | setInput | set | clear => cases hcell
  | some cell =>
    cases hplace : place cell with
    | error e =>
      have hnone : change.place? = none := by rw [Change.place?_of_cell hcell, hplace]; rfl
      rw [after_of_error (perform_of_error hcell hplace), hnone, if_neg (by simp)]
    | ok q =>
      have hsome : change.place? = some q := by rw [Change.place?_of_cell hcell, hplace]; rfl
      rw [after, perform_of_place hcell hplace, hsome]
      simp only [getElem?_put, Option.some.injEq]

/-! ## Histories -/

/-- What a place holds after a history. By induction on the history, the last change first. -/
theorem getElem?_afterAll (changes : List Change) (p : Position) :
    (new.afterAll changes).cells[p]? = Change.contentAfter changes p := by
  induction changes using List.reverseRecOn with
  | nil => exact Std.TreeMap.getElem?_emptyc
  | append_singleton changes change ih =>
    rw [afterAll_concat, getElem?_after, ih, Change.contentAfter_concat]

/-- All cells that hold something lie in the grid. -/
def InGrid (s : Sheet) : Prop :=
  ∀ (p : Position) (content : Content), s.cells[p]? = some content → p.inGrid = true

/-- The cells of a sheet lie in the grid, since each of them was written to under its address. -/
theorem inGrid_afterAll (changes : List Change) : (new.afterAll changes).InGrid := by
  intro p content h
  rw [getElem?_afterAll, Change.contentAfter] at h
  obtain ⟨change, hlast, _⟩ := Option.bind_eq_some_iff.1 h
  have hplace : change.place? = some p := by simpa using List.find?_some hlast
  obtain ⟨cell, _, hcell⟩ := Option.bind_eq_some_iff.1 hplace
  cases hp : place cell with
  | error e => rw [hp] at hcell; cases hcell
  | ok q =>
    rw [hp] at hcell
    cases hcell
    exact inGrid_of_place hp

/-! ## What a sheet tells of its cells -/

theorem get_of_place (h : place cell = .ok p) : s.get cell = .ok s.cells[p]? := by
  rw [get, h]
  rfl

theorem lookup_of_place (h : place cell = .ok p) : s.lookup cell = s.cells[p]? := by
  rw [lookup, h]

theorem mem_toList : (p, content) ∈ s.toList ↔ s.cells[p]? = some content :=
  Std.TreeMap.mem_toList_iff_getElem?_eq_some

/-- The cells are listed row by row. -/
theorem toList_ordered (s : Sheet) : s.toList.Pairwise fun a b => a.1.Before b.1 :=
  Std.TreeMap.ordered_keys_toList.imp Position.compare_eq_lt.1

/-- The places that hold something are those that are listed. -/
theorem occupied_eq (s : Sheet) :
    {p | s.cells[p]? ≠ none} = ((s.toList.map Prod.fst).toFinset : Set Position) := by
  ext p
  rw [Set.mem_ofPred_eq, Option.ne_none_iff_exists']
  simp only [← mem_toList, List.coe_toFinset, Set.mem_ofPred_eq, List.mem_map, Prod.exists,
    exists_and_right, exists_eq_right]

/-- A sheet is a finite map of contents: what it holds in a place is found there under every
spelling of the address and nothing is found under other texts, its size is the number of places
that hold something, and these are listed once each, row by row. -/
structure IsMap (s : Sheet) (contents : Position → Option Content) : Prop where
  get : ∀ cell p, place cell = .ok p → s.get cell = .ok (contents p)
  lookup : ∀ cell p, place cell = .ok p → s.lookup cell = contents p
  spelled : ∀ p cell, p.inGrid = true → p.SpelledAs cell →
    s.get cell = .ok (contents p) ∧ s.lookup cell = contents p
  stray : ∀ cell e, place cell = .error e → s.get cell = .error e ∧ s.lookup cell = none
  clear : ∀ cell, (s.clear cell).map Prod.fst = s.get cell
  finite : {p | contents p ≠ none}.Finite
  size : s.size = {p | contents p ≠ none}.ncard
  mem_toList : ∀ p content, (p, content) ∈ s.toList ↔ contents p = some content
  ordered : s.toList.Pairwise fun a b => a.1.Before b.1

theorem isMap (s : Sheet) : s.IsMap (s.cells[·]?) where
  get _ _ := get_of_place
  lookup _ _ := lookup_of_place
  spelled p cell hp h := by
    obtain ⟨a, ha, rfl⟩ := Position.parse_of_spelledAs hp h
    have hplace : place cell = .ok a.toPosition := by rw [place, ha]
    exact ⟨get_of_place hplace, lookup_of_place hplace⟩
  stray cell e h := by
    rw [Sheet.get, Sheet.lookup, h]
    exact ⟨rfl, rfl⟩
  clear cell := by
    rw [Sheet.clear, Sheet.get]
    cases place cell <;> rfl
  finite := by
    rw [occupied_eq]
    exact Finset.finite_toSet _
  size := by
    rw [occupied_eq, Set.ncard_coe_finset,
      List.toFinset_card_of_nodup (Position.nodup_of_ordered s.toList_ordered), List.length_map]
    exact Std.TreeMap.length_toList.symm
  mem_toList _ _ := mem_toList
  ordered := s.toList_ordered

/-- After any history a sheet is the map of what its last changes left, and a change that names no
cell fails and leaves the sheet as it is. -/
theorem afterAll_isMap (changes : List Change) :
    (new.afterAll changes).IsMap (Change.contentAfter changes) ∧
      ∀ change cell e, change.cell? = some cell → Address.parse cell = .error e →
        change.perform (new.afterAll changes) = .error (.address e) ∧
          (new.afterAll changes).after change = new.afterAll changes := by
  constructor
  · rw [← funext (getElem?_afterAll changes)]
    exact isMap _
  · intro change cell e hcell hparse
    have hplace : place cell = .error (.address e) := by rw [place, hparse]
    have hfails : change.perform (new.afterAll changes) = .error (.address e) :=
      perform_of_error hcell hplace
    exact ⟨hfails, after_of_error hfails⟩

/-- A history with several spellings of two cells, one of which is emptied, and a name that is no
address. -/
def mixedHistory : List Change :=
  [.setValue "A1" (.text "x"), .setFormula " b2" "=A1", .clear "$B$2", .set "A0" (.value .empty),
    .setInput "$a01" " true "]

/-- The cell that was written to last holds what was left there, and the emptied one nothing. -/
theorem afterAll_isMap_mixedHistory :
    (new.afterAll mixedHistory).get "a$001" = .ok (some (.value (.boolean true))) ∧
      (new.afterAll mixedHistory).lookup "b2 " = none ∧
      Change.perform (new.afterAll mixedHistory) (.clear "A0") =
        .error (.address (.rowZero "A0")) := by
  obtain ⟨hmap, hfails⟩ := afterAll_isMap mixedHistory
  have hfirst : Change.contentAfter mixedHistory ⟨0, 0⟩ = some (.value (.boolean true)) := by
    decide +kernel
  have hsecond : Change.contentAfter mixedHistory ⟨1, 1⟩ = none := by decide +kernel
  refine ⟨?_, ?_, (hfails (.clear "A0") "A0" _ rfl (by decide +kernel)).1⟩
  · rw [hmap.get "a$001" ⟨0, 0⟩ (by decide +kernel), hfirst]
  · rw [hmap.lookup "b2 " ⟨1, 1⟩ (by decide +kernel), hsecond]

end Sheet

end Spreadsheet
