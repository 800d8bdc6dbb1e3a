import Spreadsheet.Grid.Range
import Spreadsheet.Proofs.Grid.Names

/-!
# Spellings of one cell

Anchors, small letters, leading zeros and blanks around it change the text of a cell name and not
the cell that it names. Spellings that agree up to these are alike, and a cell of the grid is named
by all texts that are spelled like its canonical name. A range is given by the cells that its
corners name, so their spellings do not matter either.

## Main results

* `Spelling.Alike.parse_text`: spellings that are alike name the same cell, or none.
* `Spelling.canonicalName_of_sameName`: a cell name is looked up alike in any case.
* `Position.parse_of_spelledAs`: every spelling of the canonical name of a cell names that cell.
* `Range.exists_of_ofNames`: a range lies between the cells that its corners name.
-/

namespace Spreadsheet

/-! ## Spellings that are alike -/

namespace Spelling

/-- The same letters up to case, and the same digits up to leading zeros; anchors do not matter. -/
structure Alike (s t : Spelling) : Prop where
  letters : t.letters.map Char.toUpper = s.letters.map Char.toUpper
  digits : t.digits.dropWhile (· == '0') = s.digits.dropWhile (· == '0')

theorem Alike.symm {s t : Spelling} (h : s.Alike t) : t.Alike s :=
  ⟨h.letters.symm, h.digits.symm⟩

/-- Spellings that are alike name the same cell, since their numbers are the same. -/
theorem Alike.parse_text {s t : Spelling} (h : s.Alike t) {a : Address}
    (ha : Address.parse s.text = .ok a) :
    ∃ b, Address.parse t.text = .ok b ∧ b.toPosition = a.toPosition := by
  have hcolumn : t.column = s.column := by
    rw [column, column, ← Column.number_map_toUpper, h.letters, Column.number_map_toUpper]
  have hrow : t.row = s.row := by
    rw [row, row, ← Number.decimal_dropWhile_zero, h.digits, Number.decimal_dropWhile_zero]
  obtain ⟨hin, rfl⟩ := s.parse_text_eq_ok_iff.1 ha
  have hin' : t.InGrid := by rwa [InGrid, hcolumn, hrow]
  refine ⟨t.address, t.parse_text_eq_ok_iff.2 ⟨hin', rfl⟩, ?_⟩
  rw [address, address, hcolumn, hrow]

/-- Spellings of one cell of the grid are looked up by one name. -/
theorem Alike.canonicalName_text {s t : Spelling} (h : s.Alike t) {a : Address}
    (ha : Address.parse s.text = .ok a) : canonicalName t.text = canonicalName s.text := by
  obtain ⟨b, hb, hplace⟩ := h.parse_text ha
  rw [canonicalName, canonicalName, ha, hb]
  exact congrArg Position.name hplace

/-- Blanks around a cell name do not matter. -/
theorem parse_blanks_around (s : Spelling) {before after : List Char}
    (hbefore : ∀ c ∈ before, Text.isBlank c = true)
    (hafter : ∀ c ∈ after, Text.isBlank c = true) :
    Address.parse (String.ofList (before ++ (s.chars ++ after))) = Address.parse s.text := by
  have hblank : ∀ c ∈ s.chars, Text.isBlank c = false := fun c => s.not_isBlank_of_mem
  rw [Address.parse, Address.parse, text, String.toList_ofList, String.toList_ofList,
    Text.trimChars_blanks_around hbefore hblank hafter, Text.trimChars_of_not_blank hblank]

/-! ### Spellings that differ in the case of letters -/

/-- The letters of a spelling are the letters in its text, and its digits the digits. -/
theorem filter_chars (s : Spelling) :
    s.chars.filter Char.isAlpha = s.letters ∧ s.chars.filter Char.isDigit = s.digits := by
  have hanchor : ∀ anchored, (anchor anchored).filter Char.isAlpha = [] ∧
      (anchor anchored).filter Char.isDigit = [] := by decide
  have hletters : s.letters.filter Char.isAlpha = s.letters :=
    List.filter_eq_self.2 s.isAlpha_of_mem
  have hdigits : s.digits.filter Char.isDigit = s.digits :=
    List.filter_eq_self.2 s.isDigit_of_mem
  have hno_letter : s.digits.filter Char.isAlpha = [] :=
    List.filter_eq_nil_iff.2 fun c hc => by
      simp [Text.not_isAlpha_of_isDigit (s.isDigit_of_mem c hc)]
  have hno_digit : s.letters.filter Char.isDigit = [] := by
    refine List.filter_eq_nil_iff.2 fun c hc hdigit => ?_
    have halpha := s.isAlpha_of_mem c hc
    rw [Text.not_isAlpha_of_isDigit hdigit] at halpha
    cases halpha
  simp [chars, List.filter_append, hanchor, hletters, hdigits, hno_letter, hno_digit]

/-- Texts that differ in the case of letters have the same letters up to case, and the same
digits. -/
theorem parts_of_sameName {s t : Spelling} (h : Text.sameName s.text t.text = true) :
    t.letters.map Char.toUpper = s.letters.map Char.toUpper ∧ t.digits = s.digits := by
  have hchars := Text.sameName_iff.1 h
  rw [text, text, String.toList_ofList, String.toList_ofList] at hchars
  have hletters : ∀ s : Spelling,
      (s.chars.map Char.toUpper).filter Char.isAlpha = s.letters.map Char.toUpper := by
    intro s
    rw [List.filter_map, ← s.filter_chars.1]
    exact congrArg _ (List.filter_congr fun c _ => Text.isAlpha_toUpper c)
  have hdigits : ∀ s : Spelling, (s.chars.map Char.toUpper).filter Char.isDigit = s.digits := by
    intro s
    have hfilter : s.chars.filter (Char.isDigit ∘ Char.toUpper) = s.digits :=
      (List.filter_congr fun c _ => Text.isDigit_toUpper c).trans s.filter_chars.2
    rw [List.filter_map, hfilter, Text.map_toUpper_of_isDigit s.isDigit_of_mem]
  exact ⟨by rw [← hletters, hchars, hletters], by rw [← hdigits, hchars, hdigits]⟩

/-- A cell name is looked up alike in any case, also if it names no cell of the grid. -/
theorem canonicalName_of_sameName {s t : Spelling} (h : Text.sameName s.text t.text = true) :
    canonicalName t.text = canonicalName s.text := by
  obtain ⟨hletters, hdigits⟩ := parts_of_sameName h
  have halike : s.Alike t := ⟨hletters, by rw [hdigits]⟩
  cases hs : Address.parse s.text with
  | ok a => exact halike.canonicalName_text hs
  | error e =>
    cases ht : Address.parse t.text with
    | ok b => exact (halike.symm.canonicalName_text ht).symm
    | error e' =>
      rw [canonicalName_of_error hs, canonicalName_of_error ht, text, text, chars, chars]
      simp only [plain, hletters, hdigits]

end Spelling

/-! ## The texts that name a cell -/

/-- A text that is the canonical name of a place but for blanks around it, anchors, small letters
and leading zeros. -/
def Position.SpelledAs (p : Position) (cell : String) : Prop :=
  ∃ (s : Spelling) (before after : List Char), p.spelling.Alike s ∧
    (∀ c ∈ before, Text.isBlank c = true) ∧ (∀ c ∈ after, Text.isBlank c = true) ∧
    cell = String.ofList (before ++ (s.chars ++ after))

/-- Every spelling of the canonical name of a cell names that cell. -/
theorem Position.parse_of_spelledAs {p : Position} {cell : String} (hp : p.inGrid = true)
    (h : p.SpelledAs cell) : ∃ a, Address.parse cell = .ok a ∧ a.toPosition = p := by
  obtain ⟨s, before, after, halike, hbefore, hafter, rfl⟩ := h
  have hname : Address.parse p.spelling.text = .ok (Address.ofPosition p) := by
    rw [p.text_spelling, parse_name hp]
  rw [s.parse_blanks_around hbefore hafter]
  exact halike.parse_text hname

/-! ## Ranges between two names -/

namespace Range

variable {start stop : String} {r : Range}

theorem ofCorners_first_last (r : Range) : ofCorners r.first r.last = r := by
  obtain ⟨⟨row, col⟩, ⟨row', col'⟩, hrow, hcol⟩ := r
  dsimp only at hrow hcol
  simp only [ofCorners, Range.mk.injEq, Position.mk.injEq]
  omega

theorem contains_first (r : Range) : r.contains r.first = true := by
  have hrow := r.row_le
  have hcol := r.col_le
  simp only [contains, Bool.and_eq_true, decide_eq_true_eq]
  omega

/-- The rectangle up to a cell of the grid lies in the grid. -/
theorem inGrid_of_contains {p : Position} (h : r.last.inGrid = true) (hp : r.contains p = true) :
    p.inGrid = true := by
  simp only [Position.inGrid_iff, contains, Bool.and_eq_true, decide_eq_true_eq] at h hp ⊢
  omega

theorem inGrid_first (h : r.last.inGrid = true) : r.first.inGrid = true :=
  inGrid_of_contains h r.contains_first

theorem ofNames_of_parse {a b : Address} (ha : Address.parse start = .ok a)
    (hb : Address.parse stop = .ok b) :
    ofNames start stop = .ok (ofCorners a.toPosition b.toPosition) := by
  rw [ofNames, ofNames.corner, ofNames.corner, ha, hb]
  rfl

/-- A range lies between the cells that its corners name. -/
theorem exists_of_ofNames (h : ofNames start stop = .ok r) :
    ∃ a b, Address.parse start = .ok a ∧ Address.parse stop = .ok b ∧
      r = ofCorners a.toPosition b.toPosition := by
  rw [ofNames, ofNames.corner, ofNames.corner] at h
  cases hstart : Address.parse start with
  | error e =>
    rw [hstart] at h
    cases h
  | ok a =>
    cases hstop : Address.parse stop with
    | error e =>
      rw [hstart, hstop] at h
      cases h
    | ok b =>
      rw [hstart, hstop] at h
      cases h
      exact ⟨a, b, rfl, rfl, rfl⟩

theorem inGrid_last_ofCorners {p q : Position} (hp : p.inGrid = true) (hq : q.inGrid = true) :
    (ofCorners p q).last.inGrid = true := by
  rw [Position.inGrid_iff] at hp hq ⊢
  dsimp only [ofCorners]
  omega

/-- The rectangle between two cells of the grid lies in the grid. -/
theorem inGrid_last (h : ofNames start stop = .ok r) : r.last.inGrid = true := by
  obtain ⟨a, b, ha, hb, rfl⟩ := exists_of_ofNames h
  exact inGrid_last_ofCorners (inGrid_of_parse ha) (inGrid_of_parse hb)

/-- The names under which its corners are looked up give the same range. -/
theorem ofNames_canonicalName (h : ofNames start stop = .ok r) :
    ofNames (canonicalName start) (canonicalName stop) = .ok r := by
  obtain ⟨a, b, ha, hb, rfl⟩ := exists_of_ofNames h
  have hcanonical : ∀ {name : String} {c : Address}, Address.parse name = .ok c →
      Address.parse (canonicalName name) = .ok (Address.ofPosition c.toPosition) := by
    intro name c hc
    rw [canonicalName, hc]
    exact parse_name (inGrid_of_parse hc)
  have hnames := ofNames_of_parse (hcanonical ha) (hcanonical hb)
  exact hnames

end Range

end Spreadsheet
