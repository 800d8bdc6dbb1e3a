import Spreadsheet.Proofs.Grid.Positional
import Mathlib.Data.List.TakeWhile

/-!
# What the text of an address says

A cell can be written in many ways: anchors, small letters, leading zeros and blanks around it do
not matter. The texts of addresses are described without their reader, as spellings whose two
numbers lie in the grid, with blanks around them.

## Main results

* `Spelling.parse_text`: an address is read part by part.
* `Spelling.parse_text_eq_ok_iff`: which spellings are read, and as what.
* `Address.parse_eq_ok_iff`: the texts that are read are spellings with blanks around them.
* `Address.parse_text`: the text of an address of the grid is read as that address.
-/

namespace Spreadsheet

/-! ## Ways to write a cell name -/

/-- A cell name as it can be written: letters and digits, each with an optional anchor. -/
structure Spelling where
  colAnchored : Bool
  letters : List Char
  rowAnchored : Bool
  digits : List Char
  letters_ne_nil : letters ≠ []
  digits_ne_nil : digits ≠ []
  isAlpha_of_mem : ∀ c ∈ letters, c.isAlpha = true
  isDigit_of_mem : ∀ c ∈ digits, c.isDigit = true

namespace Spelling

/-- An anchor, if there is one. -/
def anchor (anchored : Bool) : List Char :=
  if anchored then ['$'] else []

/-- The characters of a cell name. -/
def chars (s : Spelling) : List Char :=
  anchor s.colAnchored ++ (s.letters ++ (anchor s.rowAnchored ++ s.digits))

/-- The text of a cell name. -/
def text (s : Spelling) : String :=
  String.ofList s.chars

/-- The same letters, as capitals, and the same digits, without anchors. -/
def plain (s : Spelling) : Spelling where
  colAnchored := false
  letters := s.letters.map Char.toUpper
  rowAnchored := false
  digits := s.digits
  letters_ne_nil := by simpa using s.letters_ne_nil
  digits_ne_nil := s.digits_ne_nil
  isAlpha_of_mem := by
    intro c hc
    obtain ⟨d, hd, rfl⟩ := List.mem_map.1 hc
    exact (Text.isAlpha_toUpper d).trans (s.isAlpha_of_mem d hd)
  isDigit_of_mem := s.isDigit_of_mem

/-! ### Reading a spelling -/

theorem chars_ne_nil (s : Spelling) : s.chars ≠ [] := by
  simp [chars, s.letters_ne_nil]

/-- A cell name is letters, digits and anchors. -/
theorem isAlphanum_or_anchor (s : Spelling) {c : Char} (hc : c ∈ s.chars) :
    c.isAlphanum = true ∨ c = '$' := by
  have hanchor : ∀ anchored, c ∈ anchor anchored → c = '$' := by
    intro anchored hmem
    cases anchored with
    | true => exact List.mem_singleton.1 hmem
    | false => cases hmem
  simp only [chars, List.mem_append] at hc
  rcases hc with hmem | hmem | hmem | hmem
  · exact .inr (hanchor _ hmem)
  · exact .inl (by simp [Char.isAlphanum, s.isAlpha_of_mem c hmem])
  · exact .inr (hanchor _ hmem)
  · exact .inl (by simp [Char.isAlphanum, s.isDigit_of_mem c hmem])

theorem not_isBlank_of_mem {s : Spelling} {c : Char} (h : c ∈ s.chars) :
    Text.isBlank c = false := by
  rcases s.isAlphanum_or_anchor h with hword | rfl
  · exact Text.not_isBlank_of_isAlphanum hword
  · decide

theorem splitAnchor_append {anchored : Bool} {cs rest : List Char} (hne : cs ≠ [])
    (h : ∀ c ∈ cs, c ≠ '$') :
    Address.splitAnchor (anchor anchored ++ (cs ++ rest)) = (anchored, cs ++ rest) := by
  cases anchored with
  | true => rfl
  | false =>
    cases cs with
    | nil => exact absurd rfl hne
    | cons c others =>
      have hc : c ≠ '$' := h c List.mem_cons_self
      rw [anchor, if_neg Bool.false_ne_true, List.nil_append, List.cons_append]
      unfold Address.splitAnchor
      split
      · next heq => exact absurd (List.cons.inj heq).1 hc
      · rfl

/-- The letters end where the row begins. -/
theorem takeWhile_isAlpha_row (s : Spelling) :
    (anchor s.rowAnchored ++ s.digits).takeWhile Char.isAlpha = [] ∧
      (anchor s.rowAnchored ++ s.digits).dropWhile Char.isAlpha =
        anchor s.rowAnchored ++ s.digits := by
  cases s.rowAnchored with
  | true => exact ⟨rfl, rfl⟩
  | false =>
    rw [anchor, if_neg Bool.false_ne_true, List.nil_append]
    cases hdigits : s.digits with
    | nil => exact absurd hdigits s.digits_ne_nil
    | cons d rest =>
      have hd : d.isAlpha = false := Text.not_isAlpha_of_isDigit
        (s.isDigit_of_mem d (by rw [hdigits]; exact List.mem_cons_self))
      simp [hd]

/-- An address is read part by part. -/
theorem parse_text (s : Spelling) :
    Address.parse s.text = (do
      let col ← Column.ofLetters s.letters
      let row ← Address.readRow s.text s.digits
      return ⟨⟨row, col⟩, s.rowAnchored, s.colAnchored⟩) := by
  have hne : s.chars ≠ [] := s.chars_ne_nil
  have hcol : Address.splitAnchor s.chars =
      (s.colAnchored, s.letters ++ (anchor s.rowAnchored ++ s.digits)) :=
    splitAnchor_append s.letters_ne_nil fun c hc =>
      Text.ne_anchor_of_isAlpha (s.isAlpha_of_mem c hc)
  have hrow : Address.splitAnchor (anchor s.rowAnchored ++ s.digits) =
      (s.rowAnchored, s.digits) := by
    have hsplit : Address.splitAnchor (anchor s.rowAnchored ++ (s.digits ++ [])) =
        (s.rowAnchored, s.digits ++ []) :=
      splitAnchor_append s.digits_ne_nil fun c hc =>
        Text.ne_anchor_of_isDigit (s.isDigit_of_mem c hc)
    rwa [List.append_nil] at hsplit
  obtain ⟨htake, hdrop⟩ := s.takeWhile_isAlpha_row
  rw [Address.parse, text, String.toList_ofList,
    Text.trimChars_of_not_blank fun c => s.not_isBlank_of_mem, Address.read]
  simp only [hcol, hrow, List.takeWhile_append_of_pos s.isAlpha_of_mem,
    List.dropWhile_append_of_pos s.isAlpha_of_mem, htake, hdrop, List.append_nil,
    List.isEmpty_iff, hne, s.letters_ne_nil, if_false]
  rfl

end Spelling

/-! ## Spellings in the grid -/

namespace Spelling

/-- The number that the letters denote; columns are numbered from one. -/
def column (s : Spelling) : Nat :=
  Column.number s.letters

/-- The number that the digits denote; rows are numbered from one. -/
def row (s : Spelling) : Nat :=
  Number.decimal s.digits

/-- Both numbers lie in the grid. -/
def InGrid (s : Spelling) : Prop :=
  (1 ≤ s.column ∧ s.column ≤ maxColumns) ∧ 1 ≤ s.row ∧ s.row ≤ maxRows

/-- The address that a spelling stands for. -/
def address (s : Spelling) : Address where
  row := s.row - 1
  col := s.column - 1
  rowAnchored := s.rowAnchored
  colAnchored := s.colAnchored

theorem inGrid_address {s : Spelling} (h : s.InGrid) : s.address.inGrid = true := by
  obtain ⟨⟨_, _⟩, _, _⟩ := h
  have hrow : s.row - 1 < maxRows := by omega
  have hcolumn : s.column - 1 < maxColumns := by omega
  exact Position.inGrid_iff.2 ⟨hrow, hcolumn⟩

/-- A spelling is read if and only if it lies in the grid, and then as what it stands for. -/
theorem parse_text_eq_ok_iff (s : Spelling) {a : Address} :
    Address.parse s.text = .ok a ↔ s.InGrid ∧ a = s.address := by
  have hpos : 1 ≤ s.column := Column.number_pos s.letters_ne_nil
  have hcol : ∀ {col}, Column.ofLetters s.letters = .ok col ↔
      s.column ≤ maxColumns ∧ col = s.column - 1 :=
    Column.ofLetters_eq_ok_iff s.letters_ne_nil s.isAlpha_of_mem
  have hrow : ∀ {row}, Address.readRow s.text s.digits = .ok row ↔
      1 ≤ s.row ∧ s.row ≤ maxRows ∧ row = s.row - 1 := by
    intro row
    rw [Address.readRow_eq_ok_iff]
    exact and_iff_right ⟨s.digits_ne_nil, s.isDigit_of_mem⟩
  rw [parse_text]
  constructor
  · intro h
    cases hletters : Column.ofLetters s.letters with
    | error e => rw [hletters] at h; cases h
    | ok col =>
      cases hdigits : Address.readRow s.text s.digits with
      | error e => rw [hletters, hdigits] at h; cases h
      | ok row =>
        rw [hletters, hdigits] at h
        cases h
        obtain ⟨hcolumn, rfl⟩ := hcol.1 hletters
        obtain ⟨hfrom, hto, rfl⟩ := hrow.1 hdigits
        exact ⟨⟨⟨hpos, hcolumn⟩, hfrom, hto⟩, rfl⟩
  · rintro ⟨⟨⟨-, hcolumn⟩, hfrom, hto⟩, rfl⟩
    rw [hcol.2 ⟨hcolumn, rfl⟩, hrow.2 ⟨hfrom, hto, rfl⟩]
    rfl

end Spelling

/-! ## The texts that are read -/

namespace Address

/-- The anchor that is split off is the one that stood there. -/
theorem anchor_append_splitAnchor (cs : List Char) :
    Spelling.anchor (splitAnchor cs).1 ++ (splitAnchor cs).2 = cs := by
  unfold splitAnchor
  split <;> rfl

/-- Whatever is read is a spelling. -/
theorem exists_spelling_of_read {cs : List Char} {a : Address} (h : read cs = .ok a) :
    ∃ s : Spelling, cs = s.chars := by
  have hcol := anchor_append_splitAnchor cs
  generalize hsplit : splitAnchor cs = parts at hcol
  obtain ⟨colAnchored, named⟩ := parts
  have hrow := anchor_append_splitAnchor (named.dropWhile Char.isAlpha)
  generalize hsplit' : splitAnchor (named.dropWhile Char.isAlpha) = parts at hrow
  obtain ⟨rowAnchored, digits⟩ := parts
  simp only [read, hsplit, hsplit'] at h
  split at h
  · cases h
  split at h
  · cases h
  next hletters =>
  cases hcolumn : Column.ofLetters (named.takeWhile Char.isAlpha) with
  | error e => rw [hcolumn] at h; cases h
  | ok col =>
    cases hdigits : readRow (String.ofList cs) digits with
    | error e => rw [hcolumn, hdigits] at h; cases h
    | ok row =>
      obtain ⟨⟨hne, hall⟩, -⟩ := readRow_eq_ok_iff.1 hdigits
      let s : Spelling :=
        { colAnchored
          letters := named.takeWhile Char.isAlpha
          rowAnchored
          digits
          letters_ne_nil := by simpa using hletters
          digits_ne_nil := hne
          isAlpha_of_mem := fun c hc => List.mem_takeWhile_imp hc
          isDigit_of_mem := hall }
      have hchars : s.chars = cs := by
        change Spelling.anchor colAnchored ++ (named.takeWhile Char.isAlpha ++
          (Spelling.anchor rowAnchored ++ digits)) = cs
        rw [hrow, List.takeWhile_append_dropWhile]
        exact hcol
      exact ⟨s, hchars.symm⟩

/-- A text is read if and only if it is a spelling in the grid with blanks around it. -/
theorem parse_eq_ok_iff {text : String} {a : Address} : parse text = .ok a ↔
    ∃ s : Spelling, Text.trim text = s.text ∧ s.InGrid ∧ a = s.address := by
  have htext : ∀ s : Spelling, Text.trimChars text.toList = s.chars →
      parse text = parse s.text := by
    intro s hs
    rw [parse, hs, parse, Spelling.text, String.toList_ofList,
      Text.trimChars_of_not_blank fun c => s.not_isBlank_of_mem]
  constructor
  · intro h
    obtain ⟨s, hs⟩ := exists_spelling_of_read h
    rw [htext s hs] at h
    exact ⟨s, congrArg String.ofList hs, s.parse_text_eq_ok_iff.1 h⟩
  · rintro ⟨s, hs, hread⟩
    rw [htext s (String.ofList_injective hs)]
    exact s.parse_text_eq_ok_iff.2 hread

end Address

/-- Every address names a cell of the grid. -/
theorem inGrid_of_parse {name : String} {a : Address} (h : Address.parse name = .ok a) :
    a.inGrid = true := by
  obtain ⟨s, _, hin, rfl⟩ := Address.parse_eq_ok_iff.1 h
  exact s.inGrid_address hin

/-! ## The text of an address -/

/-- The canonical name of a place as a spelling. -/
def Position.spelling (p : Position) : Spelling where
  colAnchored := false
  letters := Column.digits (p.col + 1)
  rowAnchored := false
  digits := Nat.toDigits 10 (p.row + 1)
  letters_ne_nil := Column.digits_ne_nil (Nat.succ_pos p.col)
  digits_ne_nil := Nat.toDigits_ne_nil
  isAlpha_of_mem := fun _ => Column.isAlpha_of_mem_digits
  isDigit_of_mem := fun _ => Nat.isDigit_of_mem_toDigits (by decide) (by decide)

theorem Position.text_spelling (p : Position) : p.spelling.text = p.name := by
  rw [name, Column.letters, Nat.toString_eq_ofList_toDigits, ← String.ofList_append]
  rfl

namespace Address

/-- The text of an address as a spelling. -/
def spelling (a : Address) : Spelling :=
  { a.toPosition.spelling with colAnchored := a.colAnchored, rowAnchored := a.rowAnchored }

theorem text_spelling (a : Address) : a.spelling.text = a.text := by
  have hanchor : ∀ anchored : Bool,
      (if anchored then "$" else "") = String.ofList (Spelling.anchor anchored) := by decide
  rw [text, hanchor, hanchor, Column.letters, Nat.toString_eq_ofList_toDigits,
    ← String.ofList_append, ← String.ofList_append, ← String.ofList_append]
  simp only [List.append_assoc]
  rfl

theorem column_spelling (a : Address) : a.spelling.column = a.col + 1 :=
  Column.number_digits (a.col + 1)

theorem row_spelling (a : Address) : a.spelling.row = a.row + 1 := by
  have hvalue : Number.digitsValue (Nat.toDigits 10 (a.row + 1)) = a.row + 1 :=
    Nat.ofDigitChars_ten_toDigits
  exact (foldl_eq_positional _).symm.trans hvalue

/-- The spelling of an address stands for that address. -/
theorem address_spelling (a : Address) : a.spelling.address = a := by
  rw [Spelling.address, a.column_spelling, a.row_spelling]
  rfl

theorem inGrid_spelling {a : Address} (h : a.inGrid = true) : a.spelling.InGrid := by
  obtain ⟨hrow, hcolumn⟩ := Position.inGrid_iff.1 h
  rw [Spelling.InGrid, a.column_spelling, a.row_spelling]
  exact ⟨⟨Nat.le_add_left 1 _, hcolumn⟩, Nat.le_add_left 1 _, hrow⟩

/-- The text of an address of the grid is read as that address. -/
theorem parse_text {a : Address} (h : a.inGrid = true) : parse a.text = .ok a := by
  rw [← a.text_spelling]
  exact a.spelling.parse_text_eq_ok_iff.2 ⟨inGrid_spelling h, a.address_spelling.symm⟩

end Address

end Spreadsheet
