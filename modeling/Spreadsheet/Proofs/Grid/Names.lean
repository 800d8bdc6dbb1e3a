import Spreadsheet.Proofs.Grid.AddressText

/-!
# Canonical names

A cell has one canonical name, without anchors, small letters and leading zeros, and reading it
gives the cell back. The name under which a reference is looked up is therefore the canonical name
of the cell that it names, unless it names none.

## Main results

* `parse_name`: the canonical name of a cell of the grid names that cell.
* `Spelling.canonical_canonicalName`: references are looked up by canonical names.
* `Address.canonicalName_eq_iff`: texts are looked up alike if and only if they name one cell.
* `Address.parse_grammar`: which texts are addresses, and what their names are.
-/

namespace Spreadsheet

/-- The canonical name of a cell of the grid names that cell. -/
theorem parse_name {p : Position} (h : p.inGrid = true) :
    Address.parse p.name = .ok (Address.ofPosition p) := by
  have htext : (Address.ofPosition p).text = p.name := by
    rw [← Address.text_spelling]
    exact p.text_spelling
  rw [← htext]
  exact Address.parse_text h

/-- Cells of the grid with one canonical name are one cell. -/
theorem Position.eq_of_name_eq {p q : Position} (hp : p.inGrid = true) (hq : q.inGrid = true)
    (h : p.name = q.name) : p = q := by
  have hread : Address.parse p.name = Address.parse q.name := by rw [h]
  rw [parse_name hp, parse_name hq] at hread
  exact congrArg Address.toPosition (Except.ok.inj hread)

/-- A name that is the canonical name of the cell that it names, if it names one. -/
def Canonical (name : String) : Prop :=
  ∀ a, Address.parse name = .ok a → a.name = name

theorem canonical_name {p : Position} (h : p.inGrid = true) : Canonical p.name := by
  intro a ha
  rw [parse_name h] at ha
  cases ha
  rfl

namespace Spelling

/-- Without a cell to name, what is left of a name are capital letters and digits. -/
theorem canonicalName_of_error {s : Spelling} {e : AddressError}
    (h : Address.parse s.text = .error e) : canonicalName s.text = s.plain.text := by
  have hanchor : ∀ anchored, (anchor anchored).filter (· != '$') = [] := by decide
  have hletters : s.letters.filter (· != '$') = s.letters :=
    List.filter_eq_self.2 fun c hc => by
      simpa using Text.ne_anchor_of_isAlpha (s.isAlpha_of_mem c hc)
  have hdigits : s.digits.filter (· != '$') = s.digits :=
    List.filter_eq_self.2 fun c hc => by
      simpa using Text.ne_anchor_of_isDigit (s.isDigit_of_mem c hc)
  have hupper : s.digits.map Char.toUpper = s.digits :=
    Text.map_toUpper_of_isDigit s.isDigit_of_mem
  rw [canonicalName, h]
  dsimp only
  rw [text, String.toList_ofList, chars]
  simp only [List.filter_append, hanchor, hletters, hdigits, List.nil_append, List.map_append,
    hupper]
  rfl

/-- If a spelling names no cell, its capital letters and digits name none: both numbers are the
same. -/
theorem parse_plain_of_error {s : Spelling} {e : AddressError}
    (h : Address.parse s.text = .error e) : ∃ e', Address.parse s.plain.text = .error e' := by
  have hcolumn : s.plain.column = s.column := Column.number_map_toUpper s.letters
  cases hplain : Address.parse s.plain.text with
  | error e' => exact ⟨e', rfl⟩
  | ok a =>
    obtain ⟨hin, -⟩ := s.plain.parse_text_eq_ok_iff.1 hplain
    rw [InGrid, hcolumn] at hin
    rw [s.parse_text_eq_ok_iff.2 ⟨hin, rfl⟩] at h
    cases h

/-- References are looked up by canonical names. -/
theorem canonical_canonicalName (s : Spelling) : Canonical (canonicalName s.text) := by
  cases hparse : Address.parse s.text with
  | ok a =>
    have hname : canonicalName s.text = a.name := by rw [canonicalName, hparse]
    rw [hname]
    exact canonical_name (inGrid_of_parse hparse)
  | error e =>
    obtain ⟨e', hplain⟩ := parse_plain_of_error hparse
    rw [canonicalName_of_error hparse]
    intro a ha
    rw [hplain] at ha
    cases ha

end Spelling

/-- A canonical name is looked up as it is. -/
theorem canonicalName_name {p : Position} (h : p.inGrid = true) :
    canonicalName p.name = p.name := by
  rw [canonicalName, parse_name h]
  rfl

/-! ## The grammar of addresses -/

namespace Address

/-- Texts are looked up under one name if and only if they name one cell. -/
theorem canonicalName_eq_iff {s t : String} {a b : Address} (ha : parse s = .ok a)
    (hb : parse t = .ok b) :
    canonicalName s = canonicalName t ↔ a.toPosition = b.toPosition := by
  rw [canonicalName, canonicalName, ha, hb]
  exact ⟨Position.eq_of_name_eq (inGrid_of_parse ha) (inGrid_of_parse hb),
    congrArg Position.name⟩

/-- The grammar of addresses. Exactly the spellings in the grid are read, with blanks around them,
each as what it stands for. The text of an address of the grid is read as that address, and its
canonical name as the address without anchors. Of two texts that are read, the names under which
they are looked up are equal if and only if both name one cell. -/
theorem parse_grammar :
    (∀ text a, parse text = .ok a ↔
      ∃ s : Spelling, Text.trim text = s.text ∧ s.InGrid ∧ a = s.address) ∧
    (∀ a : Address, a.inGrid = true →
      parse a.text = .ok a ∧ parse a.name = .ok (ofPosition a.toPosition)) ∧
    (∀ s t a b, parse s = .ok a → parse t = .ok b →
      (canonicalName s = canonicalName t ↔ a.toPosition = b.toPosition)) :=
  ⟨fun _ _ => parse_eq_ok_iff, fun _ h => ⟨parse_text h, parse_name h⟩,
    fun _ _ _ _ => canonicalName_eq_iff⟩

/-- The last column, with blanks, anchors, small letters and leading zeros, against its canonical
name. -/
theorem parse_lastColumn :
    let a : Address := ⟨⟨6, 16383⟩, true, true⟩
    parse " $xfd$0007\n" = .ok a ∧ a.inGrid = true ∧ parse a.text = .ok a ∧
      parse "XFD7" = .ok (ofPosition a.toPosition) ∧
      canonicalName " $xfd$0007\n" = canonicalName "XFD7" := by
  intro a
  let s : Spelling :=
    { colAnchored := true, letters := ['x', 'f', 'd'], rowAnchored := true,
      digits := ['0', '0', '0', '7'], letters_ne_nil := by decide, digits_ne_nil := by decide,
      isAlpha_of_mem := List.all_eq_true.1 rfl, isDigit_of_mem := List.all_eq_true.1 rfl }
  have hplace : s.column = 16384 ∧ s.row = 7 := by decide
  have hin : s.InGrid := by rw [Spelling.InGrid, hplace.1, hplace.2]; decide
  have haddress : a = s.address := by rw [Spelling.address, hplace.1, hplace.2]
  have hname : a.name = "XFD7" := by decide +kernel
  have hparse : parse " $xfd$0007\n" = .ok a :=
    (parse_grammar.1 _ a).2 ⟨s, by decide, hin, haddress⟩
  have htexts := parse_grammar.2.1 a rfl
  rw [hname] at htexts
  exact ⟨hparse, rfl, htexts.1, htexts.2, (parse_grammar.2.2 _ _ a _ hparse htexts.2).2 rfl⟩

end Address

end Spreadsheet
