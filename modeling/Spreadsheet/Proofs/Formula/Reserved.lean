import Spreadsheet.Proofs.Formula.Separated

/-!
# Reserved names and cell names

The names of functions are reserved: a word that is one of them, in any case, is the function and
not a cell. Only one of them, `LOG10`, is also spelled as a cell name is. Its cell is reached by
every spelling that has an anchor or other digits, and all other cells of the grid by each of their
spellings. The other way round, a cell in the tree of a formula never has the name of a function:
before a letter or an anchor `LOG10` is read as a cell name, but no formula goes on there.

## Main results

* `Spelling.ofName?_eq_none_iff`: every spelling but `LOG10` is free.
* `readAsCell_text_iff`: which spellings are read as one cell name.
* `Expr.Formed.not_sameName`: no cell in a tree has the name of a function.
* `reserved_apart_from_cells`: all of this together.
-/

namespace Spreadsheet

/-! ## Names of functions that are spelled as cell names -/

namespace Builtin

variable {name : String} {f : Builtin}

/-- A function is found by its name in any case, and by nothing else. -/
theorem ofName?_eq_some_iff : ofName? name = some f ↔ Text.sameName name f.name = true := by
  have hfound : ofName? f.name = some f := Lexeme.ofName?_name f
  have hcapital : f.name = Text.upperAscii f.name := name_of_ofName? hfound
  rw [Text.sameName, beq_iff_eq]
  constructor
  · intro h
    rw [← name_of_ofName? h]
    exact hcapital
  · intro h
    rw [ofName?] at hfound ⊢
    rwa [h]

/-- One name of a function ends with a digit. -/
theorem eq_log10_of_getLast? (h : f.name.toList.getLast?.any Char.isDigit = true) :
    f = .log10 := by
  revert h
  cases f <;> decide +kernel

end Builtin

namespace Spelling

variable {s : Spelling} {f : Builtin}

theorem getLast?_chars (s : Spelling) : s.chars.getLast? = s.digits.getLast? := by
  simp [chars, List.getLast?_append, List.getLast?_eq_some_getLast s.digits_ne_nil]

/-- A spelling ends with a digit, so it is the name of one function at most. -/
theorem eq_log10_of_ofName? (h : Builtin.ofName? s.text = some f) : f = .log10 := by
  have hname : f.name.toList = s.chars.map Char.toUpper := by
    rw [Builtin.name_of_ofName? h, Text.upperAscii, text, String.toList_ofList,
      String.toList_ofList]
  refine Builtin.eq_log10_of_getLast? ?_
  have hlast : s.digits.getLast? = some (s.digits.getLast s.digits_ne_nil) :=
    List.getLast?_eq_some_getLast s.digits_ne_nil
  rw [hname, List.getLast?_map, getLast?_chars, hlast]
  exact (Text.isDigit_toUpper _).trans (s.isDigit_of_mem _ (List.getLast_mem _))

/-- Every spelling is free but `LOG10` in any case. -/
theorem ofName?_eq_none_iff (s : Spelling) :
    Builtin.ofName? s.text = none ↔ Text.sameName s.text "LOG10" = false := by
  have hlog10 : Builtin.ofName? s.text = some .log10 ↔ Text.sameName s.text "LOG10" = true :=
    Builtin.ofName?_eq_some_iff
  cases hname : Builtin.ofName? s.text with
  | none => simpa [hname] using hlog10
  | some f => simpa [hname, eq_log10_of_ofName? hname] using hlog10

end Spelling

/-! ## Texts that are one token -/

/-- A text that is one lexeme is one token. -/
theorem tokenize_of_ofChars? {l : Lexeme} (hl : Lexeme.ofChars? l.chars = some l) :
    tokenize (String.ofList l.chars) = .ok [l.token 0] := by
  have hhead : ∀ c ∈ l.chars.head?, Text.isBlank c = false :=
    (Lexeme.not_isBlank_of_ofChars? hl).1
  have hskip : Text.skipBlanks l.chars = l.chars := Text.skipBlanks_of_head hhead
  have hblanks : l.chars.takeWhile Text.isBlank = [] := by
    have hcut := Text.takeWhile_append_skipBlanks l.chars
    rwa [hskip, List.append_left_eq_self] at hcut
  have hend : ∀ position, Scan.onward position [] = ⟨[], none⟩ := fun _ =>
    Scan.onward_of_skipBlanks_eq_nil rfl
  have hscan : Scan.onward 0 l.chars = ⟨[l.token 0], none⟩ := by
    rw [Scan.onward_of_some (hskip.symm ▸ hl)]
    simp only [hskip, hblanks, List.drop_length, hend]
    rfl
  rw [tokenize_eq_ok_iff, Scan.ofText, String.toList_ofList, hscan]

/-- A free spelling is one cell name. -/
theorem tokenize_spelling {s : Spelling} (h : Builtin.ofName? s.text = none) :
    tokenize s.text = .ok [⟨.cell, s.text, none, 0⟩] := by
  have hl := Lexeme.ofChars?_spelling h Lexeme.Ends.nil
  rw [List.append_nil] at hl
  exact @tokenize_of_ofChars? ⟨.cell, s.chars, none⟩ hl

/-- A spelling that is the name of a function is that function. -/
theorem tokenize_of_ofName? {s : Spelling} {f : Builtin} (h : Builtin.ofName? s.text = some f) :
    tokenize s.text = .ok [⟨.function, s.text, none, 0⟩] := by
  obtain ⟨hword, hhead⟩ := Lexeme.word_of_ofName? h
  have hl := Lexeme.ofChars?_word hword hhead h Lexeme.Ends.nil
  rw [List.append_nil] at hl
  exact @tokenize_of_ofChars? ⟨.function, s.chars, none⟩ hl

/-- The text is read as one cell name, and looked up under the canonical name of the place. -/
structure ReadAsCell (text : String) (p : Position) : Prop where
  tokenize : tokenize text = .ok [⟨.cell, text, none, 0⟩]
  canonicalName : canonicalName text = p.name

/-- A spelling in the grid is read as its cell if and only if it is free. -/
theorem readAsCell_text_iff {s : Spelling} (h : s.InGrid) :
    ReadAsCell s.text s.address.toPosition ↔ Builtin.ofName? s.text = none := by
  constructor
  · intro hcell
    cases hname : Builtin.ofName? s.text with
    | none => rfl
    | some f =>
      have hfunction := tokenize_of_ofName? hname
      rw [hcell.tokenize] at hfunction
      cases hfunction
  · intro hname
    refine ⟨tokenize_spelling hname, ?_⟩
    rw [canonicalName, s.parse_text_eq_ok_iff.2 ⟨h, rfl⟩]

/-- The canonical name of a cell of the grid is free unless it is `LOG10`: in another case that
would be a second name of one cell. -/
theorem Position.ofName?_name_eq_none_iff {p : Position} (h : p.inGrid = true) :
    Builtin.ofName? p.name = none ↔ p.name ≠ "LOG10" := by
  let q : Position := ⟨9, 8508⟩
  have hq : q.name = "LOG10" := by decide +kernel
  rw [← p.text_spelling, p.spelling.ofName?_eq_none_iff, p.text_spelling, ← hq]
  constructor
  · intro hfree heq
    rw [heq, hq] at hfree
    exact absurd hfree (by decide +kernel)
  · intro hne
    rw [← Bool.not_eq_true]
    intro hsame
    rw [← p.text_spelling, ← q.text_spelling] at hsame
    have hcanonical := Spelling.canonicalName_of_sameName hsame
    rw [p.text_spelling, q.text_spelling, canonicalName_name h, canonicalName_name rfl]
      at hcanonical
    exact hne hcanonical.symm

/-! ## Cells in trees -/

namespace Expr

variable {e : Expr} {name : String}

/-- No cell in a formed tree has the name of a function, in any case. -/
theorem Formed.ofName?_of_names (h : e.Formed) (hname : e.Names name) :
    Builtin.ofName? name = none := by
  induction h with
  | constant _ => exact absurd hname not_names_constant
  | reference s h =>
    cases hname
    exact h
  | call _ ih =>
    obtain ⟨e, he, hname⟩ := names_apply.1 hname
    exact ih e he hname
  | sign _ _ ih => exact ih (by simpa [names_apply] using hname)
  | percent _ ih => exact ih (by simpa [names_apply] using hname)
  | between _ _ _ _ ihleft ihright =>
    have hsides := names_apply.1 hname
    simp only [List.mem_cons, List.not_mem_nil, or_false, exists_eq_or_imp,
      exists_eq_left] at hsides
    exact hsides.elim ihleft ihright
  | group _ ih => exact ih (names_group.1 hname)

theorem Formed.not_sameName (h : e.Formed) (hname : e.Names name) (f : Builtin) :
    Text.sameName name f.name = false := by
  have hfree := h.ofName?_of_names hname
  rw [← Bool.not_eq_true]
  intro hsame
  rw [Builtin.ofName?_eq_some_iff.2 hsame] at hfree
  cases hfree

end Expr

/-- Reserved names and cells never mix. The canonical name of a cell of the grid is read as that
cell, unless it is `LOG10`; so is every text of its address and every spelling with an anchor in it,
`LOG10` included. The other way round, no cell in the tree of a formula has the name of a function,
in any case. -/
theorem reserved_apart_from_cells :
    (∀ p : Position, p.inGrid = true → (ReadAsCell p.name p ↔ p.name ≠ "LOG10")) ∧
    (∀ a : Address, a.inGrid = true → a.colAnchored = true ∨ a.rowAnchored = true →
      ReadAsCell a.text a.toPosition) ∧
    (∀ s : Spelling, s.InGrid → s.colAnchored = true ∨ s.rowAnchored = true →
      ReadAsCell s.text s.address.toPosition) ∧
    (∀ text limit e name, Expr.ofFormula text limit = .ok e → e.Names name →
      ∀ f : Builtin, Text.sameName name f.name = false) := by
  have hanchored : ∀ s : Spelling, s.InGrid → s.colAnchored = true ∨ s.rowAnchored = true →
      ReadAsCell s.text s.address.toPosition := fun s h hanchor =>
    (readAsCell_text_iff h).2 (Lexeme.ofName?_eq_none_of_anchored hanchor)
  refine ⟨?_, ?_, hanchored, ?_⟩
  · intro p hp
    let a := Address.ofPosition p
    have hcell := readAsCell_text_iff (Address.inGrid_spelling (a := a) hp)
    rw [a.address_spelling] at hcell
    rw [← Position.ofName?_name_eq_none_iff hp, ← p.text_spelling]
    exact hcell
  · intro a ha hanchor
    have hcell := hanchored a.spelling (Address.inGrid_spelling ha) hanchor
    rwa [a.text_spelling, a.address_spelling] at hcell
  · intro text limit e name he hname f
    exact (Expr.formed_of_ofFormula he).not_sameName hname f

/-- The cell `LOG10` is not read from its canonical name, but from its address with an anchor and
from a spelling with an anchor and small letters; the cell above it is read from its canonical
name. -/
theorem log10_apart_from_its_cell :
    ¬ ReadAsCell "LOG10" ⟨9, 8508⟩ ∧ ReadAsCell "LOG9" ⟨8, 8508⟩ ∧
      ReadAsCell "LOG$10" ⟨9, 8508⟩ ∧ ReadAsCell "$log010" ⟨9, 8508⟩ ∧
      Expr.ofFormula "LOG$10" defaultNesting = .ok (.reference "LOG$10") ∧
      ∀ f : Builtin, Text.sameName "LOG$10" f.name = false := by
  obtain ⟨hnames, hanchored, hspelled, htrees⟩ := reserved_apart_from_cells
  let p : Position := ⟨9, 8508⟩
  let above : Position := ⟨8, 8508⟩
  let a : Address := ⟨p, true, false⟩
  have hp : p.name = "LOG10" := by decide +kernel
  have habove : above.name = "LOG9" := by decide +kernel
  have ha : a.text = "LOG$10" := by decide +kernel
  let s : Spelling :=
    { colAnchored := true, letters := ['l', 'o', 'g'], rowAnchored := false,
      digits := ['0', '1', '0'], letters_ne_nil := by decide, digits_ne_nil := by decide,
      isAlpha_of_mem := List.all_eq_true.1 rfl, isDigit_of_mem := List.all_eq_true.1 rfl }
  have hs : s.column = 8509 ∧ s.row = 10 := by decide
  have hin : s.InGrid := by rw [Spelling.InGrid, hs.1, hs.2]; decide
  have haddress : s.address.toPosition = p := by rw [Spelling.address, hs.1, hs.2]
  have hparse : Expr.ofFormula "LOG$10" defaultNesting = .ok (.reference "LOG$10") := by
    with_unfolding_all rfl
  have hcell := (hnames p rfl).not.2 (not_not.2 hp)
  have hcellAbove := (hnames above rfl).2 (by rw [habove]; decide)
  have hcellAnchored := hanchored a rfl (.inr rfl)
  have hcellSpelled := hspelled s hin (.inl rfl)
  rw [hp] at hcell
  rw [habove] at hcellAbove
  rw [ha] at hcellAnchored
  rw [haddress] at hcellSpelled
  exact ⟨hcell, hcellAbove, hcellAnchored, hcellSpelled, hparse,
    htrees _ _ _ _ hparse (.reference "LOG$10")⟩

end Spreadsheet
