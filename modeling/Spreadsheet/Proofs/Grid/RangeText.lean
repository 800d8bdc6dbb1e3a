import Spreadsheet.Proofs.Grid.Spellings

/-!
# The text of a range

No address has a colon in it, so a text with a colon is cut where the first corner ends, whatever
the corners are written like. Blanks around the text are blanks around its corners. The text of a
range has its own corners in it, in their canonical names, and is therefore read as that range. Any
two opposite corners of a rectangle give the same range, in either order.

## Main results

* `parse_append_colon`: two corners with a colon between them are read as the range between them.
* `parse_text`: the text of a range is read as that range.
* `text_roundtrip`: both together, for all corners of a rectangle.
-/

namespace Spreadsheet

theorem Spelling.ne_colon_of_mem (s : Spelling) {c : Char} (hc : c ∈ s.chars) : c ≠ ':' := by
  rintro rfl
  rcases s.isAlphanum_or_anchor hc with hword | hanchor
  · exact absurd hword (by decide)
  · exact absurd hanchor (by decide)

/-- No address has a colon in it. -/
theorem not_colon_of_parse {text : String} {a : Address} (h : Address.parse text = .ok a) :
    ':' ∉ text.toList := by
  obtain ⟨s, htext, -, -⟩ := Address.parse_eq_ok_iff.1 h
  intro hcolon
  have hmem : ':' ∈ Text.trimChars text.toList := Text.mem_trimChars hcolon (by decide)
  rw [String.ofList_injective htext] at hmem
  exact s.ne_colon_of_mem hmem rfl

namespace Range

variable {r : Range} {start stop : String}

/-! ## Texts without a colon and with one -/

/-- An address alone is read as the range of its one cell. -/
theorem parse_of_address {text : String} {a : Address} (h : Address.parse text = .ok a) :
    parse text = .ok (ofCorners a.toPosition a.toPosition) := by
  obtain ⟨s, htext, -, -⟩ := Address.parse_eq_ok_iff.1 h
  have hcolon : ∀ c ∈ Text.trimChars text.toList, (c != ':') = true := by
    intro c hc
    rw [String.ofList_injective htext] at hc
    exact bne_iff_ne.2 (s.ne_colon_of_mem hc)
  have hread : Address.read (Text.trimChars text.toList) = .ok a := h
  rw [parse, List.dropWhile_eq_nil_iff.2 hcolon]
  dsimp only
  rw [hread]

/-- Blanks around the name of a corner do not matter, not even to an error. -/
theorem corner_congr {which : Corner} {name name' : String}
    (h : Text.trimChars name.toList = Text.trimChars name'.toList) :
    ofNames.corner which name = ofNames.corner which name' := by
  rw [ofNames.corner, ofNames.corner, Address.parse, Address.parse, Text.trim, Text.trim, h]

/-- Two corners with a colon between them are read as the range between them, or fail like it. -/
theorem parse_append_colon (h : ':' ∉ start.toList) (stop : String) :
    parse (start ++ ":" ++ stop) = ofNames start stop := by
  have hchars : Text.trimChars (start ++ ":" ++ stop).toList =
      Text.skipBlanks start.toList ++ ':' :: Text.dropEnd stop.toList := by
    rw [String.toList_append, String.toList_append, List.append_assoc]
    exact Text.trimChars_append_cons (by decide) _ _
  have hbefore : ∀ c ∈ Text.skipBlanks start.toList, (c != ':') = true := by
    intro c hc
    have hmem : c ∈ start.toList := Text.mem_of_mem_skipBlanks hc
    exact bne_iff_ne.2 fun hcolon => h (hcolon ▸ hmem)
  have hstart : ofNames.corner .start (String.ofList (Text.skipBlanks start.toList)) =
      ofNames.corner .start start := by
    apply corner_congr
    rw [String.toList_ofList, Text.trimChars_skipBlanks]
  have hstop : ofNames.corner .stop (String.ofList (Text.dropEnd stop.toList)) =
      ofNames.corner .stop stop := by
    apply corner_congr
    rw [String.toList_ofList, Text.trimChars_dropEnd]
  rw [parse, hchars, List.dropWhile_append_of_pos hbefore, List.takeWhile_append_of_pos hbefore,
    List.dropWhile_cons_of_neg (by decide), List.takeWhile_cons_of_neg (by decide),
    List.append_nil]
  dsimp only
  rw [ofNames, hstart, hstop, ofNames]

/-- The text of a range of the grid is read as that range. -/
theorem parse_text (h : r.last.inGrid = true) : parse r.text = .ok r := by
  have hfirst := parse_name (inGrid_first h)
  have hcorners : ofCorners r.first r.last = r := r.ofCorners_first_last
  by_cases hone : r.first = r.last
  · rw [text, if_pos hone, parse_of_address hfirst]
    rw [← hone] at hcorners
    exact congrArg Except.ok hcorners
  · rw [text, if_neg hone, parse_append_colon (not_colon_of_parse hfirst),
      ofNames_of_parse hfirst (parse_name h)]
    exact congrArg Except.ok hcorners

/-! ## The four corners of a rectangle -/

theorem ofCorners_comm (p q : Position) : ofCorners p q = ofCorners q p := by
  simp only [ofCorners, Nat.min_comm, Nat.max_comm]

/-- The other two corners give the same range. -/
theorem ofCorners_opposite (p q : Position) :
    ofCorners ⟨p.row, q.col⟩ ⟨q.row, p.col⟩ = ofCorners p q := by
  simp only [ofCorners, Nat.min_comm, Nat.max_comm]

/-- Names of the corners of one rectangle give one range: in either order, with the other two
corners, and with a colon between them. -/
theorem text_roundtrip (a b : Address) :
    (a.inGrid = true → b.inGrid = true →
      parse (ofCorners a.toPosition b.toPosition).text =
        .ok (ofCorners a.toPosition b.toPosition)) ∧
    ∀ start stop, Address.parse start = .ok a → Address.parse stop = .ok b →
      ∃ r, ofNames start stop = .ok r ∧ ofNames stop start = .ok r ∧
        parse (start ++ ":" ++ stop) = .ok r ∧
        ∀ start' stop' c d, Address.parse start' = .ok c → Address.parse stop' = .ok d →
          c.toPosition = ⟨a.row, b.col⟩ → d.toPosition = ⟨b.row, a.col⟩ →
          ofNames start' stop' = .ok r ∧ ofNames stop' start' = .ok r := by
  refine ⟨fun ha hb => parse_text (inGrid_last_ofCorners ha hb), ?_⟩
  intro start stop ha hb
  have hnames := ofNames_of_parse ha hb
  refine ⟨ofCorners a.toPosition b.toPosition, hnames, ?_, ?_, ?_⟩
  · rw [ofNames_of_parse hb ha, ofCorners_comm]
  · rw [parse_append_colon (not_colon_of_parse ha), hnames]
  · intro start' stop' c d hc hd hcorner hcorner'
    have hopposite : ofCorners c.toPosition d.toPosition = ofCorners a.toPosition b.toPosition := by
      rw [hcorner, hcorner', ofCorners_opposite]
    rw [ofNames_of_parse hc hd, ofNames_of_parse hd hc, ofCorners_comm d.toPosition, hopposite]
    exact ⟨rfl, rfl⟩

/-- A rectangle at the edge of the grid, from anchored corners with blanks around them. -/
theorem text_roundtrip_lastColumn :
    parse (ofCorners ⟨9, 16383⟩ ⟨1, 2⟩).text = .ok (ofCorners ⟨9, 16383⟩ ⟨1, 2⟩) ∧
      ∃ r, ofNames " $xfd$10" "c02 " = .ok r ∧ ofNames "c02 " " $xfd$10" = .ok r ∧
        parse " $xfd$10:c02 " = .ok r ∧ ofNames "C10" "$XFD2" = .ok r ∧
        ofNames "$XFD2" "C10" = .ok r := by
  have hstart : Address.parse " $xfd$10" = .ok ⟨⟨9, 16383⟩, true, true⟩ := by decide +kernel
  have hstop : Address.parse "c02 " = .ok ⟨⟨1, 2⟩, false, false⟩ := by decide +kernel
  have hother : Address.parse "C10" = .ok ⟨⟨9, 2⟩, false, false⟩ := by decide +kernel
  have hother' : Address.parse "$XFD2" = .ok ⟨⟨1, 16383⟩, false, true⟩ := by decide +kernel
  obtain ⟨htext, hcorners⟩ :=
    text_roundtrip ⟨⟨9, 16383⟩, true, true⟩ ⟨⟨1, 2⟩, false, false⟩
  obtain ⟨r, hnames, hswapped, hcolon, hopposite⟩ := hcorners _ _ hstart hstop
  obtain ⟨hfirst, hsecond⟩ := hopposite _ _ _ _ hother hother' rfl rfl
  exact ⟨htext (by decide) (by decide), r, hnames, hswapped, hcolon, hfirst, hsecond⟩

end Range

end Spreadsheet
