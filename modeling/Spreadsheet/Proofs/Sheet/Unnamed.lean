import Spreadsheet.Proofs.Evaluation.Agreement
import Spreadsheet.Proofs.Sheet.Lookup

/-!
# Texts that name no cell

A text that is no address is looked up as capitals without its `$` signs. As a rule that is no
address either, so nothing is found under it, and looking it up again changes nothing. The exception
is a text that only a `$` where no anchor can stand keeps from being an address, as in `A1$`: what
is left of it does name a cell.

## Main results

* `spelled_map_toUpper`: whether a text is a spelling in the grid does not depend on case.
* `misanchored_iff`: which texts are no address, but are looked up under one.
* `canonicalName_unnamed`: what is found under a text that is no address, and when a canonical name
  is looked up as it is.
-/

namespace Spreadsheet

/-! ## Spellings in the grid, in any case -/

theorem Text.isBlank_toUpper (c : Char) : isBlank c.toUpper = isBlank c :=
  apply_toUpper isBlank (by decide) c

theorem Text.trimChars_map_toUpper (cs : List Char) :
    trimChars (cs.map Char.toUpper) = (trimChars cs).map Char.toUpper := by
  have hskip : ∀ ds : List Char,
      skipBlanks (ds.map Char.toUpper) = (skipBlanks ds).map Char.toUpper := by
    intro ds
    have hblank : isBlank ∘ Char.toUpper = isBlank := funext isBlank_toUpper
    rw [skipBlanks, List.dropWhile_map, hblank, skipBlanks]
  rw [trimChars, hskip, ← List.map_reverse, hskip, ← List.map_reverse, trimChars]

theorem Text.map_toUpper_map_toUpper (cs : List Char) :
    (cs.map Char.toUpper).map Char.toUpper = cs.map Char.toUpper := by
  rw [List.map_map]
  exact List.map_congr_left fun c _ => toUpper_toUpper c

/-- What is true of the characters of a list in any case is true of its characters in another
case. -/
theorem Text.forall_of_map_toUpper {p : Char → Bool} (hp : ∀ c, p c.toUpper = p c)
    {cs ds : List Char} (h : ds.map Char.toUpper = cs.map Char.toUpper)
    (hcs : ∀ c ∈ cs, p c = true) : ∀ d ∈ ds, p d = true := by
  intro d hd
  have hmem : d.toUpper ∈ cs.map Char.toUpper := h ▸ List.mem_map_of_mem hd
  obtain ⟨c, hc, hsame⟩ := List.mem_map.1 hmem
  rw [← hp d, ← hsame, hp c]
  exact hcs c hc

theorem Spelling.eq_anchor_of_map_toUpper {cs : List Char} {anchored : Bool}
    (h : cs.map Char.toUpper = (anchor anchored).map Char.toUpper) : cs = anchor anchored := by
  cases anchored with
  | false => exact List.map_eq_nil_iff.1 h
  | true =>
    have hnot : ('$').isAlpha = false := rfl
    obtain ⟨c, rfl, hc⟩ := List.map_eq_singleton_iff.1 h
    rw [(Text.toUpper_eq_iff hnot).1 hc]
    rfl

/-- A spelling in another case is a spelling of the same two numbers. -/
theorem Spelling.exists_of_map_toUpper {s : Spelling} {cs : List Char}
    (h : cs.map Char.toUpper = s.chars.map Char.toUpper) :
    ∃ t : Spelling, cs = t.chars ∧ t.column = s.column ∧ t.row = s.row := by
  rw [chars, List.map_append, List.map_append, List.map_append] at h
  obtain ⟨before, rest, rfl, hbefore, hrest⟩ := List.map_eq_append_iff.1 h
  obtain ⟨letters, rest, rfl, hletters, hrest⟩ := List.map_eq_append_iff.1 hrest
  obtain ⟨between, digits, rfl, hbetween, hdigits⟩ := List.map_eq_append_iff.1 hrest
  have hdigit : ∀ c ∈ digits, c.isDigit = true :=
    Text.forall_of_map_toUpper Text.isDigit_toUpper hdigits s.isDigit_of_mem
  rw [Text.map_toUpper_of_isDigit hdigit, Text.map_toUpper_of_isDigit s.isDigit_of_mem] at hdigits
  let t : Spelling :=
    { s with
      letters
      digits
      letters_ne_nil := by
        rintro rfl
        exact s.letters_ne_nil (List.map_eq_nil_iff.1 hletters.symm)
      digits_ne_nil := hdigits ▸ s.digits_ne_nil
      isAlpha_of_mem := Text.forall_of_map_toUpper Text.isAlpha_toUpper hletters s.isAlpha_of_mem
      isDigit_of_mem := hdigit }
  refine ⟨t, ?_, ?_, congrArg Number.decimal hdigits⟩
  · rw [eq_anchor_of_map_toUpper hbefore, eq_anchor_of_map_toUpper hbetween]
    rfl
  · calc
      t.column = Column.number (letters.map Char.toUpper) := (Column.number_map_toUpper _).symm
      _ = Column.number (s.letters.map Char.toUpper) := by rw [hletters]
      _ = s.column := Column.number_map_toUpper _

/-- Characters that are a spelling in the grid, with blanks around it. -/
def Spelled (cs : List Char) : Prop :=
  ∃ s : Spelling, s.InGrid ∧ Text.trimChars cs = s.chars

theorem spelled_iff_parse {text : String} :
    Spelled text.toList ↔ ∃ a, Address.parse text = .ok a := by
  constructor
  · rintro ⟨s, hin, htext⟩
    exact ⟨s.address, Address.parse_eq_ok_iff.2 ⟨s, congrArg String.ofList htext, hin, rfl⟩⟩
  · rintro ⟨a, ha⟩
    obtain ⟨s, htext, hin, -⟩ := Address.parse_eq_ok_iff.1 ha
    exact ⟨s, hin, String.ofList_injective htext⟩

theorem Spelled.of_map_toUpper {cs ds : List Char} (h : Spelled cs)
    (hsame : ds.map Char.toUpper = cs.map Char.toUpper) : Spelled ds := by
  obtain ⟨s, hin, htext⟩ := h
  have htrim : (Text.trimChars ds).map Char.toUpper = s.chars.map Char.toUpper := by
    rw [← htext, ← Text.trimChars_map_toUpper, hsame, Text.trimChars_map_toUpper]
  obtain ⟨t, ht, hcolumn, hrow⟩ := Spelling.exists_of_map_toUpper htrim
  refine ⟨t, ?_, ht⟩
  rwa [Spelling.InGrid, hcolumn, hrow]

/-- Whether characters are a spelling in the grid does not depend on case. -/
theorem spelled_map_toUpper {cs : List Char} : Spelled (cs.map Char.toUpper) ↔ Spelled cs :=
  ⟨fun h => h.of_map_toUpper (Text.map_toUpper_map_toUpper cs).symm,
    fun h => h.of_map_toUpper (Text.map_toUpper_map_toUpper cs)⟩

/-! ## Texts that are no address -/

/-- A text that is no address, but would be a spelling in the grid, with blanks around it, if it had
no `$` signs: one of them stands where no anchor can stand. -/
structure Misanchored (text : String) : Prop where
  not_address : ∀ a, Address.parse text ≠ .ok a
  spelled : Spelled (text.toList.filter (· != '$'))

section NoAddress

variable {text : String} {e e' : AddressError} (h : Address.parse text = .error e)
include h

theorem toList_canonicalName_of_error :
    (canonicalName text).toList = (text.toList.filter (· != '$')).map Char.toUpper := by
  rw [canonicalName, h]
  exact String.toList_ofList

/-- A text that is no address is looked up under an address if and only if it is misanchored. -/
theorem misanchored_iff : Misanchored text ↔ ∃ a, Address.parse (canonicalName text) = .ok a := by
  rw [← spelled_iff_parse, toList_canonicalName_of_error h, spelled_map_toUpper]
  constructor
  · exact Misanchored.spelled
  · intro hspelled
    refine ⟨fun a ha => ?_, hspelled⟩
    rw [h] at ha
    cases ha

/-- Without `$` signs and small letters, nothing is left to be changed. -/
theorem canonicalName_canonicalName_of_error
    (h' : Address.parse (canonicalName text) = .error e') :
    canonicalName (canonicalName text) = canonicalName text := by
  have hnone : ∀ c ∈ (text.toList.filter (· != '$')).map Char.toUpper, (c != '$') = true := by
    intro c hc
    obtain ⟨d, hd, rfl⟩ := List.mem_map.1 hc
    have hne : d ≠ '$' := by simpa using (List.mem_filter.1 hd).2
    simpa using fun hdollar => hne ((Text.toUpper_eq_iff rfl).1 hdollar)
  apply String.toList_injective
  rw [toList_canonicalName_of_error h', toList_canonicalName_of_error h,
    List.filter_eq_self.2 hnone, Text.map_toUpper_map_toUpper]

end NoAddress

/-! ## What is found -/

namespace Sheet

variable {name : String} {e : AddressError}

/-- Nothing is found under a name that is no address. -/
theorem lookup_of_error (s : Sheet) (h : Address.parse name = .error e) : s.lookup name = none := by
  rw [lookup, place, h]

/-- A cell whose name is looked up under no address is empty. -/
theorem evaluateCell_of_error (s : Sheet) (options : Options)
    (h : Address.parse (canonicalName name) = .error e) :
    Spreadsheet.evaluateCell s.lookup options name = .ok .empty := by
  have hplain : s.lookup.plain? (canonicalName name) = some .empty :=
    Environment.plain?_eq_some.2 (.inl ⟨s.lookup_of_error h, rfl⟩)
  have hsettled : Evaluation.Settled s.lookup ∅ (canonicalName name) .empty :=
    .inr ⟨Std.TreeMap.getElem?_emptyc, hplain⟩
  rw [evaluateCell_eq_retrieve, Evaluation.retrieve_of_settled hsettled]
  rfl

end Sheet

/-- Names that are no address. What such a name is looked up under is no address either, and leads
to no cell of a sheet, unless the name is misanchored. A name that was looked up is looked up as it
is, unless it comes from a misanchored text and is not the canonical name of a cell, but has blanks
around it or leading zeros. -/
theorem canonicalName_unnamed (text : String) :
    (∀ e, Address.parse text = .error e →
      ((∃ e', Address.parse (canonicalName text) = .error e') ↔ ¬Misanchored text) ∧
      (¬Misanchored text → ∀ (s : Sheet) options, s.lookup (canonicalName text) = none ∧
        evaluateCell s.lookup options text = .ok .empty)) ∧
    (canonicalName (canonicalName text) = canonicalName text ↔
      (Misanchored text → ∃ p : Position, p.inGrid = true ∧ canonicalName text = p.name)) := by
  have hiff : ∀ e, Address.parse text = .error e →
      ((∃ e', Address.parse (canonicalName text) = .error e') ↔ ¬Misanchored text) := by
    intro e h
    rw [misanchored_iff h]
    cases Address.parse (canonicalName text) with
    | ok a => simp
    | error e' => simp
  refine ⟨fun e h => ⟨hiff e h, fun hnot s options => ?_⟩, ?_⟩
  · obtain ⟨e', h'⟩ := (hiff e h).2 hnot
    exact ⟨s.lookup_of_error h', s.evaluateCell_of_error options h'⟩
  · cases h : Address.parse text with
    | ok a =>
      have hin : a.inGrid = true := inGrid_of_parse h
      have hname : canonicalName text = a.name := by rw [canonicalName, h]
      rw [hname, canonicalName_name hin]
      exact ⟨fun _ hmis => absurd h (hmis.not_address a), fun _ => rfl⟩
    | error e =>
      cases h' : Address.parse (canonicalName text) with
      | error e' =>
        have hnot : ¬Misanchored text := (hiff e h).1 ⟨e', h'⟩
        exact ⟨fun _ hmis => absurd hmis hnot, fun _ => canonicalName_canonicalName_of_error h h'⟩
      | ok a =>
        have hmis : Misanchored text := (misanchored_iff h).2 ⟨a, h'⟩
        constructor
        · intro hsame _
          refine ⟨a.toPosition, inGrid_of_parse h', ?_⟩
          rw [← hsame, canonicalName, h']
        · intro hcanonical
          obtain ⟨p, hin, hname⟩ := hcanonical hmis
          rw [hname, canonicalName_name hin]

/-- A sheet that holds a value in its first cell. -/
def cornerSheet : Sheet :=
  Sheet.new.write ⟨0, 0⟩ (.value (.boolean true))

/-- An address one column beyond the grid only loses its anchors and small letters, and finds
nothing. -/
theorem canonicalName_unnamed_beyond :
    Address.parse "$xfe$012" = .error .columnOutOfBounds ∧
      canonicalName "$xfe$012" = "XFE012" ∧ ¬Misanchored "$xfe$012" ∧
      (∃ e, Address.parse (canonicalName "$xfe$012") = .error e) ∧
      cornerSheet.lookup (canonicalName "$xfe$012") = none ∧
      evaluateCell cornerSheet.lookup cornerSheet.options "$xfe$012" = .ok .empty ∧
      canonicalName (canonicalName "$xfe$012") = canonicalName "$xfe$012" := by
  have hparse : Address.parse "$xfe$012" = .error .columnOutOfBounds := by decide +kernel
  have hagain : Address.parse (canonicalName "$xfe$012") = .error .columnOutOfBounds := by
    decide +kernel
  have hnot : ¬Misanchored "$xfe$012" := by
    rw [misanchored_iff hparse, hagain]
    rintro ⟨a, ha⟩
    cases ha
  obtain ⟨hunnamed, hidempotent⟩ := canonicalName_unnamed "$xfe$012"
  obtain ⟨hiff, hfound⟩ := hunnamed _ hparse
  obtain ⟨hlookup, hvalue⟩ := hfound hnot cornerSheet cornerSheet.options
  have hsame := hidempotent.2 fun hmis => absurd hmis hnot
  exact ⟨hparse, by decide +kernel, hnot, hiff.2 hnot, hlookup, hvalue, hsame⟩

/-- An anchor behind the row: the text is no address, but finds the content of the first cell. With
a leading zero in it, what it is looked up under is looked up under something else. -/
theorem exists_found_of_misanchored :
    Address.parse "A1$" = .error (.badRow "A1$") ∧
      Address.parse (canonicalName "A1$") = .ok (.ofPosition ⟨0, 0⟩) ∧
      cornerSheet.lookup (canonicalName "A1$") = some (.value (.boolean true)) ∧
      evaluateCell cornerSheet.lookup cornerSheet.options "A1$" = .ok (.boolean true) ∧
      canonicalName (canonicalName "A01$") ≠ canonicalName "A01$" := by
  have hvalue :
      evaluateCell cornerSheet.lookup cornerSheet.options "A1$" = .ok (.boolean true) := by
    rw [evaluateCell_eq_retrieve]
    decide +kernel
  exact ⟨by decide +kernel, by decide +kernel, by decide +kernel, hvalue, by decide +kernel⟩

end Spreadsheet
