import Spreadsheet.Proofs.Formula.Standalone

/-!
# Lexemes are slices of the text

Whatever kind of lexeme stands at the front of a text, its characters are those that the text begins
with: no kind of token drops or adds a character, and reading goes on directly behind it. Offsets
count bytes, and a slice takes as many bytes as it has in the text.

## Main results

* `chars_append_drop`: a lexeme and what is left behind it make up the text.
* `utf8ByteSize_ofList`: characters take as many bytes as the text that they make up.
-/

namespace Spreadsheet

namespace Lexeme

variable {cs : List Char} {l : Lexeme}

/-! ## Each kind of lexeme -/

theorem front_of_symbol? (h : symbol? cs = some l) : l.chars <+: cs := by
  unfold symbol? at h
  split at h
  · next c rest =>
    split at h
    · cases h
      exact ⟨rest, rfl⟩
    · cases h
  · cases h

theorem front_of_operator? (h : operator? cs = some l) : l.chars <+: cs := by
  unfold operator? at h
  split at h
  · next rest =>
    cases h
    exact ⟨rest, rfl⟩
  · next rest =>
    cases h
    exact ⟨rest, rfl⟩
  · next rest =>
    cases h
    exact ⟨rest, rfl⟩
  · next rest _ _ _ =>
    split at h
    · cases h
      exact ⟨rest, rfl⟩
    · cases h
  · cases h

theorem front_of_function? (h : function? cs = some l) : l.chars <+: cs := by
  simp only [function?] at h
  split at h
  · cases h
    exact List.takeWhile_prefix _
  · cases h

theorem front_of_cell? (h : cell? cs = some l) : l.chars <+: cs := by
  obtain ⟨s, rest, hchars, hcs⟩ := exists_spelling_append_of_cell? h
  exact ⟨rest, by rw [hchars, hcs]⟩

theorem front_of_word? {word chars : List Char} (h : word? word cs = some chars) :
    chars <+: cs := by
  simp only [word?] at h
  split at h
  · cases h
    exact List.take_prefix _ _
  · cases h

theorem front_of_boolean? (h : boolean? cs = some l) : l.chars <+: cs := by
  unfold boolean? at h
  split at h
  · next hword =>
    cases h
    exact front_of_word? hword
  · obtain ⟨chars, hword, rfl⟩ := Option.map_eq_some_iff.1 h
    exact front_of_word? hword

/-- A text in quotes goes up to a quote that stands in the text. -/
theorem front_of_text? (h : text? cs = some l) : l.chars <+: cs := by
  unfold text? at h
  split at h
  · next rest =>
    dsimp only at h
    split at h
    · next hlength =>
      cases h
      obtain ⟨d, others, hbehind⟩ : ∃ d others, rest.dropWhile (· != '"') = d :: others := by
        refine List.exists_cons_of_ne_nil fun hnil => ?_
        have hall := List.takeWhile_append_dropWhile (p := (· != '"')) (l := rest)
        rw [hnil, List.append_nil] at hall
        rw [hall] at hlength
        exact Nat.lt_irrefl _ hlength
      have hquote : d = '"' := by
        have hhead := List.head?_dropWhile_not (· != '"') rest
        rw [hbehind] at hhead
        simpa using hhead
      rw [hquote] at hbehind
      refine ⟨others, ?_⟩
      rw [List.cons_append, List.append_assoc, List.singleton_append, ← hbehind,
        List.takeWhile_append_dropWhile]
    · cases h
  · cases h

/-! ## Numbers -/

theorem front_fraction (cs : List Char) : fraction cs <+: cs := by
  unfold fraction
  split
  · next rest =>
    dsimp only
    split
    · exact List.nil_prefix
    · exact (List.prefix_cons_inj '.').2 (List.takeWhile_prefix _)
  · exact List.nil_prefix

theorem front_sign (cs : List Char) : sign cs <+: cs := by
  unfold sign
  split
  · next rest => exact ⟨rest, rfl⟩
  · next rest => exact ⟨rest, rfl⟩
  · exact List.nil_prefix

theorem front_exponent (cs : List Char) : exponent cs <+: cs := by
  cases cs with
  | nil => exact List.nil_prefix
  | cons e rest =>
    simp only [exponent]
    split
    · have hsign : sign rest ++ rest.drop (sign rest).length = rest :=
        List.prefix_iff_eq_append.1 (front_sign rest)
      have hdigits :
          sign rest ++ (rest.drop (sign rest).length).takeWhile Char.isDigit <+: rest := by
        conv => rhs; rw [← hsign]
        exact (List.prefix_append_right_inj _).2 (List.takeWhile_prefix _)
      exact (List.prefix_cons_inj e).2 hdigits
    · exact List.nil_prefix

theorem front_numeral (cs : List Char) : numeral cs <+: cs := by
  have hwhole := List.takeWhile_append_dropWhile (p := Char.isDigit) (l := cs)
  have hfraction := List.prefix_iff_eq_append.1 (front_fraction (cs.dropWhile Char.isDigit))
  rw [numeral, List.append_assoc]
  conv => rhs; rw [← hwhole, ← hfraction]
  refine (List.prefix_append_right_inj _).2 ((List.prefix_append_right_inj _).2 ?_)
  split
  · exact List.nil_prefix
  · exact front_exponent _

theorem front_of_number? (h : number? cs = some l) : l.chars <+: cs := by
  simp only [number?] at h
  split at h
  · cases h
  · obtain ⟨x, _, rfl⟩ := Option.map_eq_some_iff.1 h
    exact front_numeral cs

/-! ## All lexemes -/

/-- A text begins with the characters of the lexeme at its front. -/
theorem front_of_ofChars? (h : ofChars? cs = some l) : l.chars <+: cs := by
  cases stands_of_ofChars? h with
  | symbol hl => exact front_of_symbol? hl
  | operator hl => exact front_of_operator? hl
  | function hl => exact front_of_function? hl
  | cell hl => exact front_of_cell? hl
  | boolean hl => exact front_of_boolean? hl
  | text hl => exact front_of_text? hl
  | number hl => exact front_of_number? hl

/-- A lexeme and what is left behind it make up the text. -/
theorem chars_append_drop (h : ofChars? cs = some l) : l.chars ++ cs.drop l.chars.length = cs :=
  List.prefix_iff_eq_append.1 (front_of_ofChars? h)

end Lexeme

/-! ## Bytes -/

namespace Scan

theorem byteLength_append (cs ds : List Char) :
    byteLength (cs ++ ds) = byteLength cs + byteLength ds := by
  induction cs with
  | nil => simp [byteLength]
  | cons c others ih => simp [byteLength, ih, Nat.add_assoc]

theorem byteLength_pos {cs : List Char} (h : cs ≠ []) : 0 < byteLength cs := by
  obtain ⟨c, others, rfl⟩ := List.exists_cons_of_ne_nil h
  exact Nat.add_pos_left c.utf8Size_pos _

/-- Characters take as many bytes as the text that they make up. -/
theorem utf8ByteSize_ofList (cs : List Char) : (String.ofList cs).utf8ByteSize = byteLength cs := by
  induction cs with
  | nil => rfl
  | cons c others ih =>
    have hcons : String.ofList (c :: others) = String.singleton c ++ String.ofList others := by
      rw [String.singleton_eq_ofList, ← String.ofList_append, List.singleton_append]
    rw [hcons, String.utf8ByteSize_append, String.utf8ByteSize_singleton, ih, byteLength]

theorem byteLength_toList (s : String) : byteLength s.toList = s.utf8ByteSize := by
  rw [← utf8ByteSize_ofList, String.ofList_toList]

end Scan

end Spreadsheet
