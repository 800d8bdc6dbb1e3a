import Spreadsheet.Proofs.Formula.Genuine
import Spreadsheet.Proofs.Formula.Synonyms
import Spreadsheet.Proofs.Grid.Spellings
import Spreadsheet.Proofs.Number.LetterCase

/-!
# Ways to write a token

The case of letters matters only in a text in quotes, and a cell of the grid can also be written
with anchors and with leading zeros. Tokens that differ in nothing else are written alike. What a
token stands for is determined by its text, so that tokens of two formula texts are synonymous if
they are written alike.

## Main results

* `Lexeme.value_of_ofChars?`: the value of a constant is the one that its characters stand for.
* `Lexeme.constantValue?_congr`: in another case, they stand for the same.
* `synonymous_of_writtenAlike`: tokens of two texts that are written alike are synonymous.
-/

namespace Spreadsheet

/-! ## The values of constants -/

namespace Lexeme

variable {c : Char} {cs ds : List Char} {l : Lexeme}

/-- The value that the characters of a constant stand for. -/
def constantValue? (cs : List Char) : Option Value :=
  match boolean? cs with
  | some l => l.value
  | none =>
    match text? cs with
    | some l => l.value
    | none => (Number.read? cs).map .number

theorem boolean?_of_boolean? (h : boolean? cs = some l) : boolean? l.chars = some l := by
  obtain ⟨b, hfolds, hl⟩ := folds_of_boolean? h
  have hread := boolean?_of_folds hfolds .nil
  rw [List.append_nil, ← hl] at hread
  exact hread

theorem text?_of_text? (h : text? cs = some l) :
    text? l.chars = some l ∧ ∃ rest, l.chars = '"' :: rest := by
  unfold text? at h
  split at h
  · next rest =>
    dsimp only at h
    split at h
    · cases h
      have htake : ((rest.takeWhile (· != '"')) ++ ['"']).takeWhile (· != '"') =
          rest.takeWhile (· != '"') :=
        (span_of_head (fun c hc => List.mem_takeWhile_imp hc) (by simp)).1
      simp [text?, htake]
    · cases h
  · cases h

/-- A number is no truth value and no text in quotes. -/
theorem value_of_number? (h : number? cs = some l) :
    boolean? l.chars = none ∧ text? l.chars = none ∧
      l.value = (Number.read? l.chars).map .number := by
  simp only [number?] at h
  split at h
  · cases h
  · next hne =>
    obtain ⟨x, hx, rfl⟩ := Option.map_eq_some_iff.1 h
    dsimp only
    rw [hx]
    obtain ⟨c, rest, hchars⟩ : ∃ c rest, numeral cs = c :: rest :=
      List.exists_cons_of_ne_nil (by simpa using hne)
    have hfirst : c.isDigit = true ∨ c = '.' := @head?_numeral cs c (by rw [hchars]; rfl)
    have halpha : c.isAlpha = false := by
      rcases hfirst with hdigit | rfl
      · exact Text.not_isAlpha_of_isDigit hdigit
      · rfl
    have hquote : c ≠ '"' := by
      rintro rfl
      exact absurd hfirst (by decide)
    rw [hchars]
    exact ⟨boolean?_eq_none halpha, text?_eq_none hquote, rfl⟩

/-- The value of a constant is the one that its characters stand for. -/
theorem value_of_ofChars? (h : ofChars? cs = some l) (hkind : l.kind = .constant) :
    l.value = constantValue? l.chars := by
  cases stands_of_ofChars? h with
  | symbol hl => simp [kind_of_symbol? hl] at hkind
  | operator hl => simp [kind_of_operator? hl] at hkind
  | function hl => simp [kind_of_function? hl] at hkind
  | cell hl => simp [kind_of_cell? hl] at hkind
  | boolean hl => rw [constantValue?, boolean?_of_boolean? hl]
  | text hl =>
    obtain ⟨htext, rest, hchars⟩ := text?_of_text? hl
    have hboolean : boolean? l.chars = none := by rw [hchars]; exact boolean?_eq_none rfl
    rw [constantValue?, hboolean, htext]
  | number hl =>
    obtain ⟨hboolean, htext, hvalue⟩ := value_of_number? hl
    rw [constantValue?, hboolean, htext, hvalue]

/-! ### In another case -/

theorem foldsTo_toUpper (capital c : Char) : foldsTo c.toUpper capital = foldsTo c capital := by
  rw [foldsTo, foldsTo, Text.toUpper_toUpper]
  have hlong : (c.toUpper.toNat == 0x17F) = (c.toNat == 0x17F) :=
    Text.apply_toUpper (fun c => c.toNat == 0x17F) (by decide) c
  rw [hlong]

theorem word?_map_toUpper (word cs : List Char) :
    word? word (cs.map Char.toUpper) = (word? word cs).map (List.map Char.toUpper) := by
  have hfolds : ∀ cs : List Char, List.zipWith foldsTo (cs.map Char.toUpper) word =
      List.zipWith foldsTo cs word := by
    intro cs
    have hsame : (fun c capital => foldsTo c.toUpper capital) = foldsTo :=
      funext fun c => funext fun capital => foldsTo_toUpper capital c
    rw [List.zipWith_map_left, hsame]
  have hbehind : ((cs.drop word.length).map Char.toUpper).head?.any Text.isWordCharacter =
      (cs.drop word.length).head?.any Text.isWordCharacter := by
    have hsame : (fun c : Char => Text.isWordCharacter c.toUpper) = Text.isWordCharacter :=
      funext fun c => Text.apply_toUpper Text.isWordCharacter (by decide) c
    rw [List.head?_map, Option.any_map, hsame]
  rw [word?, word?, ← List.map_take, ← List.map_drop, List.length_map, hfolds, hbehind]
  split <;> rfl

theorem boolean?_map_toUpper (cs : List Char) :
    boolean? (cs.map Char.toUpper) =
      (boolean? cs).map fun l => { l with chars := l.chars.map Char.toUpper } := by
  rw [boolean?, boolean?, word?_map_toUpper, word?_map_toUpper]
  cases word? ['T', 'R', 'U', 'E'] cs with
  | some chars => rfl
  | none => cases word? ['F', 'A', 'L', 'S', 'E'] cs <;> rfl

theorem head?_map_toUpper_eq_quote :
    (cs.map Char.toUpper).head? = some '"' ↔ cs.head? = some '"' := by
  rw [List.head?_map, Option.map_eq_some_iff]
  constructor
  · rintro ⟨c, hc, hquote⟩
    rw [hc, (Text.toUpper_eq_iff (by decide)).1 hquote]
  · exact fun hc => ⟨'"', hc, rfl⟩

theorem constantValue?_map_toUpper (h : cs.head? ≠ some '"') :
    constantValue? (cs.map Char.toUpper) = constantValue? cs := by
  have hquote : ∀ cs : List Char, cs.head? ≠ some '"' → text? cs = none := by
    intro cs hcs
    cases cs with
    | nil => rfl
    | cons c rest => exact text?_eq_none fun hc => hcs (by rw [hc]; rfl)
  have hupper : text? (cs.map Char.toUpper) = none :=
    hquote _ fun hhead => h (head?_map_toUpper_eq_quote.1 hhead)
  rw [constantValue?, constantValue?, boolean?_map_toUpper, hquote _ h, hupper,
    Number.read?_map_toUpper]
  cases boolean? cs <;> rfl

/-- Characters that differ in the case of letters stand for the same constant, unless that is a text
in quotes. -/
theorem constantValue?_congr (h : ds.map Char.toUpper = cs.map Char.toUpper)
    (hquote : cs.head? ≠ some '"') : constantValue? ds = constantValue? cs := by
  have hquote' : ds.head? ≠ some '"' := by
    rwa [Ne, ← head?_map_toUpper_eq_quote, h, head?_map_toUpper_eq_quote]
  rw [← constantValue?_map_toUpper hquote', h, constantValue?_map_toUpper hquote]

end Lexeme

/-! ## Tokens -/

namespace Token

/-- Tokens of one kind that are the same but for how they are written: in the case of the letters of
a name, a truth value or a number, or in the spelling of a cell of the grid. -/
inductive WrittenAlike (t t' : Token) : Prop
  | same (hkind : t'.kind = t.kind) (htext : t'.text = t.text)
  | letterCase (hkind : t'.kind = t.kind)
    (hletters : t.kind = .function ∨ t.kind = .cell ∨
      t.kind = .constant ∧ t.text.toList.head? ≠ some '"')
    (hname : Text.sameName t.text t'.text = true)
  | spelling {s s' : Spelling} {a : Address} (hkind : t.kind = .cell) (hkind' : t'.kind = .cell)
    (htext : t.text = s.text) (htext' : t'.text = s'.text) (hgrid : Address.parse s.text = .ok a)
    (h : s.Alike s')

/-- What a token of a text stands for shows in its text. -/
structure Faithful (t : Token) : Prop where
  value : t.kind = .constant → t.value = Lexeme.constantValue? t.text.toList
  spelled : t.kind = .cell → ∃ s : Spelling, t.text = s.text

end Token

/-- The tokens of a text are faithful. -/
theorem faithful_of_tokenize {text : String} {tokens : List Token}
    (h : tokenize text = .ok tokens) : ∀ t ∈ tokens, t.Faithful := by
  intro t ht
  refine ⟨fun hkind => ?_, fun hkind => exists_spelling_of_tokenize h ⟨t, ht, hkind, rfl⟩⟩
  obtain ⟨cs, l, hl, htoken⟩ := exists_lexeme_of_tokenize h ht
  rw [htoken] at hkind ⊢
  have hchars : (l.token t.position).text.toList = l.chars := String.toList_ofList
  rw [hchars]
  exact Lexeme.value_of_ofChars? hl hkind

namespace Token

variable {t t' : Token}

/-- Tokens that are written alike are synonymous. -/
theorem WrittenAlike.synonymous (h : t.WrittenAlike t') (ht : t.Faithful) (ht' : t'.Faithful) :
    t.Synonymous t' := by
  cases h with
  | same hkind htext =>
    have hvalue : t.kind = .constant → t'.value = t.value := fun hconstant => by
      rw [ht.value hconstant, ht'.value (hkind.trans hconstant), htext]
    exact ⟨hkind, hvalue, fun _ => htext, fun _ => by rw [htext], fun _ => by rw [htext]⟩
  | letterCase hkind hletters hname =>
    refine ⟨hkind, fun hconstant => ?_, fun hmark => ?_, fun _ => ?_, fun hcell => ?_⟩
    · have hquote : t.text.toList.head? ≠ some '"' := by simpa [hconstant] using hletters
      rw [ht.value hconstant, ht'.value (hkind.trans hconstant)]
      exact Lexeme.constantValue?_congr (Text.sameName_iff.1 hname) hquote
    · rcases hmark with hmark | hmark <;> simp [hmark] at hletters
    · rw [Builtin.ofName?, Builtin.ofName?, eq_of_beq hname]
    · obtain ⟨s, hs⟩ := ht.spelled hcell
      obtain ⟨s', hs'⟩ := ht'.spelled (hkind.trans hcell)
      rw [hs, hs'] at hname ⊢
      exact Spelling.canonicalName_of_sameName hname
  | spelling hkind hkind' htext htext' hgrid hspelled =>
    have hcanonical : canonicalName t'.text = canonicalName t.text := by
      rw [htext, htext', hspelled.canonicalName_text hgrid]
    exact ⟨hkind'.trans hkind.symm, by simp [hkind], by simp [hkind], by simp [hkind],
      fun _ => hcanonical⟩

end Token

/-- Tokens of two texts that are written alike one by one are synonymous one by one. -/
theorem synonymous_of_writtenAlike {text text' : String} {tokens tokens' : List Token}
    (h : tokenize text = .ok tokens) (h' : tokenize text' = .ok tokens')
    (halike : List.Forall₂ Token.WrittenAlike tokens tokens') :
    List.Forall₂ Token.Synonymous tokens tokens' := by
  have hfaithful := faithful_of_tokenize h
  have hfaithful' := faithful_of_tokenize h'
  clear h h'
  induction halike with
  | nil => exact .nil
  | cons ht _ ih =>
    obtain ⟨hfirst, hrest⟩ := List.forall_mem_cons.1 hfaithful
    obtain ⟨hfirst', hrest'⟩ := List.forall_mem_cons.1 hfaithful'
    exact .cons (ht.synonymous hfirst hfirst') (ih hrest hrest')

end Spreadsheet
