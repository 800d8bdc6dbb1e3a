import Spreadsheet.Content
import Spreadsheet.Proofs.Formula.Positions
import Spreadsheet.Proofs.Text.Blanks

/-!
# The equals sign before a formula

A formula may be written with an equals sign before it. The sign is dropped when the formula is
stored, and it may also be left to the reader of the formula, which drops the blanks around the text
and then one sign. So a formula is read alike from its text and from what is stored of it, unless
there is a second sign directly behind the first, up to blanks: that one is left over for the
reader, and a text that cannot be read becomes a formula by being stored.

## Main results

* `formulaBody_trim`: blanks around a text make no difference.
* `Expr.ofFormula_stored`: what is stored of a formula text is read like the text.
* `Expr.ofFormula_of_markedTwice`: a text with two signs cannot be read.
-/

namespace Spreadsheet

/-! ## Blanks around a formula -/

/-- Blanks around a formula text make no difference. -/
theorem formulaBody_trim (text : String) : formulaBody (Text.trim text) = formulaBody text := by
  rw [formulaBody, formulaBody, Text.toList_trim, Text.trimChars_trimChars]

theorem Expr.ofFormula_trim (text : String) (limit : Nat) :
    ofFormula (Text.trim text) limit = ofFormula text limit := by
  rw [ofFormula, ofFormula, formulaBody_trim]

/-! ## What is stored of a formula -/

/-- What a cell stores of a formula text. -/
def Content.stored (text : String) : String :=
  match text.toList with
  | '=' :: rest => String.ofList rest
  | _ => text

theorem Content.stored_of_mark {text : String} {rest : List Char}
    (h : text.toList = '=' :: rest) : stored text = String.ofList rest := by
  simp only [stored, h]

theorem Content.stored_of_not_mark {text : String} (h : ∀ rest, text.toList ≠ '=' :: rest) :
    stored text = text := by
  rw [stored]
  split
  · next rest htext => exact absurd htext (h rest)
  · rfl

theorem Content.ofFormula_eq (text : String) : ofFormula text = .formula (stored text) := by
  rw [ofFormula]
  split
  · next rest htext => rw [stored_of_mark htext]
  · next hnone => rw [stored_of_not_mark hnone]

/-- Input that begins with an equals sign, up to blanks, is a formula. -/
theorem Content.ofInput_eq {input : String} (h : (Text.trim input).toList.head? = some '=') :
    ofInput input = .formula (stored (Text.trim input)) := by
  rw [ofInput, h, if_pos (by rfl), ofFormula_eq]

/-- Whether a text begins with two equals signs, with nothing but blanks between them. -/
def MarkedTwice (text : String) : Prop :=
  text.toList.head? = some '=' ∧ (Text.skipBlanks text.toList.tail).head? = some '='

instance (text : String) : Decidable (MarkedTwice text) :=
  inferInstanceAs (Decidable (_ ∧ _))

theorem formulaBody_of_skipBlanks {text : String} {rest : List Char}
    (h : Text.skipBlanks text.toList = '=' :: rest) :
    (formulaBody text).toList = Text.dropEnd rest := by
  rw [formulaBody, Text.trimChars_eq_dropEnd, h, Text.dropEnd_cons_of_not_blank (by decide)]
  exact String.toList_ofList

theorem formulaBody_of_mark {text : String} {rest : List Char} (h : text.toList = '=' :: rest) :
    (formulaBody text).toList = Text.dropEnd rest := by
  have hmark : Text.isBlank '=' = false := by decide
  exact formulaBody_of_skipBlanks (by rw [h, Text.skipBlanks_cons_of_not_blank hmark])

theorem formulaBody_of_not_mark {text : String}
    (h : ∀ others, Text.skipBlanks text.toList ≠ '=' :: others) :
    (formulaBody text).toList = Text.trimChars text.toList := by
  rw [formulaBody]
  split
  · next rest htrim =>
    obtain ⟨more, hmore⟩ : Text.dropEnd (Text.skipBlanks text.toList) <+:
      Text.skipBlanks text.toList := List.rdropWhile_prefix ..
    rw [← Text.trimChars_eq_dropEnd, htrim, List.cons_append] at hmore
    exact absurd hmore.symm (h _)
  · exact String.toList_ofList

/-- What is stored of a formula text has the same body, up to blanks before it. -/
theorem skipBlanks_formulaBody_stored {text : String} (h : ¬ MarkedTwice text) :
    Text.skipBlanks (formulaBody (Content.stored text)).toList =
      Text.skipBlanks (formulaBody text).toList := by
  by_cases hmark : ∃ rest, text.toList = '=' :: rest
  · obtain ⟨rest, htext⟩ := hmark
    have hbody : (formulaBody (String.ofList rest)).toList = Text.trimChars rest := by
      have hnone : ∀ others, Text.skipBlanks (String.ofList rest).toList ≠ '=' :: others := by
        intro others hothers
        rw [String.toList_ofList] at hothers
        exact h ⟨by rw [htext]; rfl, by rw [htext, List.tail_cons, hothers]; rfl⟩
      rw [formulaBody_of_not_mark hnone, String.toList_ofList]
    rw [Content.stored_of_mark htext, hbody, formulaBody_of_mark htext, Text.skipBlanks_trimChars,
      Text.skipBlanks_dropEnd, Text.trimChars_eq_dropEnd]
  · rw [Content.stored_of_not_mark (not_exists.1 hmark)]

/-- What is stored of a formula text is read like the text, but for positions. -/
theorem Expr.ofFormula_stored {text : String} (limit : Nat) (h : ¬ MarkedTwice text) :
    (ofFormula (Content.stored text) limit).mapError FormulaError.unplaced =
      (ofFormula text limit).mapError FormulaError.unplaced :=
  ofFormula_unplaced (skipBlanks_formulaBody_stored h)

/-! ## Two signs -/

/-- The sign that is left over is the first token. -/
theorem exists_tokens_of_markedTwice {text : String} (h : MarkedTwice text) :
    ∃ position ts,
      (Scan.ofText (formulaBody text)).tokens = ⟨.operator, "=", none, position⟩ :: ts := by
  obtain ⟨hfirst, hsecond⟩ := h
  obtain ⟨rest, htext⟩ : ∃ rest, text.toList = '=' :: rest :=
    List.head?_eq_some_iff.1 hfirst
  rw [htext, List.tail_cons] at hsecond
  obtain ⟨others, hrest⟩ := List.head?_eq_some_iff.1 hsecond
  have hbody : Text.skipBlanks (formulaBody text).toList = '=' :: Text.dropEnd others := by
    rw [formulaBody_of_mark htext, Text.skipBlanks_dropEnd, hrest]
    exact Text.dropEnd_cons_of_not_blank (by decide)
  have hlexeme : Lexeme.ofChars? ('=' :: Text.dropEnd others) = some ⟨.operator, ['='], none⟩ := rfl
  rw [Scan.ofText, Scan.onward]
  dsimp only
  rw [hbody, if_neg (by simp), hlexeme]
  exact ⟨_, _, rfl⟩

/-- A text that begins with two equals signs cannot be read. -/
theorem Expr.ofFormula_of_markedTwice {text : String} (h : MarkedTwice text) (limit : Nat) :
    ∃ e, ofFormula text limit = .error e := by
  obtain ⟨position, ts, htokens⟩ := exists_tokens_of_markedTwice h
  rw [ofFormula, tokenize, htokens]
  cases (Scan.ofText (formulaBody text)).fault with
  | some u => exact ⟨_, rfl⟩
  | none =>
    refine ⟨.parse (.noLeftOperand "=" position), ?_⟩
    change ofTokens (_ :: ts) limit = _
    rw [ofTokens, if_neg (by simp), Run.read_cons, Run.front?_operator rfl]
    rfl

end Spreadsheet
