import Spreadsheet.Proofs.Formula.Formed
import Spreadsheet.Proofs.Formula.Marks
import Spreadsheet.Proofs.Formula.Rounded
import Spreadsheet.Proofs.Formula.Standalone
import Spreadsheet.Proofs.Formula.Words

/-!
# Blanks between tokens

Where the tokens of a text end depends on how they touch: `LOG10(` begins a call, but `LOG10A1`
begins with a cell name, and `<` before `=` is another operator than `<` before a blank. So a text
need not have the same tokens once they are set apart by blanks. Where it has other ones, though, an
operand stands directly behind a cell name, and no tree has its tokens. An accepted text is
therefore read as the same tree however its tokens are set apart.

## Main results

* `unplaced_onward_of_spaced`: tokens that are set apart are read again.
* `Expr.ofFormula_of_setApart`: with its tokens set apart, a formula is read as the same tree.
-/

namespace Spreadsheet

/-- Tokens one behind another, with blanks between any two of them. -/
inductive Spaced : List Token → List Char → Prop
  | last (t : Token) : Spaced [t] t.text.toList
  | cons {t : Token} {gap : List Char} {tokens : List Token} {cs : List Char} (hne : gap ≠ [])
    (hgap : Text.AllBlank gap) (h : Spaced tokens cs) :
    Spaced (t :: tokens) (t.text.toList ++ (gap ++ cs))

/-- A text of tokens that are set apart, perhaps with blanks around, and perhaps with an equals sign
before the tokens. -/
inductive SetApart (tokens : List Token) (text : String) : Prop
  | bare {before cs after : List Char} (hbefore : Text.AllBlank before)
    (hafter : Text.AllBlank after) (h : Spaced tokens cs)
    (htext : text.toList = before ++ (cs ++ after))
  | marked {outside before cs after : List Char} (houtside : Text.AllBlank outside)
    (hbefore : Text.AllBlank before) (hafter : Text.AllBlank after) (h : Spaced tokens cs)
    (htext : text.toList = outside ++ '=' :: (before ++ (cs ++ after)))

/-! ## Cell names -/

/-- What stands in a list of words stands in one of its members, or between two of them. -/
theorem mem_intercalate {α : Type} {x : α} {sep : List α} {xss : List (List α)}
    (h : x ∈ sep.intercalate xss) : x ∈ sep ∨ ∃ xs ∈ xss, x ∈ xs := by
  induction xss with
  | nil => cases h
  | cons xs others ih =>
    cases others with
    | nil =>
      rw [List.intercalate_singleton] at h
      exact .inr ⟨xs, List.mem_cons_self, h⟩
    | cons ys more =>
      rw [List.intercalate_cons_cons, List.mem_append, List.mem_append] at h
      rcases h with (hfirst | hsep) | hrest
      · exact .inr ⟨xs, List.mem_cons_self, hfirst⟩
      · exact .inl hsep
      · exact (ih hrest).imp_right fun ⟨zs, hzs, hx⟩ => ⟨zs, List.mem_cons_of_mem xs hzs, hx⟩

namespace Expr

theorem mem_wordsOfAll {es : List Expr} {ws : List Word} (h : ws ∈ wordsOfAll es) :
    ∃ e ∈ es, ws = e.words := by
  induction es with
  | nil => cases h
  | cons e rest ih =>
    rcases List.mem_cons.1 h with rfl | hrest
    · exact ⟨e, List.mem_cons_self, rfl⟩
    · obtain ⟨e', he', hws⟩ := ih hrest
      exact ⟨e', List.mem_cons_of_mem e he', hws⟩

/-- The cells in a formed tree do not have names of functions. -/
theorem Formed.ofName?_eq_none {e : Expr} (h : e.Formed) {name : String}
    (hname : .cell name ∈ e.words) : Builtin.ofName? name = none := by
  induction h with
  | constant _ => simp [words] at hname
  | reference s h =>
    rw [words, List.mem_singleton, Word.cell.injEq] at hname
    rw [hname, h]
  | call _ ih =>
    simp only [words, List.mem_cons, List.mem_append, reduceCtorEq, List.not_mem_nil, false_or,
      or_false] at hname
    rcases mem_intercalate hname with hcomma | ⟨ws, hws, hcell⟩
    · simp at hcomma
    · obtain ⟨e, he, rfl⟩ := mem_wordsOfAll hws
      exact ih e he hcell
  | sign hsign _ ih =>
    rw [words_sign hsign, List.mem_cons] at hname
    exact ih (by simpa using hname)
  | percent _ ih =>
    rw [words_percent, List.mem_append] at hname
    exact ih (by simpa using hname)
  | between hfixity _ _ _ ihleft ihright =>
    rw [words_between hfixity, List.mem_append, List.mem_cons] at hname
    rcases hname with hleft | hop | hright
    · exact ihleft hleft
    · cases hop
    · exact ihright hright
  | group _ ih =>
    rw [words] at hname
    exact ih (by simpa using hname)

end Expr

theorem cell_mem_wordsFrom {start : Bool} {tokens : List Token} {t : Token} (ht : t ∈ tokens)
    (hkind : t.kind = .cell) : .cell t.text ∈ wordsFrom start tokens := by
  induction tokens generalizing start with
  | nil => cases ht
  | cons u rest ih =>
    rw [wordsFrom, List.mem_append]
    rcases List.mem_cons.1 ht with rfl | hrest
    · rw [Token.wordsAt_of_kind (by simp [hkind])]
      simp [Token.word, hkind]
    · exact .inr (ih hrest)

/-! ## Tokens that are read from their own texts -/

/-- The lexeme of a token. -/
def Token.lexeme (t : Token) : Lexeme :=
  ⟨t.kind, t.text.toList, t.value⟩

/-- A token that is read from its own text where a blank stands behind it. -/
def Token.StandsAlone (t : Token) : Prop :=
  ∀ rest, Lexeme.BeforeBlank rest →
    Lexeme.ofChars? (t.lexeme.chars ++ rest) = some t.lexeme

theorem Token.lexeme_token (l : Lexeme) (position : Nat) : (l.token position).lexeme = l := by
  simp [lexeme, Lexeme.token]

theorem Token.token_lexeme (t : Token) : t.lexeme.token 0 = t.unplaced := by
  simp [lexeme, Lexeme.token, unplaced]

/-- The tokens of a tree are read from their own texts. -/
theorem standsAlone_of_ofTokens {text : String} {tokens : List Token} {limit : Nat} {e : Expr}
    (htokens : tokenize text = .ok tokens) (h : Expr.ofTokens tokens limit = .ok e)
    (hformed : e.Formed) : ∀ t ∈ tokens, t.StandsAlone := by
  intro t ht rest hrest
  obtain ⟨cs, l, hl, htoken⟩ := exists_lexeme_of_tokenize htokens ht
  have hname : t.kind = .cell → Builtin.ofName? t.text = none := by
    intro hkind
    have hwords : .cell t.text ∈ e.words := by
      rw [Expr.words_of_ofTokens h]
      exact cell_mem_wordsFrom ht hkind
    exact hformed.ofName?_eq_none hwords
  rw [htoken] at hname ⊢
  rw [Token.lexeme_token]
  exact Lexeme.ofChars?_chars hl hname hrest

/-! ## Reading tokens that are set apart -/

section Reading

variable {tokens : List Token} {cs : List Char}

theorem Token.StandsAlone.not_isBlank {t : Token} (h : t.StandsAlone) :
    (∀ c ∈ t.text.toList.head?, Text.isBlank c = false) ∧
      ∀ c ∈ t.text.toList.getLast?, Text.isBlank c = false :=
  Lexeme.not_isBlank_of_ofChars? (h [] .nil)

theorem Token.StandsAlone.ne_nil {t : Token} (h : t.StandsAlone) : t.text.toList ≠ [] :=
  Lexeme.ofChars?_ne_nil (h [] .nil)

/-- Tokens that are set apart neither begin nor end with a blank. -/
theorem Spaced.not_isBlank (h : Spaced tokens cs) (htokens : ∀ t ∈ tokens, t.StandsAlone) :
    cs ≠ [] ∧ (∀ c ∈ cs.head?, Text.isBlank c = false) ∧
      ∀ c ∈ cs.getLast?, Text.isBlank c = false := by
  induction h with
  | last t =>
    have ht := htokens t List.mem_cons_self
    exact ⟨ht.ne_nil, ht.not_isBlank⟩
  | @cons t gap tokens cs _ _ _ ih =>
    have ht := htokens t List.mem_cons_self
    obtain ⟨hne, -, hlast⟩ := ih fun u hu => htokens u (List.mem_cons_of_mem t hu)
    refine ⟨by simp [ht.ne_nil], ?_, ?_⟩
    · rw [List.head?_append_of_ne_nil _ ht.ne_nil]
      exact ht.not_isBlank.1
    · rw [← List.append_assoc, List.getLast?_append_of_ne_nil _ hne]
      exact hlast

/-- Tokens that are set apart are read again. -/
theorem unplaced_onward_of_spaced (h : Spaced tokens cs)
    (htokens : ∀ t ∈ tokens, t.StandsAlone) (position : Nat) :
    (Scan.onward position cs).unplaced = ⟨tokens.map Token.unplaced, none⟩ := by
  induction h generalizing position with
  | last t =>
    have ht := htokens t List.mem_cons_self
    have hread := Scan.unplaced_onward_of_lexeme ht.not_isBlank.1
      (ht [] .nil) position
    have hnil : (Scan.onward 0 []).unplaced = ⟨[], none⟩ := by with_unfolding_all rfl
    rw [hnil, Token.token_lexeme, List.append_nil] at hread
    exact hread
  | @cons t gap tokens cs hne hgap _ ih =>
    have ht := htokens t List.mem_cons_self
    have hbefore : Lexeme.BeforeBlank (gap ++ cs) := by
      rw [Lexeme.BeforeBlank, List.head?_append_of_ne_nil _ hne]
      exact fun c hc => hgap c (List.mem_of_mem_head? hc)
    have hread := Scan.unplaced_onward_of_lexeme ht.not_isBlank.1 (ht _ hbefore) position
    have hrest : (Scan.onward 0 (gap ++ cs)).unplaced = ⟨tokens.map Token.unplaced, none⟩ := by
      rw [Scan.unplaced_onward 0 0 (Text.skipBlanks_append hgap cs)]
      exact ih (fun u hu => htokens u (List.mem_cons_of_mem t hu)) 0
    rw [hrest, Token.token_lexeme] at hread
    exact hread

end Reading

/-! ## The body of a text of tokens that are set apart -/

section Body

variable {t : Token} {tokens : List Token} {text : String} {before cs after : List Char}

theorem trimChars_of_spaced (h : Spaced tokens cs) (htokens : ∀ t ∈ tokens, t.StandsAlone)
    (hbefore : Text.AllBlank before) (hafter : Text.AllBlank after) :
    Text.skipBlanks (before ++ (cs ++ after)) = cs ++ after ∧
      Text.trimChars (before ++ (cs ++ after)) = cs := by
  obtain ⟨hne, hhead, hlast⟩ := h.not_isBlank htokens
  have hskip : Text.skipBlanks (before ++ (cs ++ after)) = cs ++ after := by
    rw [Text.skipBlanks_append hbefore, Text.skipBlanks_of_head]
    rwa [List.head?_append_of_ne_nil _ hne]
  refine ⟨hskip, ?_⟩
  rw [Text.trimChars_eq_dropEnd, hskip, Text.dropEnd_append hafter, Text.dropEnd_of_last hlast]

/-- A token whose text begins with an equals sign is that sign. -/
theorem Token.StandsAlone.eq_equals (h : t.StandsAlone) (hhead : t.text.toList.head? = some '=') :
    t.kind = .operator ∧ t.text = "=" := by
  obtain ⟨others, hothers⟩ := List.head?_eq_some_iff.1 hhead
  have hread : Lexeme.ofChars? (t.text.toList ++ []) = some t.lexeme := h [] .nil
  have hequals : Lexeme.ofChars? ('=' :: (others ++ [])) = some ⟨.operator, ['='], none⟩ := rfl
  rw [hothers, List.cons_append, hequals] at hread
  have hlexeme : (⟨.operator, ['='], none⟩ : Lexeme) = t.lexeme := Option.some.inj hread
  refine ⟨(congrArg Lexeme.kind hlexeme).symm, ?_⟩
  have hchars : ['='] = t.text.toList := congrArg Lexeme.chars hlexeme
  rw [← String.ofList_toList (s := t.text), ← hchars]

/-- No tree begins with an equals sign. -/
theorem not_equals_of_ofTokens {limit : Nat} {e : Expr}
    (h : Expr.ofTokens (t :: tokens) limit = .ok e) : ¬ (t.kind = .operator ∧ t.text = "=") := by
  rintro ⟨hkind, htext⟩
  rw [Expr.ofTokens, if_neg (by simp), Run.read_cons, Run.front?_operator hkind] at h
  simp [hkind, htext, Operator.signOfSymbol?] at h

theorem Spaced.head?_eq (h : Spaced tokens cs) (htokens : ∀ t ∈ tokens, t.StandsAlone) :
    ∃ t rest, tokens = t :: rest ∧ cs.head? = t.text.toList.head? := by
  cases h with
  | last t => exact ⟨t, [], rfl, rfl⟩
  | @cons t gap tokens cs hne hgap h =>
    have ht := htokens t List.mem_cons_self
    exact ⟨t, tokens, rfl, List.head?_append_of_ne_nil _ ht.ne_nil⟩

/-- Blanks around the tokens and an equals sign before them are dropped. -/
theorem exists_spaced_of_setApart {limit : Nat} {e : Expr} (h : SetApart tokens text)
    (htokens : ∀ t ∈ tokens, t.StandsAlone) (hread : Expr.ofTokens tokens limit = .ok e) :
    ∃ cs, Spaced tokens cs ∧
      Text.skipBlanks (formulaBody text).toList = Text.skipBlanks cs := by
  cases h with
  | @bare before cs after hbefore hafter hcs htext =>
    obtain ⟨hskip, htrim⟩ := trimChars_of_spaced hcs htokens hbefore hafter
    have hnone : ∀ others, Text.skipBlanks text.toList ≠ '=' :: others := by
      intro others heq
      obtain ⟨t, rest, rfl, hhead⟩ := hcs.head?_eq htokens
      have hequals : (cs ++ after).head? = some '=' := by
        rw [← hskip, ← htext, heq]
        rfl
      rw [List.head?_append_of_ne_nil _ (hcs.not_isBlank htokens).1, hhead] at hequals
      exact not_equals_of_ofTokens hread ((htokens t List.mem_cons_self).eq_equals hequals)
    refine ⟨cs, hcs, ?_⟩
    rw [formulaBody_of_not_mark hnone, htext, htrim]
  | @marked outside before cs after houtside hbefore hafter hcs htext =>
    obtain ⟨_, htrim⟩ := trimChars_of_spaced hcs htokens hbefore hafter
    have hmark : Text.skipBlanks text.toList = '=' :: (before ++ (cs ++ after)) := by
      rw [htext, Text.skipBlanks_append houtside]
      exact Text.skipBlanks_cons_of_not_blank (by decide)
    refine ⟨cs, hcs, ?_⟩
    rw [formulaBody_of_skipBlanks hmark, Text.skipBlanks_dropEnd, ← Text.trimChars_eq_dropEnd,
      htrim, Text.skipBlanks_of_head (hcs.not_isBlank htokens).2.1]

end Body

/-- Tokens that are set apart are the tokens of their text, but for positions. -/
theorem exists_tokenize_of_setApart {tokens : List Token} {text : String} {limit : Nat} {e : Expr}
    (h : SetApart tokens text) (htokens : ∀ t ∈ tokens, t.StandsAlone)
    (hread : Expr.ofTokens tokens limit = .ok e) :
    ∃ tokens', tokenize (formulaBody text) = .ok tokens' ∧
      tokens'.map Token.unplaced = tokens.map Token.unplaced := by
  obtain ⟨cs, hcs, hbody⟩ := exists_spaced_of_setApart h htokens hread
  refine exists_tokenize_of_unplaced ?_
  rw [Scan.ofText, Scan.unplaced_onward 0 0 hbody]
  exact unplaced_onward_of_spaced hcs htokens 0

/-- With its tokens set apart, a formula is read as the same tree. -/
theorem Expr.ofFormula_of_setApart {text : String} {limit : Nat} {e : Expr}
    (h : ofFormula text limit = .ok e) :
    ∃ tokens, tokenize (formulaBody text) = .ok tokens ∧
      ∀ text', SetApart tokens text' → ofFormula text' limit = .ok e := by
  have hformed := formed_of_ofFormula h
  rw [ofFormula] at h
  cases htokens : tokenize (formulaBody text) with
  | error err =>
    rw [htokens] at h
    cases h
  | ok tokens =>
    rw [htokens] at h
    have hread : ofTokens tokens limit = .ok e := h
    refine ⟨tokens, rfl, fun text' happart => ?_⟩
    obtain ⟨tokens', htokens', hsame⟩ := exists_tokenize_of_setApart happart
      (standsAlone_of_ofTokens htokens hread hformed) hread
    have hread' : ofTokens tokens' limit = .ok e := by
      rw [← mapError_eq_ok FormulaError.unplaced, ofTokens_unplaced hsame, mapError_eq_ok]
      exact hread
    rw [ofFormula, htokens']
    exact hread'

/-- The tokens of `log10(A1)<=2e3`. -/
def logarithmTokens : List Token :=
  [⟨.function, "log10", none, 0⟩, ⟨.symbol, "(", none, 5⟩, ⟨.cell, "A1", none, 6⟩,
    ⟨.symbol, ")", none, 8⟩, ⟨.operator, "<=", none, 9⟩,
    ⟨.constant, "2e3", some (.number 2000), 11⟩]

/-- The tree of `log10(A1)<=2e3`. -/
def logarithmTree : Expr :=
  .operator .lessEqual [.apply (.builtin .log10) [.reference "A1"], .constant (.number 2000)]

/-- A comparison whose tokens are set apart by blanks of several kinds, behind an equals sign. -/
theorem ofFormula_setApart_logarithmTokens :
    Expr.ofFormula "log10(A1)<=2e3" 1 = .ok logarithmTree ∧
      tokenize (formulaBody "log10(A1)<=2e3") = .ok logarithmTokens ∧
      SetApart logarithmTokens "\t= log10 ( A1\n)  <= 2e3 " ∧
      Expr.ofFormula "\t= log10 ( A1\n)  <= 2e3 " 1 = .ok logarithmTree := by
  have hread : Expr.ofFormula "log10(A1)<=2e3" 1 = .ok logarithmTree := by decide +kernel
  have htokens : tokenize (formulaBody "log10(A1)<=2e3") = .ok logarithmTokens := by
    decide +kernel
  have hblank : ∀ {cs : List Char}, cs.all Text.isBlank = true → Text.AllBlank cs :=
    fun h c hc => List.all_eq_true.1 h c hc
  have hspaced : Spaced logarithmTokens "log10 ( A1\n)  <= 2e3".toList := by
    have hgap : ∀ (gap : List Char) (t : Token) {tokens : List Token} {cs : List Char},
        gap ≠ [] → gap.all Text.isBlank = true → Spaced tokens cs →
          Spaced (t :: tokens) (t.text.toList ++ (gap ++ cs)) :=
      fun gap t _ _ hne hall h => .cons hne (hblank hall) h
    exact hgap [' '] ⟨.function, "log10", none, 0⟩ (by simp) rfl <|
      hgap [' '] ⟨.symbol, "(", none, 5⟩ (by simp) rfl <|
      hgap ['\n'] ⟨.cell, "A1", none, 6⟩ (by simp) rfl <|
      hgap [' ', ' '] ⟨.symbol, ")", none, 8⟩ (by simp) rfl <|
      hgap [' '] ⟨.operator, "<=", none, 9⟩ (by simp) rfl <|
      .last ⟨.constant, "2e3", some (.number 2000), 11⟩
  have hapart : SetApart logarithmTokens "\t= log10 ( A1\n)  <= 2e3 " :=
    @SetApart.marked _ _ ['\t'] [' '] _ [' '] (hblank rfl) (hblank rfl) (hblank rfl) hspaced
      (by decide)
  obtain ⟨tokens, htokens', hall⟩ := Expr.ofFormula_of_setApart hread
  rw [htokens] at htokens'
  cases htokens'
  exact ⟨hread, htokens, hapart, hall _ hapart⟩

end Spreadsheet
