import Spreadsheet.Proofs.Formula.Genuine

/-!
# Lexemes by themselves

What a lexeme is depends on what stands behind it: `<` may go on with an equals sign, digits with a
point, and a name with letters and digits. A blank ends each of them, and so a lexeme is read again
from its own characters where a blank or nothing at all stands behind them. There is one exception:
before a letter or an anchor `LOG10` is a cell name, and before a blank it is the name of a
function.

## Main results

* `ofChars?_chars`: a lexeme is read again from its characters before a blank.
* `not_isBlank_of_ofChars?`: a lexeme has no blanks at its ends.
-/

namespace Spreadsheet

/-! ## Blanks -/

namespace Text

/-- The code points of blanks. -/
def blankCodes : List Nat :=
  [9, 10, 11, 12, 13, 0x20, 0x85, 0xA0, 0x1680, 0x2000, 0x2001, 0x2002, 0x2003, 0x2004, 0x2005,
    0x2006, 0x2007, 0x2008, 0x2009, 0x200A, 0x2028, 0x2029, 0x202F, 0x205F, 0x3000]

/-- What is true of the blanks one by one is true of every blank. -/
theorem of_isBlank {p : Char → Prop} (hp : ∀ n ∈ blankCodes, p (Char.ofNat n)) {c : Char}
    (h : isBlank c = true) : p c := by
  have hcode : c.toNat ∈ blankCodes := by
    simp only [isBlank, Bool.or_eq_true, Bool.and_eq_true, decide_eq_true_eq, beq_iff_eq] at h
    simp only [blankCodes, List.mem_cons, List.not_mem_nil, or_false]
    omega
  have hc := hp c.toNat hcode
  rwa [Char.ofNat_toNat] at hc

end Text

namespace Lexeme

variable {c : Char} {cs rest : List Char} {l : Lexeme}

/-- A blank stands there, or nothing. -/
def BeforeBlank (rest : List Char) : Prop :=
  ∀ c ∈ rest.head?, Text.isBlank c = true

theorem BeforeBlank.nil : BeforeBlank [] := by
  simp [BeforeBlank]

theorem BeforeBlank.ends (h : BeforeBlank rest) : Ends rest := fun c hc =>
  Text.of_isBlank (p := fun c => Text.isWordCharacter c = false ∧ c ≠ '$' ∧ c ≠ '.')
    (by decide +kernel) (h c hc)

/-! ## Symbols and operators -/

theorem ofChars?_of_symbol? (h : symbol? cs = some l) : ofChars? (l.chars ++ rest) = some l := by
  unfold symbol? at h
  split at h
  · next c _ =>
    split at h
    · next hc =>
      cases h
      exact ofChars?_symbol (by simpa [or_assoc] using hc)
    · cases h
  · cases h

/-- A blank makes no operator longer. -/
theorem operator?_operatorChar (h : isOperatorChar c = true) (hrest : BeforeBlank rest) :
    operator? (c :: rest) = some ⟨.operator, [c], none⟩ := by
  have hnext : ∀ d others, rest = d :: others → d ≠ '=' ∧ d ≠ '>' := by
    rintro d others rfl
    have hblank := hrest d rfl
    constructor
    · rintro rfl
      exact absurd hblank (by decide)
    · rintro rfl
      exact absurd hblank (by decide)
  unfold operator?
  split
  · next heq => exact absurd rfl (hnext _ _ (List.cons.inj heq).2).1
  · next heq => exact absurd rfl (hnext _ _ (List.cons.inj heq).2).1
  · next heq => exact absurd rfl (hnext _ _ (List.cons.inj heq).2).2
  · next heq =>
    obtain ⟨rfl, _⟩ := List.cons.inj heq
    rw [if_pos h]
  · next heq => cases heq

/-- An operator is one of three pairs of characters, or a single one. -/
theorem operator?_cases (h : operator? cs = some l) :
    l = ⟨.operator, l.chars, none⟩ ∧
      (l.chars = ['<', '='] ∨ l.chars = ['>', '='] ∨ l.chars = ['<', '>'] ∨
        ∃ c, isOperatorChar c = true ∧ l.chars = [c]) := by
  unfold operator? at h
  split at h
  · cases h
    exact ⟨rfl, .inl rfl⟩
  · cases h
    exact ⟨rfl, .inr (.inl rfl)⟩
  · cases h
    exact ⟨rfl, .inr (.inr (.inl rfl))⟩
  · split at h
    · next hc =>
      cases h
      exact ⟨rfl, .inr (.inr (.inr ⟨_, hc, rfl⟩))⟩
    · cases h
  · cases h

theorem ofChars?_of_operator? (h : operator? cs = some l) (hrest : BeforeBlank rest) :
    ofChars? (l.chars ++ rest) = some l := by
  obtain ⟨hl, hchars⟩ := operator?_cases h
  rw [hl]
  dsimp only
  rcases hchars with hchars | hchars | hchars | ⟨c, hc, hchars⟩
  · rw [hchars]
    rfl
  · rw [hchars]
    rfl
  · rw [hchars]
    rfl
  · have hsymbol : symbol? (c :: rest) = none := by
      have hnone : ∀ d, d = '(' ∨ d = ')' ∨ d = ',' → isOperatorChar d = false := by
        rintro d (rfl | rfl | rfl) <;> decide
      have hne : ¬ (c = '(' ∨ c = ')' ∨ c = ',') := by
        intro hmark
        rw [hnone c hmark] at hc
        cases hc
      simpa [symbol?, or_assoc] using hne
    rw [hchars, List.singleton_append]
    simp [ofChars?, kinds, hsymbol, operator?_operatorChar hc hrest]

/-! ## Names and texts -/

/-- The name of a function is a word. -/
theorem exists_builtin_of_function? (h : function? cs = some l) :
    l = ⟨.function, l.chars, none⟩ ∧ (∀ c ∈ l.chars, c.isAlphanum = true) ∧
      l.chars.head?.any Char.isAlpha = true ∧
      ∃ f, Builtin.ofName? (String.ofList l.chars) = some f := by
  simp only [function?] at h
  split at h
  · next hword =>
    cases h
    simp only [Bool.and_eq_true] at hword
    exact ⟨rfl, fun c hc => List.mem_takeWhile_imp hc, hword.1.1,
      Option.isSome_iff_exists.1 hword.2⟩
  · cases h

theorem ofChars?_of_function? (h : function? cs = some l) (hrest : Ends rest) :
    ofChars? (l.chars ++ rest) = some l := by
  obtain ⟨hl, hword, hhead, f, hname⟩ := exists_builtin_of_function? h
  rw [ofChars?_word hword hhead hname hrest, ← hl]

theorem ofChars?_of_cell? (h : cell? cs = some l)
    (hname : Builtin.ofName? (String.ofList l.chars) = none) (hrest : Ends rest) :
    ofChars? (l.chars ++ rest) = some l := by
  obtain ⟨s, hs⟩ := exists_spelling_of_cell? h
  obtain ⟨hkind, hvalue⟩ := kind_of_cell? h
  have hl : l = ⟨.cell, s.chars, none⟩ := by
    rw [← hs, ← hkind, ← hvalue]
  rw [hs] at hname
  rw [hl, ofChars?_spelling hname hrest]

theorem ofChars?_of_boolean? (h : boolean? cs = some l) (hrest : Ends rest) :
    ofChars? (l.chars ++ rest) = some l := by
  obtain ⟨b, hfolds, hl⟩ := folds_of_boolean? h
  rw [ofChars?_of_folds hfolds hrest, ← hl]

/-- A text in quotes has no quote inside. -/
theorem exists_inner_of_text? (h : text? cs = some l) :
    ∃ inner, '"' ∉ inner ∧
      l = ⟨.constant, '"' :: (inner ++ ['"']), some (.text (String.ofList inner))⟩ := by
  unfold text? at h
  split at h
  · dsimp only at h
    split at h
    · cases h
      refine ⟨_, fun hquote => ?_, rfl⟩
      exact absurd (List.mem_takeWhile_imp hquote) (by decide)
    · cases h
  · cases h

theorem ofChars?_of_text? (h : text? cs = some l) : ofChars? (l.chars ++ rest) = some l := by
  obtain ⟨inner, hinner, rfl⟩ := exists_inner_of_text? h
  have htext : '"' :: (inner ++ ['"']) ++ rest = '"' :: (inner ++ '"' :: rest) := by simp
  rw [htext, ofChars?_text hinner]

/-! ## Numbers -/

/-- A fraction is a point with digits behind it, or nothing. -/
theorem fraction_cases (cs : List Char) :
    fraction cs = [] ∨
      ∃ fs, fs ≠ [] ∧ (∀ c ∈ fs, c.isDigit = true) ∧ fraction cs = '.' :: fs := by
  unfold fraction
  split
  · next rest =>
    dsimp only
    split
    · exact .inl rfl
    · next hne =>
      exact .inr ⟨_, by simpa using hne, fun c hc => List.mem_takeWhile_imp hc, rfl⟩
  · exact .inl rfl

theorem fraction_append (h : ∀ c ∈ rest.head?, c.isDigit = false ∧ c ≠ '.') :
    fraction (fraction cs ++ rest) = fraction cs := by
  rcases fraction_cases cs with hnil | ⟨fs, hne, hdigits, hcs⟩
  · rw [hnil]
    exact fraction_eq_nil fun c hc => (h c hc).2
  · rw [hcs]
    simp [fraction, span_of_head hdigits fun c hc => (h c hc).1, hne]

/-- An exponent is a letter, perhaps a sign, and digits, or nothing. -/
theorem exponent_cases (cs : List Char) :
    exponent cs = [] ∨
      ∃ e signs ds, (e = 'e' ∨ e = 'E') ∧ (signs = [] ∨ signs = ['+'] ∨ signs = ['-']) ∧
        ds ≠ [] ∧ (∀ c ∈ ds, c.isDigit = true) ∧ exponent cs = e :: (signs ++ ds) := by
  cases cs with
  | nil => exact .inl rfl
  | cons e rest =>
    have hsign : sign rest = [] ∨ sign rest = ['+'] ∨ sign rest = ['-'] := by
      unfold sign
      split
      · exact .inr (.inl rfl)
      · exact .inr (.inr rfl)
      · exact .inl rfl
    simp only [exponent]
    split
    · next he =>
      simp only [Bool.and_eq_true, Bool.or_eq_true, beq_iff_eq, Bool.not_eq_true',
        List.isEmpty_eq_false_iff] at he
      exact .inr ⟨e, _, _, he.1, hsign, he.2, fun c hc => List.mem_takeWhile_imp hc, rfl⟩
    · exact .inl rfl

theorem sign_digits {ds : List Char} (hne : ds ≠ []) (hdigits : ∀ c ∈ ds, c.isDigit = true) :
    sign (ds ++ rest) = [] := by
  obtain ⟨d, others, rfl⟩ := List.exists_cons_of_ne_nil hne
  have hd : d.isDigit = true := hdigits d List.mem_cons_self
  unfold sign
  split
  · next heq =>
    obtain ⟨rfl, _⟩ := List.cons.inj heq
    exact absurd hd (by decide)
  · next heq =>
    obtain ⟨rfl, _⟩ := List.cons.inj heq
    exact absurd hd (by decide)
  · rfl

theorem exponent_append (hrest : Ends rest) : exponent (exponent cs ++ rest) = exponent cs := by
  rcases exponent_cases cs with hnil | ⟨e, signs, ds, he, hsigns, hne, hdigits, hcs⟩
  · rw [hnil]
    exact exponent_eq_nil hrest.not_isAlphanum
  · have hsign : sign (signs ++ (ds ++ rest)) = signs := by
      rcases hsigns with rfl | rfl | rfl
      · rw [List.nil_append, sign_digits hne hdigits]
      · rfl
      · rfl
    have htake : (ds ++ rest).takeWhile Char.isDigit = ds :=
      (span_of_head hdigits hrest.not_isDigit).1
    rw [hcs, List.cons_append, List.append_assoc, exponent]
    simp [hsign, htake, he, hne]

/-- What goes on behind a number begins neither with a digit nor with a point. -/
theorem head?_exponent (hrest : Ends rest) :
    ∀ c ∈ (exponent cs ++ rest).head?, c.isDigit = false ∧ c ≠ '.' := by
  rcases exponent_cases cs with hnil | ⟨e, signs, ds, he, _, _, _, hcs⟩
  · rw [hnil]
    exact fun c hc => ⟨hrest.not_isDigit c hc, (hrest c hc).2.2⟩
  · rw [hcs]
    rcases he with rfl | rfl <;> simp

/-- The digits that a number begins with are read first. -/
theorem numeral_append {ds : List Char} (hdigits : ∀ c ∈ ds, c.isDigit = true)
    (hrest : ∀ c ∈ rest.head?, c.isDigit = false) :
    numeral (ds ++ rest) = ds ++ fraction rest ++
      if ds.isEmpty then [] else exponent (rest.drop (fraction rest).length) := by
  simp only [numeral, span_of_head hdigits hrest]

theorem numeral_numeral (hrest : Ends rest) : numeral (numeral cs ++ rest) = numeral cs := by
  obtain ⟨ds, behind, hdigits, hbehind, rfl⟩ : ∃ ds behind, (∀ c ∈ ds, c.isDigit = true) ∧
      (∀ c ∈ behind.head?, c.isDigit = false) ∧ cs = ds ++ behind := by
    refine ⟨_, _, fun c hc => List.mem_takeWhile_imp hc, fun c hc => ?_,
      List.takeWhile_append_dropWhile.symm⟩
    have hhead := List.head?_dropWhile_not Char.isDigit cs
    rwa [Option.mem_def.1 hc] at hhead
  rw [numeral_append hdigits hbehind]
  generalize hends : (if ds.isEmpty then [] else exponent _) = ends
  have hnext : ∀ c ∈ (ends ++ rest).head?, c.isDigit = false ∧ c ≠ '.' := by
    rw [← hends]
    split
    · exact fun c hc => ⟨hrest.not_isDigit c hc, (hrest c hc).2.2⟩
    · exact head?_exponent hrest
  have hends' : (if ds.isEmpty then [] else exponent (ends ++ rest)) = ends := by
    rw [← hends]
    split
    · rfl
    · exact exponent_append hrest
  have hpoint : ∀ c ∈ (fraction behind ++ (ends ++ rest)).head?, c.isDigit = false := by
    rcases fraction_cases behind with hnil | ⟨fs, _, _, hfraction⟩
    · rw [hnil]
      exact fun c hc => (hnext c hc).1
    · rw [hfraction]
      simp
  rw [List.append_assoc, List.append_assoc, numeral_append hdigits hpoint,
    fraction_append hnext, List.drop_left, hends', List.append_assoc]

/-- A point begins nothing but a number. -/
theorem ofChars?_point : ofChars? ('.' :: cs) = number? ('.' :: cs) := by
  have hmark : symbol? ('.' :: cs) = none ∧ operator? ('.' :: cs) = none := ⟨rfl, rfl⟩
  simp [ofChars?, kinds, hmark, function?_eq_none (c := '.') rfl,
    cell?_eq_none (c := '.') rfl (by decide), boolean?_eq_none (c := '.') rfl,
    text?_eq_none (c := '.') (by decide)]

theorem ofChars?_of_number? (h : number? cs = some l) (hrest : Ends rest) :
    ofChars? (l.chars ++ rest) = some l := by
  simp only [number?] at h
  split at h
  · cases h
  · next hne =>
    obtain ⟨x, hx, rfl⟩ := Option.map_eq_some_iff.1 h
    have hnumber : number? (numeral cs ++ rest) =
        some ⟨.constant, numeral cs, some (.number x)⟩ := by
      simp only [number?, numeral_numeral hrest, hx]
      rw [if_neg hne]
      rfl
    obtain ⟨c, others, hchars⟩ : ∃ c others, numeral cs = c :: others :=
      List.exists_cons_of_ne_nil (by simpa using hne)
    have hfirst : c.isDigit = true ∨ c = '.' := head?_numeral c (by rw [hchars]; rfl)
    have hread : ofChars? (c :: (others ++ rest)) = number? (c :: (others ++ rest)) := by
      rcases hfirst with hdigit | rfl
      · exact ofChars?_digit hdigit
      · exact ofChars?_point
    rw [← List.cons_append, ← hchars] at hread
    rw [hread, hnumber]

/-! ## All lexemes -/

/-- A lexeme is read again from its characters before a blank, unless it is a cell name that is the
name of a function. -/
theorem ofChars?_chars (h : ofChars? cs = some l)
    (hname : l.kind = .cell → Builtin.ofName? (String.ofList l.chars) = none)
    (hrest : BeforeBlank rest) : ofChars? (l.chars ++ rest) = some l := by
  cases stands_of_ofChars? h with
  | symbol hl => exact ofChars?_of_symbol? hl
  | operator hl => exact ofChars?_of_operator? hl hrest
  | function hl => exact ofChars?_of_function? hl hrest.ends
  | cell hl => exact ofChars?_of_cell? hl (hname (kind_of_cell? hl).1) hrest.ends
  | boolean hl => exact ofChars?_of_boolean? hl hrest.ends
  | text hl => exact ofChars?_of_text? hl
  | number hl => exact ofChars?_of_number? hl hrest.ends

/-! ## The ends of lexemes -/

/-- The characters of a number are no blanks. -/
theorem not_isBlank_of_mem_numeral (h : c ∈ numeral cs) : Text.isBlank c = false := by
  have hdigit : ∀ {ds : List Char}, (∀ c ∈ ds, c.isDigit = true) → c ∈ ds →
      Text.isBlank c = false := fun hdigits hc => Text.not_isBlank_of_isDigit (hdigits c hc)
  simp only [numeral, List.mem_append] at h
  rcases h with (hwhole | hfraction) | hexponent
  · exact Text.not_isBlank_of_isDigit (List.mem_takeWhile_imp hwhole)
  · rcases fraction_cases (cs.dropWhile Char.isDigit) with hnil | ⟨fs, _, hdigits, hcs⟩
    · rw [hnil] at hfraction
      cases hfraction
    · rw [hcs] at hfraction
      rcases List.mem_cons.1 hfraction with rfl | hc
      · decide
      · exact hdigit hdigits hc
  · split at hexponent
    · cases hexponent
    · rcases exponent_cases ((cs.dropWhile Char.isDigit).drop
        (fraction (cs.dropWhile Char.isDigit)).length) with
        hnil | ⟨e, signs, ds, he, hsigns, _, hdigits, hcs⟩
      · rw [hnil] at hexponent
        cases hexponent
      · rw [hcs, List.mem_cons, List.mem_append] at hexponent
        rcases hexponent with rfl | hc | hc
        · rcases he with rfl | rfl <;> decide
        · rcases hsigns with rfl | rfl | rfl
          · cases hc
          · rw [List.mem_singleton.1 hc]
            decide
          · rw [List.mem_singleton.1 hc]
            decide
        · exact hdigit hdigits hc

theorem not_isBlank_of_mem_marks (h : c ∈ marks) : Text.isBlank c = false := by
  have hmarks : marks.all (fun c => !Text.isBlank c) = true := by decide
  simpa using List.all_eq_true.1 hmarks c h

/-- Symbols and operators are made of marks. -/
theorem mem_marks_of_symbol? (h : symbol? cs = some l) : ∀ c ∈ l.chars, c ∈ marks := by
  unfold symbol? at h
  grind [marks]

theorem mem_marks_of_operator? (h : operator? cs = some l) : ∀ c ∈ l.chars, c ∈ marks := by
  obtain ⟨_, hchars⟩ := operator?_cases h
  rcases hchars with hchars | hchars | hchars | ⟨c, hc, hchars⟩
  · simp [hchars, marks]
  · simp [hchars, marks]
  · simp [hchars, marks]
  · simp only [isOperatorChar, List.contains_eq_mem, decide_eq_true_eq] at hc
    have hmark : c ∈ marks := List.mem_of_mem_drop (i := 3) hc
    simpa [hchars] using hmark

/-- A lexeme has no blanks in it, unless it is a text in quotes. -/
theorem not_isBlank_or_text (h : ofChars? cs = some l) :
    (∀ c ∈ l.chars, Text.isBlank c = false) ∨ ∃ inner, l.chars = '"' :: (inner ++ ['"']) := by
  cases stands_of_ofChars? h with
  | symbol hl => exact .inl fun c hc => not_isBlank_of_mem_marks (mem_marks_of_symbol? hl c hc)
  | operator hl => exact .inl fun c hc => not_isBlank_of_mem_marks (mem_marks_of_operator? hl c hc)
  | function hl =>
    obtain ⟨_, hword, _⟩ := exists_builtin_of_function? hl
    exact .inl fun c hc => Text.not_isBlank_of_isAlphanum (hword c hc)
  | cell hl =>
    obtain ⟨s, hs⟩ := exists_spelling_of_cell? hl
    rw [hs]
    exact .inl fun c => Spelling.not_isBlank_of_mem
  | boolean hl =>
    obtain ⟨b, hfolds, _⟩ := folds_of_boolean? hl
    exact .inl fun c hc => (not_isDigit_of_folds hfolds c hc).2.2
  | text hl =>
    obtain ⟨inner, _, hinner⟩ := exists_inner_of_text? hl
    exact .inr ⟨inner, by rw [hinner]⟩
  | number hl =>
    simp only [number?] at hl
    split at hl
    · cases hl
    · obtain ⟨x, _, rfl⟩ := Option.map_eq_some_iff.1 hl
      exact .inl fun c => not_isBlank_of_mem_numeral

/-- A lexeme neither begins nor ends with a blank. -/
theorem not_isBlank_of_ofChars? (h : ofChars? cs = some l) :
    (∀ c ∈ l.chars.head?, Text.isBlank c = false) ∧
      ∀ c ∈ l.chars.getLast?, Text.isBlank c = false := by
  rcases not_isBlank_or_text h with hall | ⟨inner, hinner⟩
  · exact ⟨fun c hc => hall c (List.mem_of_mem_head? hc),
      fun c hc => hall c (List.mem_of_mem_getLast? hc)⟩
  · have hquote : Text.isBlank '"' = false := by decide
    rw [hinner]
    constructor
    · simpa using hquote
    · rw [← List.cons_append, List.getLast?_concat]
      simpa using hquote

end Lexeme

end Spreadsheet
