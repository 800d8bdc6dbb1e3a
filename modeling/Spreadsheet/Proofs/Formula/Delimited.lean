import Spreadsheet.Formula.Lexeme
import Spreadsheet.Proofs.Grid.Names
import Spreadsheet.Proofs.Number.Plain
import Mathlib.Data.List.Forall2

/-!
# Lexemes before a delimiter

A name, a truth value or a number is read as far as its characters go on. Before a character that
continues none of them it is therefore read back as it was written, whatever stands behind that
character.

## Main results

* `ofChars?_word`, `ofChars?_spelling`, `ofChars?_of_folds`, `ofChars?_text`, `ofChars?_plain`: the
  lexemes of function names, cell names, truth values, texts in quotes and plain numbers.
-/

namespace Spreadsheet

/-- No name, truth value or number goes on in the characters. -/
def Lexeme.Ends (rest : List Char) : Prop :=
  ∀ c ∈ rest.head?, Text.isWordCharacter c = false ∧ c ≠ '$' ∧ c ≠ '.'

namespace Lexeme

variable {c : Char} {cs rest : List Char}

/-! ## Where characters of a class end -/

theorem span_of_head {p : Char → Bool} (hcs : ∀ c ∈ cs, p c = true)
    (hrest : ∀ c ∈ rest.head?, p c = false) :
    (cs ++ rest).takeWhile p = cs ∧ (cs ++ rest).dropWhile p = rest := by
  rw [List.takeWhile_append_of_pos hcs, List.dropWhile_append_of_pos hcs]
  cases rest with
  | nil => simp
  | cons c others => simp [hrest c rfl]

theorem not_isAlphanum_of_not_isWordCharacter (h : Text.isWordCharacter c = false) :
    c.isAlphanum = false := by
  simp only [Text.isWordCharacter, Bool.or_eq_false_iff] at h
  exact h.1.1

namespace Ends

theorem nil : Ends [] := by
  simp [Ends]

theorem cons (h : Text.isWordCharacter c = false ∧ c ≠ '$' ∧ c ≠ '.') : Ends (c :: rest) := by
  simpa [Ends] using h

variable (h : Ends rest)
include h

theorem not_isAlphanum : ∀ c ∈ rest.head?, c.isAlphanum = false :=
  fun c hc => not_isAlphanum_of_not_isWordCharacter (h c hc).1

theorem not_isAlpha : ∀ c ∈ rest.head?, c.isAlpha = false := by
  intro c hc
  have hnot := h.not_isAlphanum c hc
  rw [Char.isAlphanum, Bool.or_eq_false_iff] at hnot
  exact hnot.1

theorem not_isDigit : ∀ c ∈ rest.head?, c.isDigit = false := by
  intro c hc
  have hnot := h.not_isAlphanum c hc
  rw [Char.isAlphanum, Bool.or_eq_false_iff] at hnot
  exact hnot.2

end Ends

/-! ## Parentheses, commas and operators are told by their first character -/

/-- Parentheses, the comma, and the characters of operators. -/
def marks : List Char :=
  ['(', ')', ',', '+', '-', '*', '/', '^', '%', '&', ':', '=', '<', '>']

/-- Letters, digits, anchors and quotes begin neither a symbol nor an operator. -/
theorem no_mark (h : c.isAlphanum = true ∨ c = '$' ∨ c = '"') (cs : List Char) :
    symbol? (c :: cs) = none ∧ operator? (c :: cs) = none := by
  have hmarks : marks.all (fun d => !d.isAlphanum && d != '$' && d != '"') = true := by decide
  have hnot : c ∉ marks := by
    intro hc
    have hmark := List.all_eq_true.1 hmarks c hc
    simp only [Bool.and_eq_true, Bool.not_eq_true', bne_iff_ne] at hmark
    obtain ⟨⟨halphanum, hanchor⟩, hquote⟩ := hmark
    rcases h with hword | hdollar | hmark
    · rw [halphanum] at hword
      cases hword
    · exact hanchor hdollar
    · exact hquote hmark
  simp only [marks, List.mem_cons, List.not_mem_nil, or_false, not_or] at hnot
  constructor
  · simp [symbol?, hnot]
  · have hop : isOperatorChar c = false := by simp [isOperatorChar, hnot]
    unfold operator?
    split
    · next heq => exact absurd (List.cons.inj heq).1 (by simp [hnot])
    · next heq => exact absurd (List.cons.inj heq).1 (by simp [hnot])
    · next heq => exact absurd (List.cons.inj heq).1 (by simp [hnot])
    · next heq =>
      obtain ⟨rfl, _⟩ := List.cons.inj heq
      rw [hop]
      rfl
    · rfl

/-! ## Function names -/

/-- Every built-in function is found by its name. -/
theorem ofName?_name (f : Builtin) : Builtin.ofName? f.name = some f := by
  cases f <;> decide +kernel

/-- Names of functions are words that begin with a letter. -/
theorem name_word (f : Builtin) :
    (∀ c ∈ f.name.toList, c.isAlphanum = true) ∧ f.name.toList.head?.any Char.isAlpha = true := by
  rw [← List.all_eq_true]
  cases f <;> decide +kernel

/-- What does not begin with a letter is no function. -/
theorem function?_eq_none (h : c.isAlpha = false) : function? (c :: cs) = none := by
  have hhead : (((c :: cs).takeWhile Char.isAlphanum).head?.any Char.isAlpha) = false := by
    rw [List.takeWhile_cons]
    split <;> simp [h]
  simp [function?, hhead]

/-- A word that is not a name is no function. -/
theorem function?_eq_none_of_word (hcs : ∀ c ∈ cs, c.isAlphanum = true)
    (hname : Builtin.ofName? (String.ofList cs) = none)
    (hrest : ∀ c ∈ rest.head?, c.isAlphanum = false) : function? (cs ++ rest) = none := by
  simp [function?, span_of_head hcs hrest, hname]

/-- A word that is a name is a function where it ends, and where no anchor makes it a cell name. -/
theorem function?_of_word {f : Builtin} (hcs : ∀ c ∈ cs, c.isAlphanum = true)
    (hhead : cs.head?.any Char.isAlpha = true)
    (hname : Builtin.ofName? (String.ofList cs) = some f)
    (hrest : ∀ c ∈ rest.head?, c.isAlphanum = false ∧ c ≠ '$') :
    function? (cs ++ rest) = some ⟨.function, cs, none⟩ := by
  have hanchor : (rest.head? == some '$') = false := by
    cases rest with
    | nil => rfl
    | cons c others => simpa using (hrest c rfl).2
  have hspan := span_of_head hcs fun c hc => (hrest c hc).1
  simp [function?, hspan, hhead, hanchor, hname]

/-- The name of a function, in any case, is read where it ends. -/
theorem ofChars?_word {f : Builtin} (hcs : ∀ c ∈ cs, c.isAlphanum = true)
    (hhead : cs.head?.any Char.isAlpha = true)
    (hname : Builtin.ofName? (String.ofList cs) = some f) (hrest : Ends rest) :
    ofChars? (cs ++ rest) = some ⟨.function, cs, none⟩ := by
  have hfunction := function?_of_word hcs hhead hname fun c hc =>
    ⟨hrest.not_isAlphanum c hc, (hrest c hc).2.1⟩
  cases cs with
  | nil => cases hhead
  | cons c others =>
    have hmark := no_mark (.inl (hcs c List.mem_cons_self)) (others ++ rest)
    rw [List.cons_append] at hfunction ⊢
    simp [ofChars?, kinds, hmark, hfunction]

/-- The name of a function is read where it ends. -/
theorem ofChars?_name (f : Builtin) (hrest : Ends rest) :
    ofChars? (f.name.toList ++ rest) = some ⟨.function, f.name.toList, none⟩ := by
  obtain ⟨hword, hhead⟩ := name_word f
  have hname : Builtin.ofName? (String.ofList f.name.toList) = some f := by
    rw [String.ofList_toList, ofName?_name]
  exact ofChars?_word hword hhead hname hrest

/-! ## Cell names -/

theorem anchor_of_head (h : ∀ c ∈ cs.head?, c ≠ '$') : anchor cs = [] := by
  unfold anchor
  split
  · next rest => exact absurd rfl (h '$' rfl)
  · rfl

theorem anchor_append {anchored : Bool} (h : ∀ c ∈ cs.head?, c ≠ '$') :
    anchor (Spelling.anchor anchored ++ cs) = Spelling.anchor anchored := by
  cases anchored with
  | true => rfl
  | false => exact anchor_of_head h

/-- What begins neither with a letter nor with an anchor is no cell name. -/
theorem cell?_eq_none (halpha : c.isAlpha = false) (hanchor : c ≠ '$') :
    cell? (c :: cs) = none := by
  have hnone : anchor (c :: cs) = [] := anchor_of_head (by simpa using hanchor)
  simp [cell?, hnone, halpha]

theorem head?_append_of_mem {p : Char → Prop} (hne : cs ≠ []) (h : ∀ c ∈ cs, p c) :
    ∀ c ∈ (cs ++ rest).head?, p c := by
  cases cs with
  | nil => exact absurd rfl hne
  | cons d others => simpa using h d List.mem_cons_self

/-- A cell name is read part by part. -/
theorem cell?_spelling (s : Spelling) (hrest : ∀ c ∈ rest.head?, c.isDigit = false) :
    cell? (s.chars ++ rest) = some ⟨.cell, s.chars, none⟩ := by
  have hcol : anchor (s.chars ++ rest) = Spelling.anchor s.colAnchored := by
    rw [Spelling.chars, List.append_assoc, List.append_assoc]
    exact anchor_append (head?_append_of_mem s.letters_ne_nil fun c hc =>
      Text.ne_anchor_of_isAlpha (s.isAlpha_of_mem c hc))
  have hrow : anchor (Spelling.anchor s.rowAnchored ++ (s.digits ++ rest)) =
      Spelling.anchor s.rowAnchored :=
    anchor_append (head?_append_of_mem s.digits_ne_nil fun c hc =>
      Text.ne_anchor_of_isDigit (s.isDigit_of_mem c hc))
  have hletters : ∀ c ∈ (Spelling.anchor s.rowAnchored ++ (s.digits ++ rest)).head?,
      c.isAlpha = false := by
    cases s.rowAnchored with
    | true => simp [Spelling.anchor]
    | false =>
      change ∀ c ∈ (s.digits ++ rest).head?, c.isAlpha = false
      exact head?_append_of_mem s.digits_ne_nil fun c hc =>
        Text.not_isAlpha_of_isDigit (s.isDigit_of_mem c hc)
  have hafter : (s.chars ++ rest).drop (Spelling.anchor s.colAnchored).length =
      s.letters ++ (Spelling.anchor s.rowAnchored ++ (s.digits ++ rest)) := by
    simp [Spelling.chars]
  obtain ⟨htake, hdrop⟩ := span_of_head s.isAlpha_of_mem hletters
  have hdigits : (s.digits ++ rest).takeWhile Char.isDigit = s.digits :=
    (span_of_head s.isDigit_of_mem hrest).1
  simp only [cell?, hcol, hafter, htake, hdrop, hrow, List.drop_left, hdigits]
  rw [if_neg (by simp [s.letters_ne_nil, s.digits_ne_nil])]
  simp [Spelling.chars]

/-- A cell name is no function unless all of it is the name of one: an anchor in it keeps it from
being a word. -/
theorem function?_spelling {s : Spelling} (hname : Builtin.ofName? s.text = none)
    (hrest : ∀ c ∈ rest.head?, c.isAlphanum = false) : function? (s.chars ++ rest) = none := by
  have hletters : ∀ c ∈ s.letters, c.isAlphanum = true := fun c hc => by
    simp [Char.isAlphanum, s.isAlpha_of_mem c hc]
  have hdigits : ∀ c ∈ s.digits, c.isAlphanum = true := fun c hc => by
    simp [Char.isAlphanum, s.isDigit_of_mem c hc]
  cases hcol : s.colAnchored with
  | true =>
    rw [Spelling.chars, hcol]
    exact function?_eq_none rfl
  | false =>
    cases hrow : s.rowAnchored with
    | true =>
      have hanchor : ∀ c ∈ ('$' :: (s.digits ++ rest)).head?, c.isAlphanum = false := by simp
      have hchars : s.chars ++ rest = s.letters ++ '$' :: (s.digits ++ rest) := by
        simp [Spelling.chars, hcol, hrow, Spelling.anchor]
      simp [hchars, function?, span_of_head hletters hanchor]
    | false =>
      refine function?_eq_none_of_word (fun c hc => ?_) hname hrest
      simp only [Spelling.chars, hcol, hrow, Spelling.anchor, Bool.false_eq_true, if_false,
        List.nil_append, List.mem_append] at hc
      exact hc.elim (hletters c) (hdigits c)

/-- A cell name that is not the name of a function is read where it ends. -/
theorem ofChars?_spelling {s : Spelling} (hname : Builtin.ofName? s.text = none)
    (hrest : Ends rest) : ofChars? (s.chars ++ rest) = some ⟨.cell, s.chars, none⟩ := by
  obtain ⟨c, cs, hchars⟩ := List.exists_cons_of_ne_nil s.chars_ne_nil
  have hfirst := s.isAlphanum_or_anchor (hchars ▸ List.mem_cons_self : c ∈ s.chars)
  have hmark := no_mark (hfirst.imp_right .inl) (cs ++ rest)
  rw [← List.cons_append, ← hchars] at hmark
  simp [ofChars?, kinds, hmark, function?_spelling hname hrest.not_isAlphanum,
    cell?_spelling s hrest.not_isDigit]

/-! ## Truth values -/

/-- The characters stand for a word in capital letters, in any case. -/
def Folds (chars word : List Char) : Prop :=
  List.Forall₂ (fun c capital => foldsTo c capital = true) chars word

theorem folds_iff {chars word : List Char} :
    Folds chars word ↔
      chars.length = word.length ∧ (List.zipWith foldsTo chars word).all id = true := by
  rw [Folds]
  induction chars generalizing word with
  | nil => cases word <;> simp
  | cons c others ih => cases word <;> simp [ih, and_left_comm]

/-- What is read as a word stands for it. -/
theorem folds_of_word? {word chars : List Char} (h : word? word cs = some chars) :
    Folds chars word := by
  simp only [word?] at h
  split at h
  · next hword =>
    cases h
    simp only [Bool.and_eq_true, decide_eq_true_eq] at hword
    exact folds_iff.2 hword.1
  · cases h

/-- What stands for a word is read where it ends. -/
theorem word?_of_folds {word chars : List Char} (h : Folds chars word) (hrest : Ends rest) :
    word? word (chars ++ rest) = some chars := by
  obtain ⟨hlength, hfolds⟩ := folds_iff.1 h
  have htake : (chars ++ rest).take word.length = chars := by rw [← hlength, List.take_left]
  have hdrop : (chars ++ rest).drop word.length = rest := by rw [← hlength, List.drop_left]
  have hhead : rest.head?.any Text.isWordCharacter = false := by
    cases rest with
    | nil => rfl
    | cons c others => exact (hrest c rfl).1
  simp only [word?, htake, hdrop, hlength, hfolds, hhead]
  simp

/-- Only the S has a second small form. -/
theorem foldsTo_iff {capital : Char} (h : capital ≠ 'S') :
    foldsTo c capital = true ↔ c.toUpper = capital := by
  simp [foldsTo, h]

/-- What folds to a letter is no digit, no anchor and no blank. -/
theorem not_isDigit_of_foldsTo {capital : Char} (hcapital : capital.isAlpha = true)
    (h : foldsTo c capital = true) :
    c.isDigit = false ∧ c ≠ '$' ∧ Text.isBlank c = false := by
  have hletter : c.isAlpha = true ∨ c = Char.ofNat 0x17F := by
    simp only [foldsTo, Bool.or_eq_true, Bool.and_eq_true, beq_iff_eq] at h
    rcases h with hupper | ⟨_, hlong⟩
    · rw [← hupper, Text.isAlpha_toUpper] at hcapital
      exact .inl hcapital
    · exact .inr (by rw [← hlong, Char.ofNat_toNat])
  rcases hletter with halpha | rfl
  · refine ⟨?_, Text.ne_anchor_of_isAlpha halpha, Text.not_isBlank_of_isAlpha halpha⟩
    by_contra hdigit
    rw [Text.not_isAlpha_of_isDigit (by simpa using hdigit)] at halpha
    cases halpha
  · decide

/-- A truth value in capital letters. -/
def booleanChars (b : Bool) : List Char :=
  if b then ['T', 'R', 'U', 'E'] else ['F', 'A', 'L', 'S', 'E']

/-- What is read as a truth value stands for it. -/
theorem folds_of_boolean? {l : Lexeme} (h : boolean? cs = some l) :
    ∃ b, Folds l.chars (booleanChars b) ∧ l = ⟨.constant, l.chars, some (.boolean b)⟩ := by
  rw [boolean?] at h
  split at h
  · next chars htrue =>
    cases h
    exact ⟨true, folds_of_word? htrue, rfl⟩
  · obtain ⟨chars, hfalse, rfl⟩ := Option.map_eq_some_iff.1 h
    exact ⟨false, folds_of_word? hfalse, rfl⟩

/-- The characters of a truth value are no digits, no anchors and no blanks. -/
theorem not_isDigit_of_folds {b : Bool} (h : Folds cs (booleanChars b)) :
    ∀ c ∈ cs, c.isDigit = false ∧ c ≠ '$' ∧ Text.isBlank c = false := by
  have hletters : ∀ capital ∈ booleanChars b, capital.isAlpha = true := by
    rw [← List.all_eq_true]
    cases b <;> decide
  rw [Folds] at h
  generalize booleanChars b = word at h hletters
  induction h with
  | nil => simp
  | cons hfirst _ ih =>
    rw [List.forall_mem_cons] at hletters ⊢
    exact ⟨not_isDigit_of_foldsTo hletters.1 hfirst, ih hletters.2⟩

/-- Without a digit there is no cell name. -/
theorem cell?_eq_none_of_not_digit (hcs : ∀ c ∈ cs, c.isDigit = false ∧ c ≠ '$')
    (hrest : Ends rest) : cell? (cs ++ rest) = none := by
  have hall : ∀ c ∈ (cs ++ rest).head?, c ≠ '$' := by
    cases cs with
    | nil => exact fun c hc => (hrest c hc).2.1
    | cons d others => simpa using (hcs d List.mem_cons_self).2
  -- What stands behind the letters begins inside the characters or behind them.
  have hbehind : ∀ c ∈ ((cs ++ rest).dropWhile Char.isAlpha).head?,
      c.isDigit = false ∧ c ≠ '$' := by
    intro c hc
    rw [List.dropWhile_append] at hc
    split at hc
    · have hend : rest.dropWhile Char.isAlpha = rest :=
        (span_of_head (List.forall_mem_nil _) hrest.not_isAlpha).2
      rw [hend] at hc
      exact ⟨hrest.not_isDigit c hc, (hrest c hc).2.1⟩
    · next hne =>
      rw [List.head?_append_of_ne_nil _ (by simpa using hne)] at hc
      exact hcs c ((List.dropWhile_suffix _).subset (List.mem_of_mem_head? hc))
  have hcol : anchor (cs ++ rest) = [] := anchor_of_head hall
  have hrow : anchor ((cs ++ rest).dropWhile Char.isAlpha) = [] :=
    anchor_of_head fun c hc => (hbehind c hc).2
  have hdigits : ((cs ++ rest).dropWhile Char.isAlpha).takeWhile Char.isDigit = [] :=
    (span_of_head (List.forall_mem_nil _) fun c hc => (hbehind c hc).1).1
  simp [cell?, hcol, hrow, hdigits]

/-- A truth value begins with the first two letters of its word. -/
theorem begins_of_folds {b : Bool} (h : Folds cs (booleanChars b)) :
    ∃ c d others, cs = c :: d :: others ∧ c.isAlpha = true ∧ d.isAlpha = true ∧
      [c.toUpper, d.toUpper] = (booleanChars b).take 2 := by
  obtain ⟨c, d, others, rfl, hfirst⟩ : ∃ c d others, cs = c :: d :: others ∧
      [c.toUpper, d.toUpper] = (booleanChars b).take 2 := by
    cases b with
    | true =>
      obtain _ | ⟨hc, _ | ⟨hd, _⟩⟩ := h
      rw [foldsTo_iff (by decide)] at hc hd
      exact ⟨_, _, _, rfl, by rw [hc, hd]; rfl⟩
    | false =>
      obtain _ | ⟨hc, _ | ⟨hd, _⟩⟩ := h
      rw [foldsTo_iff (by decide)] at hc hd
      exact ⟨_, _, _, rfl, by rw [hc, hd]; rfl⟩
  have hletters : ∀ c ∈ (booleanChars b).take 2, c.isAlpha = true := by
    rw [← List.all_eq_true]
    cases b <;> decide
  have hword : c.isAlpha = true ∧ d.isAlpha = true := by
    rw [← hfirst] at hletters
    simpa [Text.isAlpha_toUpper] using hletters
  exact ⟨c, d, others, rfl, hword.1, hword.2, hfirst⟩

/-- No function has a name that begins like a truth value. -/
theorem take_name_ne (f : Builtin) (b : Bool) :
    f.name.toList.take 2 ≠ (booleanChars b).take 2 := by
  cases b <;> cases f <;> decide +kernel

/-- So a truth value is no function. -/
theorem function?_eq_none_of_folds {b : Bool} (h : Folds cs (booleanChars b)) :
    function? (cs ++ rest) = none := by
  obtain ⟨c, d, others, rfl, hc, hd, hfirst⟩ := begins_of_folds h
  obtain ⟨tail, htail⟩ : ∃ tail,
      (c :: d :: others ++ rest).takeWhile Char.isAlphanum = c :: d :: tail := by
    simp [Char.isAlphanum, hc, hd]
  have hname : Builtin.ofName? (String.ofList (c :: d :: tail)) = none := by
    cases hname : Builtin.ofName? (String.ofList (c :: d :: tail)) with
    | none => rfl
    | some f =>
      have hchars : f.name.toList = (c :: d :: tail).map Char.toUpper := by
        rw [Builtin.name_of_ofName? hname, Text.upperAscii, String.toList_ofList,
          String.toList_ofList]
      exact absurd (by rw [hchars, ← hfirst]; rfl) (take_name_ne f b)
  simp only [function?, htail, hname]
  simp

theorem boolean?_of_folds {b : Bool} (h : Folds cs (booleanChars b)) (hrest : Ends rest) :
    boolean? (cs ++ rest) = some ⟨.constant, cs, some (.boolean b)⟩ := by
  cases b with
  | true =>
    have hword : word? ['T', 'R', 'U', 'E'] (cs ++ rest) = some cs := word?_of_folds h hrest
    rw [boolean?, hword]
  | false =>
    have hword : word? ['F', 'A', 'L', 'S', 'E'] (cs ++ rest) = some cs := word?_of_folds h hrest
    have hother : word? ['T', 'R', 'U', 'E'] (cs ++ rest) = none := by
      obtain _ | ⟨hc, _⟩ := h
      rw [foldsTo_iff (by decide)] at hc
      simp [word?, foldsTo, hc]
    rw [boolean?, hother, hword]
    rfl

/-- A truth value, in any case, is read where it ends. -/
theorem ofChars?_of_folds {b : Bool} (h : Folds cs (booleanChars b)) (hrest : Ends rest) :
    ofChars? (cs ++ rest) = some ⟨.constant, cs, some (.boolean b)⟩ := by
  have hcell : cell? (cs ++ rest) = none := cell?_eq_none_of_not_digit
    (fun c hc => ⟨(not_isDigit_of_folds h c hc).1, (not_isDigit_of_folds h c hc).2.1⟩) hrest
  have hmark : symbol? (cs ++ rest) = none ∧ operator? (cs ++ rest) = none := by
    obtain ⟨c, d, others, rfl, hc, -⟩ := begins_of_folds h
    exact no_mark (.inl (by simp [Char.isAlphanum, hc])) _
  simp [ofChars?, kinds, hmark, function?_eq_none_of_folds h, hcell, boolean?_of_folds h hrest]

/-- A truth value in capital letters is read where it ends. -/
theorem ofChars?_boolean (b : Bool) (hrest : Ends rest) :
    ofChars? (booleanChars b ++ rest) =
      some ⟨.constant, booleanChars b, some (.boolean b)⟩ := by
  refine ofChars?_of_folds ?_ hrest
  rw [folds_iff]
  cases b <;> decide

/-! ## Texts and numbers -/

/-- A truth value begins with a letter. -/
theorem boolean?_eq_none (h : c.isAlpha = false) : boolean? (c :: cs) = none := by
  have hnot : ∀ capital : Char, capital.isAlpha = true → c.toUpper ≠ capital := by
    rintro capital halpha rfl
    rw [Text.isAlpha_toUpper, h] at halpha
    cases halpha
  have htrue : foldsTo c 'T' = false := by simp [foldsTo, hnot 'T' rfl]
  have hfalse : foldsTo c 'F' = false := by simp [foldsTo, hnot 'F' rfl]
  simp [boolean?, word?, htrue, hfalse]

theorem text?_eq_none (h : c ≠ '"') : text? (c :: cs) = none := by
  unfold text?
  split
  · next rest heq => exact absurd (List.cons.inj heq).1 h
  · rfl

/-- A text in quotes is read up to the next quote. -/
theorem ofChars?_text {inner : List Char} (h : '"' ∉ inner) :
    ofChars? ('"' :: (inner ++ '"' :: rest)) =
      some ⟨.constant, '"' :: (inner ++ ['"']), some (.text (String.ofList inner))⟩ := by
  have hinner : ∀ c ∈ inner, (c != '"') = true := by
    intro c hc
    simpa using fun heq : c = '"' => h (heq ▸ hc)
  have htake : (inner ++ '"' :: rest).takeWhile (· != '"') = inner :=
    (span_of_head hinner (by simp)).1
  have htext : text? ('"' :: (inner ++ '"' :: rest)) =
      some ⟨.constant, '"' :: (inner ++ ['"']), some (.text (String.ofList inner))⟩ := by
    simp [text?, htake]
  have hmark := no_mark (c := '"') (.inr (.inr rfl)) (inner ++ '"' :: rest)
  simp [ofChars?, kinds, hmark, function?_eq_none (c := '"') rfl,
    cell?_eq_none (c := '"') rfl (by decide), boolean?_eq_none (c := '"') rfl, htext]

theorem fraction_eq_nil (h : ∀ c ∈ cs.head?, c ≠ '.') : fraction cs = [] := by
  unfold fraction
  split
  · next rest => exact absurd rfl (h '.' rfl)
  · rfl

theorem exponent_eq_nil (h : ∀ c ∈ cs.head?, c.isAlphanum = false) : exponent cs = [] := by
  cases cs with
  | nil => rfl
  | cons c others =>
    have hletters : c ≠ 'e' ∧ c ≠ 'E' := by
      constructor <;> (rintro rfl; exact absurd (h _ rfl) (by decide))
    simp [exponent, hletters]

/-- A plain number is read where it ends. -/
theorem numeral_plain (h : Number.Plain cs) (hrest : Ends rest) : numeral (cs ++ rest) = cs := by
  have hexponent : exponent rest = [] := exponent_eq_nil hrest.not_isAlphanum
  cases h with
  | whole hne hdigits =>
    have hfraction : fraction rest = [] := fraction_eq_nil fun c hc => (hrest c hc).2.2
    simp [numeral, span_of_head hdigits hrest.not_isDigit, hfraction, hexponent]
  | @point ds fs hne hdigits hne' hfraction =>
    have hpoint : fraction ('.' :: (fs ++ rest)) = '.' :: fs := by
      simp [fraction, span_of_head hfraction hrest.not_isDigit, hne']
    have hhead : ∀ c ∈ ('.' :: (fs ++ rest)).head?, c.isDigit = false := by simp
    rw [List.append_assoc, List.cons_append]
    simp [numeral, span_of_head hdigits hhead, hpoint, hexponent]

theorem exists_cons_of_plain (h : Number.Plain cs) : ∃ c ds, cs = c :: ds ∧ c.isDigit = true := by
  cases h with
  | whole hne hdigits =>
    obtain ⟨c, ds, rfl⟩ := List.exists_cons_of_ne_nil hne
    exact ⟨c, ds, rfl, hdigits c List.mem_cons_self⟩
  | @point ds fs hne hdigits hne' hfraction =>
    obtain ⟨c, ds, rfl⟩ := List.exists_cons_of_ne_nil hne
    exact ⟨c, ds ++ '.' :: fs, rfl, hdigits c List.mem_cons_self⟩

/-- A digit begins nothing but a number. -/
theorem ofChars?_digit (h : c.isDigit = true) : ofChars? (c :: cs) = number? (c :: cs) := by
  have hne : ∀ d : Char, d.isDigit = false → c ≠ d := by
    rintro d hd rfl
    rw [hd] at h
    cases h
  have halpha : c.isAlpha = false := Text.not_isAlpha_of_isDigit h
  have hword : c.isAlphanum = true := by simp [Char.isAlphanum, h]
  simp [ofChars?, kinds, no_mark (.inl hword), function?_eq_none halpha,
    cell?_eq_none halpha (hne '$' rfl), boolean?_eq_none halpha, text?_eq_none (hne '"' rfl)]

/-- A plain number is read where it ends. -/
theorem ofChars?_plain {x : Float} (h : Number.Plain cs) (hread : Number.read? cs = some x)
    (hrest : Ends rest) :
    ofChars? (cs ++ rest) = some ⟨.constant, cs, some (.number x)⟩ := by
  obtain ⟨c, ds, hcons, hdigit⟩ := exists_cons_of_plain h
  have hnumber : number? (cs ++ rest) = some ⟨.constant, cs, some (.number x)⟩ := by
    simp only [number?, numeral_plain h hrest, hread]
    simp [hcons]
  have hdigits : ofChars? (c :: (ds ++ rest)) = number? (c :: (ds ++ rest)) := ofChars?_digit hdigit
  rw [← List.cons_append, ← hcons] at hdigits
  rw [hdigits, hnumber]

/-! ## Symbols and operators -/

/-- A parenthesis or a comma is read whatever stands behind it. -/
theorem ofChars?_symbol (h : c = '(' ∨ c = ')' ∨ c = ',') :
    ofChars? (c :: cs) = some ⟨.symbol, [c], none⟩ := by
  rcases h with rfl | rfl | rfl <;> rfl

/-- An operator is read where a blank stands behind it. -/
theorem ofChars?_operator (op : Operator) :
    ofChars? (op.sourceText.toList ++ ' ' :: cs) =
      some ⟨.operator, op.sourceText.toList, none⟩ := by
  cases op <;> rfl

/-- Signs and the percent sign are read whatever stands behind them. -/
theorem ofChars?_mark {op : Operator} (h : op.fixity ≠ .between) :
    ofChars? (op.sourceText.toList ++ cs) = some ⟨.operator, op.sourceText.toList, none⟩ := by
  cases op with
  | identity => rfl
  | negate => rfl
  | percent => rfl
  | _ => exact absurd rfl h

end Lexeme

end Spreadsheet
