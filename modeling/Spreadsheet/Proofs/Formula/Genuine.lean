import Spreadsheet.Proofs.Formula.CellNames
import Spreadsheet.Proofs.Formula.Delimited
import Spreadsheet.Proofs.Formula.Lexemes
import Spreadsheet.Proofs.Number.Unsigned

/-!
# Genuine tokens

Tokens of a text say less than tokens can say. A number in a formula has no minus sign, since that
is a token of its own, and a text has no quote in it. A cell name is spelled as one, and it is not
the name of a function, with one exception: before a letter or an anchor, `LOG10` is read as a cell
name. But there another operand begins, which cannot stand behind a cell name.

## Main results

* `literal_of_ofChars?`: the value of a constant can be written as a constant.
* `genuine_of_tokenize`: the tokens of a text are genuine.
-/

namespace Spreadsheet

/-- A value that can be written as a constant. -/
inductive Value.Literal : Value → Prop
  | number {x : Float} (h : Number.Positive x) : Literal (.number x)
  | text {s : String} (h : '"' ∉ s.toList) : Literal (.text s)
  | boolean (b : Bool) : Literal (.boolean b)

/-- The tokens can stand behind an operand: they begin with no operand. -/
def Continues (ts : List Token) : Prop :=
  ∀ t ∈ ts.head?, t.kind = .operator ∨ t.kind = .symbol

/-- Tokens as they come from a text. -/
inductive Genuine : List Token → Prop
  | nil : Genuine []
  | cons {t : Token} {rest : List Token} (hliteral : ∀ v, t.value = some v → v.Literal)
    (hname : t.kind = .cell → ∃ s : Spelling, t.text = s.text ∧
      (Continues rest → Builtin.ofName? s.text = none))
    (h : Genuine rest) : Genuine (t :: rest)

namespace Lexeme

variable {c : Char} {cs : List Char} {l : Lexeme} {v : Value}

/-! ## Constants -/

/-- A numeral begins with a digit or a point. -/
theorem head?_numeral : ∀ c ∈ (numeral cs).head?, c.isDigit = true ∨ c = '.' := by
  intro c hc
  rw [numeral] at hc
  cases hwhole : cs.takeWhile Char.isDigit with
  | nil =>
    simp only [hwhole, List.nil_append, List.isEmpty_nil, if_true, List.append_nil] at hc
    unfold fraction at hc
    split at hc
    · dsimp only at hc
      split at hc
      · cases hc
      · cases hc
        exact .inr rfl
    · cases hc
  | cons d ds =>
    simp only [hwhole, List.cons_append, List.head?_cons, Option.mem_some_iff] at hc
    rw [← hc]
    have hfront : d ∈ cs.takeWhile Char.isDigit := hwhole ▸ List.mem_cons_self
    exact .inl (List.mem_takeWhile_imp hfront)

/-- So it does not begin with a sign. -/
theorem head?_numeral_ne_minus : ∀ c ∈ (numeral cs).head?, c ≠ '-' := by
  rintro c hc rfl
  exact absurd (head?_numeral '-' hc) (by decide)

theorem literal_of_boolean? (h : boolean? cs = some l) (hv : l.value = some v) : v.Literal := by
  unfold boolean? at h
  split at h
  · cases h
    cases hv
    exact .boolean true
  · obtain ⟨chars, _, rfl⟩ := Option.map_eq_some_iff.1 h
    cases hv
    exact .boolean false

theorem literal_of_text? (h : text? cs = some l) (hv : l.value = some v) : v.Literal := by
  unfold text? at h
  split at h
  · dsimp only at h
    split at h
    · cases h
      cases hv
      refine .text ?_
      rw [String.toList_ofList]
      intro hquote
      exact absurd (List.mem_takeWhile_imp hquote) (by decide)
    · cases h
  · cases h

theorem literal_of_number? (h : number? cs = some l) (hv : l.value = some v) : v.Literal := by
  simp only [number?] at h
  split at h
  · cases h
  · obtain ⟨x, hx, rfl⟩ := Option.map_eq_some_iff.1 h
    cases hv
    exact .number (Number.positive_of_read? hx head?_numeral_ne_minus)

/-- The value of a constant can be written as a constant. -/
theorem literal_of_ofChars? (h : ofChars? cs = some l) (hv : l.value = some v) : v.Literal := by
  cases stands_of_ofChars? h with
  | symbol hl => simp [kind_of_symbol? hl] at hv
  | operator hl => simp [kind_of_operator? hl] at hv
  | function hl => simp [kind_of_function? hl] at hv
  | cell hl => simp [kind_of_cell? hl] at hv
  | boolean hl => exact literal_of_boolean? hl hv
  | text hl => exact literal_of_text? hl hv
  | number hl => exact literal_of_number? hl hv

/-! ## Cell names that are names of functions -/

theorem anchor_append_drop (cs : List Char) : anchor cs ++ cs.drop (anchor cs).length = cs := by
  unfold anchor
  split <;> rfl

/-- A cell name stands at the front of the text that it is read from. -/
theorem exists_spelling_append_of_cell? (h : cell? cs = some l) :
    ∃ (s : Spelling) (rest : List Char), l.chars = s.chars ∧ cs = s.chars ++ rest := by
  obtain ⟨s, hs⟩ := exists_spelling_of_cell? h
  refine ⟨s, cs.drop s.chars.length, hs, ?_⟩
  have hprefix : l.chars <+: cs := by
    simp only [cell?] at h
    split at h
    · cases h
    · cases h
      have hrow := anchor_append_drop ((cs.drop (anchor cs).length).dropWhile Char.isAlpha)
      rw [← List.takeWhile_append_dropWhile (p := Char.isDigit)
        (l := ((cs.drop (anchor cs).length).dropWhile Char.isAlpha).drop _)] at hrow
      have hletters := List.takeWhile_append_dropWhile (p := Char.isAlpha)
        (l := cs.drop (anchor cs).length)
      have hcol := anchor_append_drop cs
      rw [← hletters, ← hrow] at hcol
      exact ⟨_, by simpa only [List.append_assoc] using hcol⟩
  obtain ⟨rest, hrest⟩ := hprefix
  rw [← hrest, hs, List.drop_left]

/-- The name of a function has no anchor in it, in whatever case it is written. -/
theorem anchor_not_mem_of_ofName? {f : Builtin} (h : Builtin.ofName? (String.ofList cs) = some f) :
    '$' ∉ cs := by
  have hname : f.name.toList = cs.map Char.toUpper := by
    rw [Builtin.name_of_ofName? h, Text.upperAscii, String.toList_ofList, String.toList_ofList]
  intro hanchor
  have hmem : '$' ∈ f.name.toList := hname ▸ List.mem_map.2 ⟨'$', hanchor, rfl⟩
  exact absurd ((name_word f).1 '$' hmem) (by decide)

/-- A cell name with an anchor is not the name of a function. -/
theorem ofName?_eq_none_of_anchored {s : Spelling}
    (h : s.colAnchored = true ∨ s.rowAnchored = true) : Builtin.ofName? s.text = none := by
  have hanchor : '$' ∈ s.chars := by
    rcases h with hcol | hrow
    · simp [Spelling.chars, hcol, Spelling.anchor]
    · simp [Spelling.chars, hrow, Spelling.anchor]
  cases hname : Builtin.ofName? s.text with
  | none => rfl
  | some f => exact absurd hanchor (anchor_not_mem_of_ofName? hname)

/-- A cell name that is the name of a function is a word that begins with a letter. -/
theorem word_of_ofName? {s : Spelling} {f : Builtin} (h : Builtin.ofName? s.text = some f) :
    (∀ c ∈ s.chars, c.isAlphanum = true) ∧ s.chars.head?.any Char.isAlpha = true := by
  have hanchor : '$' ∉ s.chars := anchor_not_mem_of_ofName? h
  refine ⟨fun c hc => (s.isAlphanum_or_anchor hc).resolve_right fun heq => hanchor (heq ▸ hc), ?_⟩
  have hcol : s.colAnchored = false := by
    by_contra hanchored
    rw [ofName?_eq_none_of_anchored (.inl (by simpa using hanchored))] at h
    cases h
  obtain ⟨c, others, hletters⟩ := List.exists_cons_of_ne_nil s.letters_ne_nil
  have hc : c.isAlpha = true := s.isAlpha_of_mem c (by simp [hletters])
  simp [Spelling.chars, hcol, Spelling.anchor, hletters, hc]

/-- A cell name that is the name of a function is read only where a letter, a digit or an anchor
stands behind it. -/
theorem goes_on_of_ofName? {s : Spelling} {rest : List Char} {f : Builtin}
    (hname : Builtin.ofName? s.text = some f) (hfunction : function? (s.chars ++ rest) = none) :
    ∃ c others, rest = c :: others ∧ (c.isAlphanum = true ∨ c = '$') := by
  obtain ⟨hword, hhead⟩ := word_of_ofName? hname
  by_contra hnone
  have hstops : ∀ c ∈ rest.head?, c.isAlphanum = false ∧ c ≠ '$' := by
    intro c hc
    obtain ⟨others, rfl⟩ := List.head?_eq_some_iff.1 hc
    have hgoes : ¬ (c.isAlphanum = true ∨ c = '$') := fun h => hnone ⟨c, others, rfl, h⟩
    simpa using hgoes
  rw [function?_of_word hword hhead hname hstops] at hfunction
  cases hfunction

end Lexeme

/-! ## The tokens of a text -/

/-- Before a letter, a digit or an anchor, what stands behind begins an operand. -/
theorem not_continues_of_onward {position : Nat} {c : Char} {cs : List Char}
    (hc : c.isAlphanum = true ∨ c = '$') (h : (Scan.onward position (c :: cs)).fault = none) :
    ¬ Continues (Scan.onward position (c :: cs)).tokens := by
  have hblank : Text.isBlank c = false := by
    rcases hc with hword | rfl
    · exact Text.not_isBlank_of_isAlphanum hword
    · decide
  have hskip : Text.skipBlanks (c :: cs) = c :: cs :=
    List.dropWhile_cons_of_neg (by simp [hblank])
  cases hl : Lexeme.ofChars? (c :: cs) with
  | none =>
    rw [Scan.onward_of_none (by simp [hskip]) (by rw [hskip, hl])] at h
    cases h
  | some l =>
    have hmark : Lexeme.symbol? (c :: cs) = none ∧ Lexeme.operator? (c :: cs) = none :=
      Lexeme.no_mark (hc.imp_right .inl) cs
    obtain ⟨hoperator, hsymbol⟩ := Lexeme.kind_of_no_mark hl hmark
    rw [Scan.onward_of_some (hskip ▸ hl)]
    intro hcontinues
    exact (hcontinues _ rfl).elim hoperator hsymbol

theorem genuine_of_onward {position : Nat} {cs : List Char}
    (h : (Scan.onward position cs).fault = none) : Genuine (Scan.onward position cs).tokens := by
  fun_induction Scan.onward position cs with
  | case1 => exact .nil
  | case2 => cases h
  | case3 position cs start rest _ l hl token others ih =>
    refine .cons (fun v hv => Lexeme.literal_of_ofChars? hl hv) (fun hkind => ?_) (ih h)
    obtain ⟨hfunction, hcell⟩ := Lexeme.function?_eq_none_of_cell hl hkind
    obtain ⟨s, behind, hchars, hrest⟩ := Lexeme.exists_spelling_append_of_cell? hcell
    refine ⟨s, congrArg String.ofList hchars, fun hcontinues => ?_⟩
    cases hname : Builtin.ofName? s.text with
    | none => rfl
    | some f =>
      rw [hrest] at hfunction
      obtain ⟨c, others', hbehind, hc⟩ := Lexeme.goes_on_of_ofName? hname hfunction
      have hdrop : rest.drop l.chars.length = c :: others' := by
        rw [hrest, hchars, List.drop_left, hbehind]
      simp only [others, hdrop] at h hcontinues
      exact absurd hcontinues (not_continues_of_onward hc h)

/-- The tokens of a text are genuine. -/
theorem genuine_of_tokenize {text : String} {tokens : List Token}
    (h : tokenize text = .ok tokens) : Genuine tokens := by
  rw [tokenize] at h
  split at h
  · next hfault =>
    cases h
    exact genuine_of_onward hfault
  · cases h

end Spreadsheet
