import Spreadsheet.Proofs.Formula.Delimited
import Spreadsheet.Proofs.Formula.Lexemes
import Spreadsheet.Proofs.Formula.Positions

/-!
# Round brackets for square ones

The delimited text of a tree has its operators in square brackets, which formulas do not know. With
round brackets in their place it can be read as a formula. Brackets in quotes are left as they are.
What such a text is read as is said piece by piece, since positions do not matter: each piece puts
its tokens before those of the rest.

## Main results

* `rounded_of_lexeme`: a piece that is a lexeme puts its token before the others.
* `rounded_mark`, `rounded_sign`, `rounded_between`: brackets, commas and operators.
-/

namespace Spreadsheet

/-- A round bracket for a square one. -/
def roundChar (c : Char) : Char :=
  if c = '[' then '(' else if c = ']' then ')' else c

/-- Characters with round brackets for square ones outside quotes; the flag says whether they begin
inside quotes. -/
def roundFrom : Bool → List Char → List Char
  | _, [] => []
  | quoted, c :: rest =>
    (if quoted then c else roundChar c) :: roundFrom (quoted != (c == '"')) rest

/-- A text with round brackets for square ones outside quotes. -/
def roundBrackets (text : String) : String :=
  String.ofList (roundFrom false text.toList)

variable {c : Char} {cs rest : List Char} {op : Operator}

/-! ## Characters that stay -/

/-- No character is a quote or a square bracket. -/
def Unquoted (cs : List Char) : Prop :=
  ∀ c ∈ cs, c ≠ '"' ∧ c ≠ '[' ∧ c ≠ ']'

theorem roundFrom_append (h : Unquoted cs) (rest : List Char) :
    roundFrom false (cs ++ rest) = cs ++ roundFrom false rest := by
  induction cs with
  | nil => rfl
  | cons c others ih =>
    obtain ⟨hquote, hopen, hclose⟩ := h c List.mem_cons_self
    have hothers : Unquoted others := fun d hd => h d (List.mem_cons_of_mem c hd)
    have hflag : (false != (c == '"')) = false := by simpa using hquote
    rw [List.cons_append, roundFrom, hflag, ih hothers]
    simp [roundChar, hopen, hclose]

/-- Inside quotes brackets stay as they are. -/
theorem roundFrom_quoted (h : '"' ∉ cs) (rest : List Char) :
    roundFrom false ('"' :: (cs ++ '"' :: rest)) = '"' :: (cs ++ '"' :: roundFrom false rest) := by
  have hinside : roundFrom true (cs ++ '"' :: rest) = cs ++ '"' :: roundFrom false rest := by
    induction cs with
    | nil => rfl
    | cons c others ih =>
      have hquote : c ≠ '"' := fun heq => h (heq ▸ List.mem_cons_self)
      have hflag : (true != (c == '"')) = true := by simpa using hquote
      rw [List.cons_append, roundFrom, hflag, ih fun hmem => h (List.mem_cons_of_mem c hmem)]
      rfl
  exact congrArg ('"' :: ·) hinside

/-! ## Reading piece by piece -/

namespace Scan

/-- A scan with tokens put before it. -/
def prepend (ts : List Token) (s : Scan) : Scan :=
  { s with tokens := ts ++ s.tokens }

theorem prepend_append (ts us : List Token) (s : Scan) :
    prepend (ts ++ us) s = prepend ts (prepend us s) := by
  simp [prepend]

/-- What characters are read as with round brackets, without the positions of tokens. -/
def rounded (cs : List Char) : Scan :=
  (onward 0 (roundFrom false cs)).unplaced

theorem rounded_nil : rounded [] = ⟨[], none⟩ := by
  with_unfolding_all rfl

/-- A blank between two pieces shows in positions only. -/
theorem rounded_blank (cs : List Char) : rounded (' ' :: cs) = rounded cs :=
  unplaced_onward 0 0 rfl

/-- A lexeme that is read in front of a text puts its token before those of the text. -/
theorem unplaced_onward_of_lexeme {l : Lexeme}
    (hblank : ∀ c ∈ l.chars.head?, Text.isBlank c = false)
    (hl : Lexeme.ofChars? (l.chars ++ rest) = some l) (position : Nat) :
    (onward position (l.chars ++ rest)).unplaced =
      prepend [l.token 0] (onward 0 rest).unplaced := by
  have hskip : Text.skipBlanks (l.chars ++ rest) = l.chars ++ rest := by
    obtain ⟨c, others, hchars⟩ := List.exists_cons_of_ne_nil (Lexeme.ofChars?_ne_nil hl)
    rw [hchars] at hblank ⊢
    exact List.dropWhile_cons_of_neg (by simp [hblank c rfl])
  rw [onward_of_some (hskip.symm ▸ hl), hskip, List.drop_left]
  have hrest : ∀ next, (onward next rest).unplaced = (onward 0 rest).unplaced :=
    fun next => unplaced_onward 0 next rfl
  rw [prepend, ← hrest]
  rfl

/-- A piece that is a lexeme puts its token before the others. -/
theorem rounded_of_lexeme {l : Lexeme}
    (hround : roundFrom false cs = l.chars ++ roundFrom false rest)
    (hblank : ∀ c ∈ l.chars.head?, Text.isBlank c = false)
    (hl : Lexeme.ofChars? (l.chars ++ roundFrom false rest) = some l) :
    rounded cs = prepend [l.token 0] (rounded rest) := by
  rw [rounded, hround, unplaced_onward_of_lexeme hblank hl, rounded]

/-! ## Brackets, commas and operators -/

/-- A parenthesis or a comma, wherever it stands. -/
def mark (c : Char) : Token :=
  ⟨.symbol, String.ofList [c], none, 0⟩

/-- An operator token, wherever it stands. -/
def sign (op : Operator) : Token :=
  ⟨.operator, op.sourceText, none, 0⟩

theorem opens_mark : (mark '(').opens = true := rfl

theorem closes_mark : (mark ')').closes = true := rfl

theorem separates_mark : (mark ',').separates = true := rfl

/-- A bracket or a comma puts its token before the others. -/
theorem rounded_mark {d : Char} (hc : c ≠ '"') (hd : roundChar c = d)
    (hmark : d = '(' ∨ d = ')' ∨ d = ',') (cs : List Char) :
    rounded (c :: cs) = prepend [mark d] (rounded cs) := by
  have hflag : (false != (c == '"')) = false := by simpa using hc
  have hround : roundFrom false (c :: cs) = [d] ++ roundFrom false cs := by
    rw [roundFrom, hflag, hd]
    rfl
  refine rounded_of_lexeme (l := ⟨.symbol, [d], none⟩) hround ?_ (Lexeme.ofChars?_symbol hmark)
  rcases hmark with rfl | rfl | rfl <;> simp [Text.isBlank]

theorem rounded_open (cs : List Char) : rounded ('[' :: cs) = prepend [mark '('] (rounded cs) :=
  rounded_mark (by decide) rfl (.inl rfl) cs

theorem rounded_close (cs : List Char) : rounded (']' :: cs) = prepend [mark ')'] (rounded cs) :=
  rounded_mark (by decide) rfl (.inr (.inl rfl)) cs

theorem unquoted_sourceText (op : Operator) : Unquoted op.sourceText.toList := by
  have hall : op.sourceText.toList.all (fun c => c != '"' && c != '[' && c != ']') = true := by
    cases op <;> decide
  intro c hc
  simpa [and_assoc] using List.all_eq_true.1 hall c hc

theorem not_isBlank_sourceText (op : Operator) :
    ∀ c ∈ op.sourceText.toList.head?, Text.isBlank c = false := by
  cases op <;> simp [Operator.sourceText, Operator.symbol, Text.isBlank]

/-- A sign or a percent sign puts its token before the others. -/
theorem rounded_sign (h : op.fixity ≠ .between) (cs : List Char) :
    rounded (op.sourceText.toList ++ cs) = prepend [sign op] (rounded cs) := by
  have hread := rounded_of_lexeme (l := ⟨.operator, op.sourceText.toList, none⟩)
    (roundFrom_append (unquoted_sourceText op) cs) (not_isBlank_sourceText op)
    (Lexeme.ofChars?_mark h)
  simpa [Lexeme.token, sign] using hread

/-- So does an operator between blanks. -/
theorem rounded_between (op : Operator) (cs : List Char) :
    rounded (' ' :: (op.sourceText.toList ++ ' ' :: cs)) = prepend [sign op] (rounded cs) := by
  have hread := rounded_of_lexeme (l := ⟨.operator, op.sourceText.toList, none⟩)
    (roundFrom_append (unquoted_sourceText op) (' ' :: cs)) (not_isBlank_sourceText op)
    (Lexeme.ofChars?_operator op)
  rw [rounded_blank, ← rounded_blank cs]
  simpa [Lexeme.token, sign] using hread

end Scan

/-! ## Operands -/

/-- Characters that are read as tokens wherever an operand may end behind them. -/
def Reads (cs : List Char) (ts : List Token) : Prop :=
  ∀ rest, Lexeme.Ends (roundFrom false rest) →
    Scan.rounded (cs ++ rest) = Scan.prepend ts (Scan.rounded rest)

/-- Behind brackets, blanks, commas and percent signs no operand goes on. -/
theorem ends_roundFrom (h : c = ' ' ∨ c = '(' ∨ c = ')' ∨ c = ']' ∨ c = ',' ∨ c = '%') :
    Lexeme.Ends (roundFrom false (c :: rest)) := by
  rcases h with rfl | rfl | rfl | rfl | rfl | rfl <;> exact .cons (by decide +kernel)

/-- An operand that is a lexeme of characters that stay is read as its token. -/
theorem reads_of_lexeme {l : Lexeme} (hchars : Unquoted l.chars)
    (hblank : ∀ c ∈ l.chars.head?, Text.isBlank c = false)
    (hl : ∀ rest, Lexeme.Ends rest → Lexeme.ofChars? (l.chars ++ rest) = some l) :
    Reads l.chars [l.token 0] :=
  fun rest hrest =>
    Scan.rounded_of_lexeme (roundFrom_append hchars rest) hblank (hl _ hrest)

end Spreadsheet
