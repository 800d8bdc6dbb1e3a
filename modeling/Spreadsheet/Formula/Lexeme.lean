import Spreadsheet.Formula.Token
import Spreadsheet.Text.WordCharacter

/-!
# Lexemes

What can stand at one place in a formula text. The kinds of tokens are tried in a fixed order:
parentheses and commas, operators, function names, cell names, truth values, texts in quotes,
numbers. The first kind that fits gives the lexeme.

## Main results

* `stands_of_ofChars?`: a lexeme is of one of the seven kinds.
* `ofChars?_ne_nil`: a lexeme has at least one character, so reading a text ends.
-/

namespace Spreadsheet

/-- What stands at a place in the text: the kind of the token, its characters, and its value. -/
structure Lexeme where
  kind : TokenKind
  chars : List Char
  value : Option Value := none

namespace Lexeme

/-! ## The kinds of tokens -/

/-- A parenthesis or a comma. -/
def symbol? : List Char → Option Lexeme
  | c :: _ => if c == '(' || c == ')' || c == ',' then some ⟨.symbol, [c], none⟩ else none
  | [] => none

/-- Whether a character is an operator by itself. -/
def isOperatorChar (c : Char) : Bool :=
  ['+', '-', '*', '/', '^', '%', '&', ':', '=', '<', '>'].contains c

/-- An operator; of two that fit the longer one. -/
def operator? : List Char → Option Lexeme
  | '<' :: '=' :: _ => some ⟨.operator, ['<', '='], none⟩
  | '>' :: '=' :: _ => some ⟨.operator, ['>', '='], none⟩
  | '<' :: '>' :: _ => some ⟨.operator, ['<', '>'], none⟩
  | c :: _ => if isOperatorChar c then some ⟨.operator, [c], none⟩ else none
  | [] => none

/-- The name of a function: a whole word of letters and digits. A `$` behind it makes it a cell
name. -/
def function? (cs : List Char) : Option Lexeme :=
  let word := cs.takeWhile Char.isAlphanum
  let anchored := (cs.dropWhile Char.isAlphanum).head? == some '$'
  if (word.head?.any Char.isAlpha) && !anchored && (Builtin.ofName? (String.ofList word)).isSome
  then some ⟨.function, word, none⟩
  else none

/-- An anchor, if one stands at the front. -/
def anchor : List Char → List Char
  | '$' :: _ => ['$']
  | _ => []

/-- A cell name: letters and digits, each with an optional anchor before it. -/
def cell? (cs : List Char) : Option Lexeme :=
  let colAnchor := anchor cs
  let cs := cs.drop colAnchor.length
  let letters := cs.takeWhile Char.isAlpha
  let cs := cs.dropWhile Char.isAlpha
  let rowAnchor := anchor cs
  let digits := (cs.drop rowAnchor.length).takeWhile Char.isDigit
  if letters.isEmpty || digits.isEmpty then none
  else some ⟨.cell, colAnchor ++ letters ++ rowAnchor ++ digits, none⟩

/-- Whether a character stands for a capital letter of a truth value, in any case. The long s is a
small form of S. -/
def foldsTo (c capital : Char) : Bool :=
  c.toUpper == capital || (capital == 'S' && c.toNat == 0x17F)

/-- A given word in any case, with no word character behind it. -/
def word? (word : List Char) (cs : List Char) : Option (List Char) :=
  let chars := cs.take word.length
  if chars.length = word.length && (List.zipWith foldsTo chars word).all id
      && !(cs.drop word.length).head?.any Text.isWordCharacter
  then some chars
  else none

/-- A truth value. -/
def boolean? (cs : List Char) : Option Lexeme :=
  match word? ['T', 'R', 'U', 'E'] cs with
  | some chars => some ⟨.constant, chars, some (.boolean true)⟩
  | none =>
    (word? ['F', 'A', 'L', 'S', 'E'] cs).map fun chars =>
      ⟨.constant, chars, some (.boolean false)⟩

/-- A text between quotes; it ends at the next quote. -/
def text? : List Char → Option Lexeme
  | '"' :: rest =>
    let inner := rest.takeWhile (· != '"')
    if inner.length < rest.length then
      some ⟨.constant, '"' :: (inner ++ ['"']), some (.text (String.ofList inner))⟩
    else none
  | _ => none

/-- A point and the digits behind it; nothing without digits. -/
def fraction : List Char → List Char
  | '.' :: rest =>
    let digits := rest.takeWhile Char.isDigit
    if digits.isEmpty then [] else '.' :: digits
  | _ => []

/-- A sign, if one stands at the front. -/
def sign : List Char → List Char
  | '+' :: _ => ['+']
  | '-' :: _ => ['-']
  | _ => []

/-- An exponent: a letter `e`, an optional sign, and digits; nothing without digits. -/
def exponent : List Char → List Char
  | e :: rest =>
    let sign := sign rest
    let digits := (rest.drop sign.length).takeWhile Char.isDigit
    if (e == 'e' || e == 'E') && !digits.isEmpty then e :: (sign ++ digits) else []
  | [] => []

/-- The characters of a number: digits, a fraction, or both; an exponent only behind digits that
begin the number. -/
def numeral (cs : List Char) : List Char :=
  let whole := cs.takeWhile Char.isDigit
  let rest := cs.dropWhile Char.isDigit
  let fraction := fraction rest
  let exponent := if whole.isEmpty then [] else exponent (rest.drop fraction.length)
  whole ++ fraction ++ exponent

/-- A number. -/
def number? (cs : List Char) : Option Lexeme :=
  let chars := numeral cs
  if chars.isEmpty then none
  else (Number.read? chars).map fun x => ⟨.constant, chars, some (.number x)⟩

/-- The kinds of tokens, in the order in which they are tried. -/
def kinds : List (List Char → Option Lexeme) :=
  [symbol?, operator?, function?, cell?, boolean?, text?, number?]

/-- The lexeme at the front of a text that does not begin with a blank. -/
def ofChars? (cs : List Char) : Option Lexeme :=
  kinds.findSome? (· cs)

/-! ## Every lexeme has a character -/

theorem symbol?_ne_nil {cs : List Char} {l : Lexeme} (h : symbol? cs = some l) :
    l.chars ≠ [] := by
  unfold symbol? at h
  grind

theorem operator?_ne_nil {cs : List Char} {l : Lexeme} (h : operator? cs = some l) :
    l.chars ≠ [] := by
  unfold operator? at h
  grind

theorem function?_ne_nil {cs : List Char} {l : Lexeme} (h : function? cs = some l) :
    l.chars ≠ [] := by
  unfold function? at h
  grind

theorem cell?_ne_nil {cs : List Char} {l : Lexeme} (h : cell? cs = some l) : l.chars ≠ [] := by
  simp only [cell?] at h
  split at h
  · cases h
  · next hne =>
    cases h
    intro hnil
    rw [List.append_eq_nil_iff, List.append_eq_nil_iff, List.append_eq_nil_iff] at hnil
    exact hne (by rw [hnil.1.1.2]; rfl)

theorem word?_ne_nil {w cs chars : List Char} (hw : w ≠ []) (h : word? w cs = some chars) :
    chars ≠ [] := by
  simp only [word?] at h
  split at h
  · next hc =>
    cases h
    simp only [Bool.and_eq_true, decide_eq_true_eq] at hc
    have := List.length_pos_iff.2 hw
    exact List.length_pos_iff.1 (by omega)
  · cases h

theorem boolean?_ne_nil {cs : List Char} {l : Lexeme} (h : boolean? cs = some l) :
    l.chars ≠ [] := by
  unfold boolean? at h
  split at h
  · next hw =>
    cases h
    exact word?_ne_nil (by simp) hw
  · obtain ⟨chars, hw, rfl⟩ := Option.map_eq_some_iff.1 h
    exact word?_ne_nil (by simp) hw

theorem text?_ne_nil {cs : List Char} {l : Lexeme} (h : text? cs = some l) : l.chars ≠ [] := by
  unfold text? at h
  grind

theorem number?_ne_nil {cs : List Char} {l : Lexeme} (h : number? cs = some l) :
    l.chars ≠ [] := by
  simp only [number?] at h
  split at h
  · cases h
  · next hne =>
    obtain ⟨x, _, rfl⟩ := Option.map_eq_some_iff.1 h
    exact fun hnil => hne (List.isEmpty_iff.2 hnil)

/-- What stands at the front of a text is of one of the seven kinds. -/
inductive Stands (cs : List Char) (l : Lexeme) : Prop
  | symbol (h : symbol? cs = some l)
  | operator (h : operator? cs = some l)
  | function (h : function? cs = some l)
  | cell (h : cell? cs = some l)
  | boolean (h : boolean? cs = some l)
  | text (h : text? cs = some l)
  | number (h : number? cs = some l)

theorem stands_of_ofChars? {cs : List Char} {l : Lexeme} (h : ofChars? cs = some l) :
    Stands cs l := by
  obtain ⟨kind, hk, hl⟩ := List.exists_of_findSome?_eq_some h
  simp only [kinds, List.mem_cons, List.not_mem_nil, or_false] at hk
  rcases hk with rfl | rfl | rfl | rfl | rfl | rfl | rfl
  · exact .symbol hl
  · exact .operator hl
  · exact .function hl
  · exact .cell hl
  · exact .boolean hl
  · exact .text hl
  · exact .number hl

/-- A lexeme has at least one character. -/
theorem ofChars?_ne_nil {cs : List Char} {l : Lexeme} (h : ofChars? cs = some l) :
    l.chars ≠ [] := by
  cases stands_of_ofChars? h with
  | symbol hl => exact symbol?_ne_nil hl
  | operator hl => exact operator?_ne_nil hl
  | function hl => exact function?_ne_nil hl
  | cell hl => exact cell?_ne_nil hl
  | boolean hl => exact boolean?_ne_nil hl
  | text hl => exact text?_ne_nil hl
  | number hl => exact number?_ne_nil hl

end Lexeme

end Spreadsheet
