import Spreadsheet.Formula.Lexeme

/-!
# The tokens of a text

A text is read from left to right: blanks are skipped, and then the lexeme that stands there becomes
a token. Reading stops at the end of the text, or where no lexeme stands.
-/

namespace Spreadsheet

/-- Text that begins no token: its byte offset, and what stands there up to the next blank. -/
structure Unreadable where
  position : Nat
  fragment : String
  deriving DecidableEq, Repr

/-- The tokens of a text, as far as it could be read. -/
structure Scan where
  tokens : List Token
  fault : Option Unreadable

namespace Scan

/-- The number of bytes that characters take in a text. -/
def byteLength : List Char → Nat
  | [] => 0
  | c :: rest => c.utf8Size + byteLength rest

/-- Reads on from a byte offset. -/
def onward (position : Nat) (cs : List Char) : Scan :=
  let start := position + byteLength (cs.takeWhile Text.isBlank)
  let rest := Text.skipBlanks cs
  if rest.isEmpty then ⟨[], none⟩
  else
    match _h : Lexeme.ofChars? rest with
    | none => ⟨[], some ⟨start, String.ofList (rest.takeWhile (!Text.isBlank ·))⟩⟩
    | some l =>
      let token : Token := ⟨l.kind, String.ofList l.chars, l.value, start⟩
      let others := onward (start + byteLength l.chars) (rest.drop l.chars.length)
      { others with tokens := token :: others.tokens }
termination_by cs.length
decreasing_by
  have hl := List.length_pos_iff.2 (Lexeme.ofChars?_ne_nil _h)
  have hs : (Text.skipBlanks cs).length ≤ cs.length := (List.dropWhile_suffix _).length_le
  have hr : 0 < (Text.skipBlanks cs).length := by grind
  simp only [List.length_drop]
  omega

/-- Reads the tokens of a text up to the end or to the first fault. -/
def ofText (text : String) : Scan :=
  onward 0 text.toList

end Scan

/-- The tokens of a text; a text with a fault has none. -/
def tokenize (text : String) : Except FormulaError (List Token) :=
  match (Scan.ofText text).fault with
  | none => .ok (Scan.ofText text).tokens
  | some u => .error (.lex u.position u.fragment)

end Spreadsheet
