import Spreadsheet.Text.Cased
import Spreadsheet.Text.CaseMap

/-!
# Letter case of texts

Two kinds of folding are used. Names (of cells, functions and truth values) ignore the case of ASCII
letters only. Texts are compared and converted with the full case maps, in which one character may
become several and a capital sigma at the end of a word becomes the final small sigma.
-/

namespace Spreadsheet.Text

/-! ## ASCII letters -/

/-- A name with its ASCII letters in upper case. -/
def upperAscii (s : String) : String :=
  String.ofList (s.toList.map Char.toUpper)

/-- Whether two names agree up to the case of ASCII letters. -/
def sameName (s t : String) : Bool :=
  upperAscii s == upperAscii t

/-! ## All letters -/

/-- The upper-case form of a text. -/
def upper (s : String) : String :=
  String.ofList (s.toList.flatMap upperChar)

/-- Whether a cased character comes first once the case-ignorable ones are passed over. -/
def startsCased (cs : List Char) : Bool :=
  match cs.dropWhile isCaseIgnorable with
  | c :: _ => isCased c
  | [] => false

/-- The capital letter sigma. -/
def capitalSigma : Char := Char.ofNat 0x3A3

/-- The small sigma that ends a word. -/
def finalSigma : Char := Char.ofNat 0x3C2

/-- The lower-case form of characters that follow `before`, which lists the nearest one first. -/
def lowerAfter : List Char → List Char → List Char
  | _, [] => []
  | before, c :: rest =>
    (if c == capitalSigma && startsCased before && !startsCased rest then [finalSigma]
      else lowerChar c) ++ lowerAfter (c :: before) rest

/-- The lower-case form of a text. -/
def lower (s : String) : String :=
  String.ofList (lowerAfter [] s.toList)

end Spreadsheet.Text
