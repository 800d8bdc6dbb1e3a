/-!
# Blank characters

A character is blank when Unicode gives it the property White_Space. Blanks separate tokens and are
dropped around names, numbers and formulas; the zero-width space and the byte order mark are not
blank.
-/

namespace Spreadsheet.Text

/-- Whether a character is white space: the six ASCII blanks, the two Latin-1 ones, and the spaces
and line separators of general punctuation, Ogham and the ideographic scripts. -/
def isBlank (c : Char) : Bool :=
  let n := c.toNat
  (9 ≤ n && n ≤ 13) || n == 0x20 || n == 0x85 || n == 0xA0 || n == 0x1680
    || (0x2000 ≤ n && n ≤ 0x200A) || n == 0x2028 || n == 0x2029 || n == 0x202F || n == 0x205F
    || n == 0x3000

/-- Everything from the first character that is not blank. -/
def skipBlanks (cs : List Char) : List Char :=
  cs.dropWhile isBlank

/-- Characters without the blanks on both sides. -/
def trimChars (cs : List Char) : List Char :=
  (skipBlanks (skipBlanks cs).reverse).reverse

/-- Text without the blanks on both sides. -/
def trim (s : String) : String :=
  String.ofList (trimChars s.toList)

@[simp] theorem toList_trim (s : String) : (trim s).toList = trimChars s.toList := by
  simp [trim]

end Spreadsheet.Text
