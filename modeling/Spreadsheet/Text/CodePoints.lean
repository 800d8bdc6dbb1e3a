/-!
# Ranges of code points

A class of characters is given by its ASCII members, tested directly, and by a list of closed
ranges of code points for the others.
-/

namespace Spreadsheet.Text

/-- Whether a character's code point lies in one of the closed ranges. -/
def inRanges (ranges : List (Nat × Nat)) (c : Char) : Bool :=
  ranges.any fun (first, last) => first ≤ c.toNat && c.toNat ≤ last

end Spreadsheet.Text
