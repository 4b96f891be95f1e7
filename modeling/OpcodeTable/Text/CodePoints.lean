/-
This file looks a code point up in a table of ranges. Unicode properties are given as such
tables: ranges with both ends included, in ascending order, so a search may stop at the first
range that begins above the code point.
-/

namespace OpcodeTable.Text

/-- Whether a code point lies in one of the ranges, which are in ascending order. -/
def inRanges (codePoint : Nat) : List (Nat × Nat) → Bool
  | [] => false
  | (first, last) :: later =>
    if codePoint < first then false else codePoint ≤ last || inRanges codePoint later

end OpcodeTable.Text
