/-
This file says what space is and cuts a line into its words. Space is the Unicode property
White_Space, twenty-five code points, so neither the control characters around U+001C nor the
zero-width space belong to it; a word is a longest run of other characters.
-/

import OpcodeTable.Text.CodePoints
import OpcodeTable.Text.Runs

namespace OpcodeTable.Text

/-! ### Space -/

/-- The code points that have the property White_Space, as ranges with both ends included. -/
def spaceRanges : List (Nat × Nat) :=
  [(0x9, 0xD), (0x20, 0x20), (0x85, 0x85), (0xA0, 0xA0), (0x1680, 0x1680), (0x2000, 0x200A),
    (0x2028, 0x2029), (0x202F, 0x202F), (0x205F, 0x205F), (0x3000, 0x3000)]

/-- A character is space when it has the Unicode property White_Space. -/
def isSpace (c : Char) : Bool := inRanges c.toNat spaceRanges

/-- The text from its first character that is not space. -/
def trimStart (text : List Char) : List Char := text.dropWhile isSpace

/-- The text without the space at its two ends. -/
def trim (text : List Char) : List Char := (trimStart (trimStart text).reverse).reverse

/-! ### Words -/

/-- The words of a line: its longest runs of characters that are not space, in order. -/
def words (text : List Char) : List (List Char) := runs isSpace text

end OpcodeTable.Text
