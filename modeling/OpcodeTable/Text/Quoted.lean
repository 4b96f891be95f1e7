/-
This file puts a text between double quotes. Which characters need an escape, and how it is
spelt, is a style: some characters have a letter of their own after the backslash, others are
written by their number, and the rest stand as they are. Every style that is used here gives
the quote and the backslash a letter, so the closing quote is the first one that no backslash
stands before. Two styles are fixed here, that of source code and that of JSON.
-/

import OpcodeTable.Text.Hidden
import OpcodeTable.Text.Numeral

namespace OpcodeTable.Text

/-- How a quoted text spells its characters. -/
structure QuoteStyle where
  /-- The characters with a letter of their own, each with that letter. -/
  letters : List (Char × Char)
  /-- The characters without a letter that are written by number. -/
  byNumber : Char → Bool
  /-- The spelling of a code point behind the backslash. -/
  number : Nat → List Char

namespace QuoteStyle

/-- One character of a quoted text. -/
def spell (style : QuoteStyle) (c : Char) : List Char :=
  match style.letters.lookup c with
  | some letter => ['\\', letter]
  | none => if style.byNumber c then '\\' :: style.number c.toNat else [c]

/-- The text between double quotes. -/
def quote (style : QuoteStyle) (text : List Char) : List Char :=
  '"' :: (text.flatMap style.spell ++ ['"'])

/-- Quoted texts with a mark between them. -/
def quoteAll (style : QuoteStyle) (mark : List Char) (texts : List String) : List Char :=
  mark.intercalate (texts.map fun text => style.quote text.toList)

/-! ### The two styles -/

/-- The style of source code: hidden characters are written as their code point in hexadecimal,
between braces and without padding. -/
def source : QuoteStyle where
  letters :=
    [('"', '"'), ('\\', '\\'), ('\x00', '0'), ('\t', 't'), ('\n', 'n'), ('\r', 'r')]
  byNumber := isHidden
  number n := ['u', '\x7b'] ++ hex n ++ ['\x7d']

/-- The style of JSON: only control characters below the space are written by number, with four
hexadecimal digits. -/
def json : QuoteStyle where
  letters :=
    [('"', '"'), ('\\', '\\'), ('\x08', 'b'), ('\x0c', 'f'), ('\n', 'n'), ('\r', 'r'),
      ('\t', 't')]
  byNumber c := c.toNat < 0x20
  number n := 'u' :: paddedHex 4 n

end QuoteStyle

end OpcodeTable.Text
