/-
This file reads the literals of a table: numbers below 2 ^ 64 in base ten, sixteen, two or
eight. A letter after a leading zero names the base, underscores may stand between digits, and
a decimal literal has no leading zero, since one could be meant as octal. The checks have an
order, and a text that fails several of them is refused for the first: no digits or an
underscore at an end, a leading zero, a character that is no digit, a value too large.
-/

import OpcodeTable.Text.Numeral

namespace OpcodeTable

open Text

/-- Why a text is no literal. -/
inductive LiteralFault where
  | malformed (text : String)
  | leadingZero (text : String)
  | tooLarge (text : String)
  deriving DecidableEq, Repr

/-- The wording of a refused literal. -/
def LiteralFault.message : LiteralFault → String
  | .malformed text => "invalid number '" ++ text ++ "'"
  | .leadingZero text => "leading zero in decimal number '" ++ text ++ "'"
  | .tooLarge text => "invalid number '" ++ text ++ "': number too large to fit in target type"

namespace Literal

/-- The base that a literal names, with what stands behind the name. -/
def radix : List Char → Nat × List Char
  | '0' :: 'x' :: digits => (16, digits)
  | '0' :: 'X' :: digits => (16, digits)
  | '0' :: 'b' :: digits => (2, digits)
  | '0' :: 'B' :: digits => (2, digits)
  | '0' :: 'o' :: digits => (8, digits)
  | '0' :: 'O' :: digits => (8, digits)
  | digits => (10, digits)

/-- Whether the digits are there at all and no underscore stands before or after them. -/
def wellEnclosed (digits : List Char) : Bool :=
  digits.any (· ≠ '_') && digits.head? ≠ some '_' && digits.getLast? ≠ some '_'

/-- Whether a run of at least two characters begins with a zero. -/
def hasLeadingZero : List Char → Bool
  | '0' :: _ :: _ => true
  | _ => false

/-- Read a literal. -/
def parse (text : String) : Except LiteralFault (BitVec 64) :=
  let (base, spelt) := radix text.toList
  let digits := spelt.filter (· ≠ '_')
  if !wellEnclosed spelt then .error (.malformed text)
  else if base = 10 && hasLeadingZero digits then .error (.leadingZero text)
  else
    match digitsValue? base digits with
    | none => .error (.malformed text)
    | some value =>
      if value < UInt64.size then .ok (BitVec.ofNat 64 value) else .error (.tooLarge text)

end Literal

end OpcodeTable
