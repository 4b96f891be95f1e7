/-
This file writes and reads numbers. A decimal or hexadecimal numeral has no leading zeros and
small letters; a padded one is filled with zeros up to a width and never cut, so a number that
needs more digits than the width shows all of them. Reading takes digits of any base up to
sixteen, letters in either case, leading zeros as they come, and knows ASCII digits only.
-/

namespace OpcodeTable.Text

/-! ### Writing -/

/-- The decimal numeral of a number. -/
def decimal (n : Nat) : List Char := Nat.toDigits 10 n

/-- The hexadecimal numeral of a number, in small letters. -/
def hex (n : Nat) : List Char := Nat.toDigits 16 n

/-- The hexadecimal numeral, filled with zeros in front up to the given number of digits. -/
def paddedHex (digits n : Nat) : List Char := (hex n).leftpad digits '0'

/-! ### Reading -/

/-- What a character is worth as a digit up to `f`. -/
def hexDigitValue? (c : Char) : Option Nat :=
  if '0' ≤ c && c ≤ '9' then some (c.toNat - '0'.toNat)
  else if 'a' ≤ c && c ≤ 'f' then some (c.toNat - 'a'.toNat + 10)
  else if 'A' ≤ c && c ≤ 'F' then some (c.toNat - 'A'.toNat + 10)
  else none

/-- What a character is worth as a digit of the base, which is at most sixteen. -/
def digitValue? (base : Nat) (c : Char) : Option Nat :=
  (hexDigitValue? c).filter (· < base)

/-- The number that follows a number when the digits come after it, if all are digits of the
base. -/
def appendDigits? (base : Nat) (n : Nat) : List Char → Option Nat
  | [] => some n
  | c :: rest => (digitValue? base c).bind fun digit => appendDigits? base (base * n + digit) rest

/-- The value of a run of digits of the base; a run without digits is worth zero. -/
def digitsValue? (base : Nat) (digits : List Char) : Option Nat := appendDigits? base 0 digits

end OpcodeTable.Text
