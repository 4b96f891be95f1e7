/-
This file holds what a definition is turned into: the bits that recognise an instruction, the
fields that the remaining bits are for, and whether the instruction takes 16 or 32 bits.
-/

import OpcodeTable.Pattern

namespace OpcodeTable

/-- How long an instruction is. -/
inductive Width where
  | compact
  | wide
  deriving DecidableEq, Repr

namespace Width

/-- The number of bits in the instruction. -/
def bits : Width → Nat
  | .compact => 16
  | .wide => 32

/-- The least number of hexadecimal digits that a mask or value is written with. -/
def hexDigits : Width → Nat
  | .compact => 4
  | .wide => 8

end Width

/-- A word matches a pattern when its fixed bits have the value. -/
def Pattern.Matches (pattern : Pattern) (word : Word) : Prop :=
  word &&& pattern.mask = pattern.value

instance (pattern : Pattern) (word : Word) : Decidable (pattern.Matches word) :=
  inferInstanceAs (Decidable (_ = _))

/-- The encoding of one instruction. -/
structure Record extends Pattern where
  name : String
  fields : List String
  width : Width
  deriving DecidableEq, Repr

end OpcodeTable
