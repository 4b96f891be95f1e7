/-
This file holds the fixed parts of a definition, a bit range and the literal that it is fixed
to, and the pattern that such a part stands for. The literal may be wider than the range; only
its low bits, as many as the range has, are kept, so a part never reaches into the bits beside
its range. The arithmetic is done in words of 64 bits and cut to the instruction word at the
end.
-/

import OpcodeTable.BitRange
import OpcodeTable.Literal
import OpcodeTable.Pattern

namespace OpcodeTable

open Text

/-- A bit range and the literal it is fixed to. -/
structure FixedPart where
  range : BitRange
  literal : BitVec 64
  deriving DecidableEq, Repr

/-- Why a token is no fixed part. -/
inductive FixedPartFault where
  | noEquals
  | range (fault : BitRangeFault)
  | literal (fault : LiteralFault)
  deriving DecidableEq, Repr

/-- The wording of a refused fixed part. -/
def FixedPartFault.message : FixedPartFault → String
  | .noEquals => "expected '<bits>=<value>'"
  | .range fault => fault.message
  | .literal fault => fault.message

namespace FixedPart

/-! ### Text -/

/-- The part as a table writes it, with the literal in decimal. -/
def text (part : FixedPart) : List Char :=
  part.range.text ++ '=' :: decimal part.literal.toNat

/-- Read a range, an equals sign and a literal. -/
def parse (token : String) : Except FixedPartFault FixedPart :=
  match splitFirst? ['='] token.toList with
  | none => .error .noEquals
  | some (left, right) => do
    let range ← (BitRange.parse left).mapError .range
    let literal ← (Literal.parse (String.ofList right)).mapError .literal
    return ⟨range, literal⟩

/-! ### Bits -/

/-- As many low bits as the range has. -/
def ones (part : FixedPart) : BitVec 64 := (1#64 <<< part.range.width) - 1

/-- The bits of the literal that the range has room for. -/
def kept (part : FixedPart) : BitVec 64 := part.literal &&& part.ones

/-- The bits that the part fixes, moved to their place in the word. -/
def pattern (part : FixedPart) : Pattern :=
  ⟨(part.ones <<< part.range.lo).setWidth 32, (part.kept <<< part.range.lo).setWidth 32⟩

end FixedPart

end OpcodeTable
