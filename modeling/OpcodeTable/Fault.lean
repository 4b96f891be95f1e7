/-
This file lists what can be wrong with a definition. Each cause keeps what its report shows.
-/

import OpcodeTable.FixedPart

namespace OpcodeTable

open Text

/-- Why a definition yields no record. -/
inductive Fault where
  /-- A part begins with a digit and is no fixed part. -/
  | malformed (part : String) (reason : FixedPartFault)
  /-- One of the two lowest bits is fixed by no part. -/
  | openOpcode (mask : Word)
  /-- A field has no place in the catalog. -/
  | unknownField (name : String)
  deriving DecidableEq, Repr

/-- The wording of a fault. -/
def Fault.message : Fault → String
  | .malformed part reason => "malformed fixed part '" ++ part ++ "': " ++ reason.message
  | .openOpcode mask =>
    "mask 0x" ++ String.ofList (paddedHex 8 mask.toNat) ++ " does not fix both low opcode bits"
  | .unknownField name => "unknown field '" ++ name ++ "'"

end OpcodeTable
