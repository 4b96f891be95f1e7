/-
This file holds the field parts of a definition. An instruction may keep one field in two
places, and a table then writes it as two parts, the high half ending in `hi` and the low half
in `lo`. The two make one field of the record, which carries both endings in its name. The high
half alone brings that field, so the order of the halves is of no matter, and a low half whose
high half is missing is dropped.
-/

import OpcodeTable.Text.Split

namespace OpcodeTable

open Text

/-- Which part of a field a token names. -/
inductive Half where
  | whole
  | high
  | low
  deriving DecidableEq, Repr

/-- The ending of a token that names such a part. -/
def Half.ending : Half → List Char
  | .whole => []
  | .high => ['h', 'i']
  | .low => ['l', 'o']

/-- A field, or one half of it. -/
structure FieldPart where
  base : String
  half : Half
  deriving DecidableEq, Repr

namespace FieldPart

/-- Read a token; what ends in neither ending is a field of its own. -/
def ofToken (token : String) : FieldPart :=
  match dropEnding? Half.high.ending token.toList with
  | some base => ⟨String.ofList base, .high⟩
  | none =>
    match dropEnding? Half.low.ending token.toList with
    | some base => ⟨String.ofList base, .low⟩
    | none => ⟨token, .whole⟩

/-- The part as a table writes it. -/
def text (part : FieldPart) : List Char := part.base.toList ++ part.half.ending

/-- The name of the field that a part brings to the record; a low half brings none. -/
def canonical? (part : FieldPart) : Option String :=
  match part.half with
  | .whole => some part.base
  | .high => some (part.base ++ "hilo")
  | .low => none

/-- The names that the parts bring, in their order. -/
def canonicalNames (parts : List FieldPart) : List String := parts.filterMap canonical?

/-- The low halves that have no high half among the parts. -/
def orphans (parts : List FieldPart) : List FieldPart :=
  parts.filter fun part => part.half = .low ∧ ⟨part.base, .high⟩ ∉ parts

end FieldPart

end OpcodeTable
