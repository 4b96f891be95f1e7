/-
This file turns definitions into records. The bits of all fixed parts are gathered, the field
parts are merged and put into the order of the catalog, and the width is read off the value.
Where several things are wrong the first of three counts: a malformed part, a field outside the
catalog, an opcode left open. Whatever comes of a definition, bits that were clipped and halves
that were dropped are reported once all its parts are read.
-/

import OpcodeTable.Catalog
import OpcodeTable.Definition
import OpcodeTable.Traced

namespace OpcodeTable

/-! ### Rules -/

/-- How the width of a record is chosen. -/
inductive WidthRule where
  /-- Every instruction has 32 bits. -/
  | always32
  /-- An instruction has 32 bits when both low bits of its value are set. -/
  | byOpcode
  deriving DecidableEq, Repr

/-- What is asked of a table. -/
structure Rules where
  /-- Whether every record has to fix the two lowest bits. -/
  closedOpcode : Bool
  widthRule : WidthRule
  deriving DecidableEq, Repr

namespace Rules

/-- Tables of 16-bit and 32-bit instructions. -/
def mixed : Rules := ⟨true, .byOpcode⟩

/-- Tables of 32-bit instructions only, whatever their low bits. -/
def wide : Rules := ⟨false, .always32⟩

end Rules

/-- The two lowest bits of a word. -/
def opcodeBits : Word := 3

/-- The width that a value has under a rule. -/
def WidthRule.width (rule : WidthRule) (value : Word) : Width :=
  match rule with
  | .always32 => .wide
  | .byOpcode => if value &&& opcodeBits = opcodeBits then .wide else .compact

/-! ### Parts -/

variable {ε : Type}

/-- The pattern of a fixed part. A literal that loses bits is reported. -/
def FixedPart.compile (part : FixedPart) : Traced ε Pattern := do
  if part.kept ≠ part.literal then Traced.report [.clipped part]
  return part.pattern

/-- The pattern of all fixed parts together. -/
def FixedPart.compileAll (parts : List FixedPart) : Traced ε Pattern :=
  parts.foldlM (fun pattern part => do return pattern ∪ (← part.compile)) .free

/-- The names of the fields that the parts bring. Low halves that are dropped are reported. -/
def FieldPart.merge (parts : List FieldPart) : Traced ε (List String) := do
  Traced.report ((orphans parts).map fun part => .orphaned part.base)
  return canonicalNames parts

/-! ### Definitions and lines -/

/-- The record of a definition. -/
def Definition.assemble (catalog : Catalog) (rules : Rules) (definition : Definition) :
    Traced Fault Record := do
  let pattern ← FixedPart.compileAll definition.fixedParts
  let names ← FieldPart.merge definition.fieldParts
  let fields ← Traced.ofExcept (catalog.sort names)
  if rules.closedOpcode ∧ pattern.mask &&& opcodeBits ≠ opcodeBits then
    Traced.ofExcept (.error (.openOpcode pattern.mask))
  else
    let width := rules.widthRule.width pattern.value
    let record : Record := ⟨pattern, definition.name, fields, width⟩
    Traced.report [.assembled record]
    return record

/-- The record of a line, if the line is a definition. -/
def assembleLine (catalog : Catalog) (rules : Rules) (line : String) :
    Traced Fault (Option Record) := do
  let kind := LineKind.ofLine line
  Traced.report [.classified kind line]
  match kind with
  | .definition =>
    let definition ← Traced.ofExcept (Definition.parse line)
    return some (← definition.assemble catalog rules)
  | .comment | .directive | .blank => return none

end OpcodeTable
