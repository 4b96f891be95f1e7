/-
This file reads definitions: the name of an instruction and its parts. A part that begins with
a digit is a fixed part and every other part is a field, so each token is one or the other
before anything else is known about it.
-/

import OpcodeTable.Fault
import OpcodeTable.Field
import OpcodeTable.Line

namespace OpcodeTable

open Text

/-- One part of a definition. -/
inductive Part where
  | fixed (part : FixedPart)
  | field (part : FieldPart)
  deriving DecidableEq, Repr

namespace Part

/-- The part as a table writes it. -/
def text : Part → List Char
  | .fixed part => part.text
  | .field part => part.text

/-- Whether a token has to be a fixed part. -/
def startsFixed (token : String) : Bool := token.toList.head?.any Char.isDigit

/-- Read one token. -/
def parse (token : String) : Except Fault Part :=
  if startsFixed token then ((FixedPart.parse token).map .fixed).mapError (.malformed token)
  else .ok (.field (.ofToken token))

def fixed? : Part → Option FixedPart
  | .fixed part => some part
  | .field _ => none

def field? : Part → Option FieldPart
  | .field part => some part
  | .fixed _ => none

end Part

/-- The name of an instruction and its parts, in the order of the line. -/
structure Definition where
  name : String
  parts : List Part
  deriving DecidableEq, Repr

namespace Definition

/-- The fixed parts, in order. -/
def fixedParts (definition : Definition) : List FixedPart := definition.parts.filterMap Part.fixed?

/-- The field parts, in order. -/
def fieldParts (definition : Definition) : List FieldPart := definition.parts.filterMap Part.field?

/-- Read a line as a definition. The first part that is malformed is the fault; a line without
words has an empty name and no parts. -/
def parse (line : String) : Except Fault Definition :=
  match tokens line with
  | [] => .ok ⟨"", []⟩
  | name :: rest => (rest.mapM Part.parse).map (Definition.mk name)

/-- The definition as a table writes it, with one space in front of each part. -/
def text (definition : Definition) : List Char :=
  definition.name.toList ++ definition.parts.flatMap fun part => ' ' :: part.text

end Definition

end OpcodeTable
