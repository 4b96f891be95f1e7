/-
This file turns arguments into the settings of a run. What is not said has a default: the input
is the standard input, and so is the name of a single dash, the output is the standard output,
records are written as struct literals, and the fields are those of the RISC-V tables.
-/

import OpcodeTable.Command.Arguments
import OpcodeTable.Command.Failure
import OpcodeTable.Command.World

namespace OpcodeTable

/-- Everything that a run needs to know. -/
structure Settings where
  input : Option String
  output : Option String
  layout : Layout
  rules : Rules
  catalog : Catalog
  verbose : Bool

namespace Arguments

/-- Read the catalog that the arguments name. -/
def loadCatalog (arguments : Arguments) (world : World) : Except Failure (Catalog × World) :=
  match arguments.fields with
  | none => .ok (.riscv, world)
  | some file => do
    let (text, world) ← (world.readText file).mapError (.catalogUnreadable file)
    let catalog ← (Catalog.parse text).mapError (.catalogRepeats file)
    return (catalog, world)

/-- The settings that the arguments stand for, and the world in which they were found out. -/
def resolve (arguments : Arguments) (world : World) : Except Failure (Settings × World) := do
  let (catalog, world) ← arguments.loadCatalog world
  let settings : Settings := {
    input := arguments.input.filter (· ≠ "-")
    output := arguments.output
    layout := arguments.layout.getD .source
    rules := if arguments.wide then .wide else .mixed
    catalog := catalog
    verbose := arguments.verbose }
  return (settings, world)

end Arguments

end OpcodeTable
