/-
This file reads whole tables. Lines are counted from one, and each stands for itself: nothing
is carried from one line to the next. The first line with a fault ends the reading, and the
lines after it are not looked at.
-/

import OpcodeTable.Assembly

namespace OpcodeTable

open Text

/-! ### Faults with their place -/

/-- A fault, and the line of the table that has it. -/
structure TableFault where
  file : String
  number : Nat
  text : String
  fault : Fault
  deriving DecidableEq, Repr

namespace TableFault

/-- The file and the number of the line. -/
def location (fault : TableFault) : String :=
  fault.file ++ ":" ++ String.ofList (decimal fault.number)

/-- The line itself, marked, behind its number in a column of four. -/
def context (fault : TableFault) : String :=
  ">>> " ++ String.ofList ((decimal fault.number).leftpad 4 ' ') ++ ": " ++ fault.text

/-- The whole report, in two lines. -/
def report (fault : TableFault) : String :=
  "Error at " ++ fault.location ++ ": " ++ fault.fault.message ++ "\n" ++ fault.context

end TableFault

/-! ### Reading -/

/-- The records of the lines, the first of which has the given number. -/
def assembleLines (catalog : Catalog) (rules : Rules) (file : String) (number : Nat) :
    List String → Traced TableFault (List Record)
  | [] => return []
  | line :: later => do
    let record ← (assembleLine catalog rules line).mapFault (TableFault.mk file number line)
    (record.toList ++ ·) <$> assembleLines catalog rules file (number + 1) later

/-- The records of a table, one for each definition, in the order of the lines. -/
def assembleText (catalog : Catalog) (rules : Rules) (file text : String) :
    Traced TableFault (List Record) :=
  assembleLines catalog rules file 1 (lines text)

end OpcodeTable
