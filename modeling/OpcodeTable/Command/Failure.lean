/-
This file lists what can make a run fail, in the order in which the run can meet it: the
catalog, the input, the output, the writing of a record, the lines of the table, and the
handing on of what the output still owes.
-/

import OpcodeTable.Command.Files
import OpcodeTable.Table

namespace OpcodeTable

open Text

/-- Why a run failed. -/
inductive Failure where
  | catalogUnreadable (file : String) (fault : FileFault)
  | catalogRepeats (file : String) (repeated : RepeatedField)
  | inputUnreadable (file : String) (fault : FileFault)
  | standardInputUnreadable (fault : FileFault)
  | outputNotCreated (file : String) (fault : FileFault)
  | recordNotWritten (fault : FileFault)
  | table (fault : TableFault)
  | outputNotWritten (fault : FileFault)
  deriving DecidableEq, Repr

/-- The report of a failure. -/
def Failure.report : Failure → String
  | .catalogUnreadable file fault =>
    "could not read field catalog '" ++ file ++ "': " ++ fault.message
  | .catalogRepeats file repeated => file ++ ": " ++ repeated.message
  | .inputUnreadable file fault => "could not read file '" ++ file ++ "': " ++ fault.message
  | .standardInputUnreadable fault => "could not read standard input: " ++ fault.message
  | .outputNotCreated file fault => "could not create '" ++ file ++ "': " ++ fault.message
  | .recordNotWritten fault => "could not write record: " ++ fault.message
  | .table fault => fault.report
  | .outputNotWritten fault => "could not write output: " ++ fault.message

end OpcodeTable
