/-
This file says what a run finds in the tree beside the files of its user: the devices, and the
directories in which the system tells the running program about itself. There the three standard
streams have their numbers, and the working directory and the root can be reached by links. The
place of such a directory is another one for every program, so a run cannot be told its name; here
it gets the empty step, which no name spells and only a link can lead to.
-/

import OpcodeTable.Command.Files

namespace OpcodeTable

open Text

namespace Files

/-! ### The running program -/

/-- The directory of the running program. -/
def ownDirectory : Place := ["proc", ""]

/-- The directory of the only thread of the running program. -/
def ownThread : Place := ownDirectory ++ ["task", ""]

/-- Where a standard stream stands. -/
def streamPlace (number : String) : Place := ["", number]

/-- Where the program stands. -/
def programPlace : Place := ["", "program"]

/-- The file that the running program was loaded from. It does not change while the program runs,
and of its content no more is told than that it is no text. -/
def program : Node := .readOnly [0xFF] .textBusy

/-- The name that the program runs under. -/
def programName : String := "optable"

/-- The standard streams by their numbers. -/
def streams : List (String × Device) :=
  [("0", .standardInput), ("1", .standardOutput), ("2", .standardError)]

/-- A directory that holds what the system puts there. -/
def tellingDirectory (place : Place) : Place × Node := (place, .closedDirectory .notFound)

/-- What the system tells about the program in a directory. -/
def selfEntries (place workingDirectory : Place) : List (Place × Node) :=
  ([[], ["attr"], ["fd"], ["fdinfo"], ["net"], ["ns"]].map fun steps =>
      tellingDirectory (place ++ steps))
    ++ (streams.map fun stream =>
      (place ++ ["fd", stream.1], Node.link (streamPlace stream.1) 1))
    ++ [(place ++ ["cwd"], .link workingDirectory 1), (place ++ ["root"], .link [] 1),
      (place ++ ["exe"], .link programPlace 1),
      (place ++ ["comm"], .file (encodeUtf8 (programName.toList ++ ['\n']))),
      (place ++ ["mem"], .faulty .inputOutput)]

/-- The directories in which the system tells about itself. -/
def systemEntries (workingDirectory : Place) : List (Place × Node) :=
  (streams.map fun stream => (streamPlace stream.1, Node.device stream.2))
    ++ [(programPlace, program), tellingDirectory ["proc"],
      (["proc", "self"], .link ownDirectory 1), (["proc", "thread-self"], .link ownThread 1),
      (["proc", "net"], .link (ownDirectory ++ ["net"]) 2),
      tellingDirectory (ownDirectory ++ ["task"]), tellingDirectory (ownDirectory ++ ["map_files"])]
    ++ selfEntries ownDirectory workingDirectory
    ++ selfEntries ownThread workingDirectory

/-! ### Devices -/

/-- The devices. The standard streams stand here as links over the directory of the program. -/
def devices : List (Place × Node) :=
  [(["dev"], .directory), (["dev", "full"], .sealed [] .noSpace),
    (["dev", "null"], .device .bottomless), (["dev", "zero"], .device .endless),
    (["dev", "random"], .device .endless), (["dev", "urandom"], .device .endless),
    (["dev", "stdin"], .link (streamPlace "0") 3), (["dev", "stdout"], .link (streamPlace "1") 3),
    (["dev", "stderr"], .link (streamPlace "2") 3),
    (["dev", "fd"], .link (ownDirectory ++ ["fd"]) 2)]

/-- The tree that holds no files of the user yet, only the working directory and the directories
above it. Files can be of any size there. -/
def start (workingDirectory : Place) : Files :=
  let above := (List.range workingDirectory.length).map fun n =>
    (workingDirectory.take (n + 1), Node.directory)
  ⟨above ++ devices ++ systemEntries workingDirectory, workingDirectory, []⟩

end Files

end OpcodeTable
