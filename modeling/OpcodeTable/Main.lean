/-
This file is the program. It looks at the files that the arguments name, hands what it found to
the run, and writes down what the run leaves behind. All decisions are made by the run; here is
only what has to touch the system.
-/

import OpcodeTable.Command.Run
import OpcodeTable.Command.Surroundings

namespace OpcodeTable

/-! ### Looking -/

/-- The fault that an error of the system stands for. -/
def FileFault.ofError : IO.Error → FileFault
  | .noFileOrDirectory _ _ _ => .notFound
  | .noSuchThing _ _ _ => .noDevice
  | .permissionDenied _ _ _ => .accessDenied
  | .inappropriateType _ _ _ => .notDirectory
  | .invalidArgument _ _ _ => .invalidArgument
  | _ => .inputOutput

/-- What stands at the end of a path where no link stands. The content of a file is fetched only
if it is wanted. -/
def lookAtEnd (path : String) (wanted : Bool) : IO Node := do
  let path := (← IO.currentDir) / path
  if ← path.isDir then return .directory
  else if wanted then
    try return .file (← IO.FS.readBinFile path).data.toList
    catch error => return .faulty (FileFault.ofError error)
  else return .file []

/-- What stands at a path, and if a link stands there, also what stands where it ends. The place is
where the path leads if no link stands there. -/
def lookAt (path : String) (place : Place) (wanted : Bool) : IO (List (Place × Node)) := do
  let spelled := (← IO.currentDir) / path
  if ← spelled.pathExists then
    let ending := (← IO.FS.realPath spelled).toString
    let found := (Files.steps ending, ← lookAtEnd ending wanted)
    if found.1 = place then return [found] else return [found, (place, .link found.1 1)]
  else return []

/-- Look at a name and at every place on the way to it. -/
def lookUp (files : Files) (name : String) (wanted : Bool) : IO Files := do
  let mut seen := files
  let mut position : Position := ⟨files.origin name, 0⟩
  let mut path := "/" ++ "/".intercalate position.place
  for step in Files.steps name do
    path := path ++ "/" ++ step
    if let .ok next := seen.step position step then
      if (seen.node? next.place).isNone then
        for (place, node) in ← lookAt path next.place wanted do
          seen := seen.set place node
    match seen.step position step with
    | .ok next => position := next
    | .error _ => return seen
  return seen

/-- Everything a stream still holds. -/
partial def readToEnd (stream : IO.FS.Stream) (before : ByteArray) : IO ByteArray := do
  let piece ← stream.read 65536
  if piece.isEmpty then return before else readToEnd stream (before ++ piece)

/-- Whether a name leads to the standard input. -/
def namesStandardInput (files : Files) (name : String) : Bool :=
  match files.find name with
  | .ok (.device .standardInput) => true
  | _ => false

/-- Whether a run gets as far as reading the standard input. -/
def wantsStandardInput (arguments : Arguments) (files : Files) : Bool :=
  arguments.fields.any (namesStandardInput files) ||
    match arguments.resolve ⟨files, [], none⟩ with
    | .ok (settings, _) => settings.input.all (namesStandardInput files)
    | .error _ => false

/-- What a run with these arguments will find. The standard input is left alone if the run will
not get as far as reading it. How much an output will take cannot be seen. -/
def observe (arguments : Arguments) : IO World := do
  let mut files := Files.start (Files.steps (← IO.currentDir).toString)
  for name in arguments.fields.toList ++ arguments.input.toList do
    files ← lookUp files name true
  for name in arguments.output.toList do
    files ← lookUp files name false
  if wantsStandardInput arguments files then
    return ⟨files, (← readToEnd (← IO.getStdin) .empty).data.toList, none⟩
  else return ⟨files, [], none⟩

/-! ### Telling -/

/-- How the program is called. -/
def usageText : String :=
  "Turn an opcode bit-field table into mask/value encoding records\n\n" ++
  "Usage: optable [OPTIONS] [INPUT]\n\n" ++
  "  [INPUT]            opcode table to read ('-' or absent for standard input)\n" ++
  "  -o, --output FILE  write records to FILE instead of standard output\n" ++
  "  -f, --format FORM  output format, rust (the default) or json\n" ++
  "      --wide         treat every instruction as 32-bit, skip the low opcode bits check\n" ++
  "      --fields FILE  field catalog, one name per line in output order\n" ++
  "  -v, --verbose      log each record as it is assembled\n" ++
  "  -h, --help         print this help\n" ++
  "  -V, --version      print the version\n"

/-- What is wrong with the arguments. -/
def Usage.message : Usage → String
  | .invalidValue => "error: invalid or missing value\n"
  | .unknownArgument => "error: unexpected argument\n"
  | .argumentConflict => "error: argument used more than once\n"
  | .tooManyValues => "error: unexpected value for a flag\n"
  | .help => ""
  | .version => ""

end OpcodeTable

open OpcodeTable in
def main (arguments : List String) : IO UInt32 := do
  let output ← IO.getStdout
  let errors ← IO.getStderr
  let world ←
    match Arguments.parse arguments with
    | .ok parsed => observe parsed
    | .error _ => pure ⟨Files.start [], [], none⟩
  match runCommand arguments (← IO.getEnv "RUST_LOG") world with
  | .usage usage =>
    let stream := if usage.exitCode = 0 then output else errors
    stream.putStr (usage.message ++ usageText)
    return usage.exitCode.toUInt32
  | .outcome outcome =>
    if let .file name := outcome.destination then
      IO.FS.writeBinFile name outcome.written.toByteArray
    output.write outcome.standardOutput.toByteArray
    output.flush
    errors.write outcome.standardError.toByteArray
    return outcome.exitCode.toUInt32
