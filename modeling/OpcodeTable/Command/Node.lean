/-
This file says what can stand at a place of the tree of files, and what comes of reading it and of
writing to it. Besides files and directories there are links, devices that keep nothing, and
files through which the system tells of itself; some of those refuse to be opened, and others open
but refuse every byte. What can be written to may also take so many bytes only.
-/

import OpcodeTable.Text.Utf8

namespace OpcodeTable

open Text

/-! ### Faults -/

/-- Why a file cannot be read or written. -/
inductive FileFault where
  | nulInName
  | notFound
  | inputOutput
  | noDevice
  | accessDenied
  | notDirectory
  | isDirectory
  | invalidArgument
  | textBusy
  | noSpace
  | brokenPipe
  | nameTooLong
  | tooManyLinks
  | notUtf8
  | outOfMemory
  deriving DecidableEq, Repr

/-- The wording of a refusal. -/
def FileFault.message : FileFault → String
  | .nulInName => "file name contained an unexpected NUL byte"
  | .notFound => "No such file or directory (os error 2)"
  | .inputOutput => "Input/output error (os error 5)"
  | .noDevice => "No such device or address (os error 6)"
  | .accessDenied => "Permission denied (os error 13)"
  | .notDirectory => "Not a directory (os error 20)"
  | .isDirectory => "Is a directory (os error 21)"
  | .invalidArgument => "Invalid argument (os error 22)"
  | .textBusy => "Text file busy (os error 26)"
  | .noSpace => "No space left on device (os error 28)"
  | .brokenPipe => "Broken pipe (os error 32)"
  | .nameTooLong => "File name too long (os error 36)"
  | .tooManyLinks => "Too many levels of symbolic links (os error 40)"
  | .notUtf8 => "stream did not contain valid UTF-8"
  | .outOfMemory => "out of memory"

/-! ### Limits -/

/-- How much can be written to something: so many bytes are taken, and every byte behind them is
refused. -/
structure Limit where
  room : Nat
  refusal : FileFault
  deriving DecidableEq, Repr

/-- What is taken of some bytes where there may be a limit: as many as there is room for. -/
def admitted (limit? : Option Limit) (bytes : Bytes) : Bytes :=
  match limit? with
  | none => bytes
  | some limit => bytes.take limit.room

/-! ### Nodes -/

/-- A place of the tree: the steps that lead to it from the root. -/
abbrev Place := List String

/-- Something that keeps nothing of what it takes in the tree. The standard output may have a limit
of its own, and every other device takes all bytes. -/
inductive Device where
  /-- Has nothing to give. -/
  | bottomless
  /-- Gives bytes without end. -/
  | endless
  | standardInput
  | standardOutput
  | standardError
  deriving DecidableEq, Repr

/-- What stands at a place of the tree. -/
inductive Node where
  | file (content : Bytes)
  | directory
  /-- A directory in which nothing can come into being. Creating something there is refused, and
  a step that finds nothing there may be of any length. -/
  | closedDirectory (refusal : FileFault)
  /-- Leads to a place where no link stands. On the way there so many links are followed in all. -/
  | link (target : Place) (hops : Nat)
  | device (kind : Device)
  /-- Can be read, but does not open for writing. -/
  | readOnly (content : Bytes) (refusal : FileFault)
  /-- Opens, but takes no byte. -/
  | sealed (content : Bytes) (refusal : FileFault)
  /-- Opens, but gives no byte and takes none. -/
  | faulty (fault : FileFault)
  /-- Does not open. -/
  | shut (fault : FileFault)
  deriving DecidableEq, Repr

namespace Node

/-- Whether a step can be taken from a node. -/
def isDirectory : Node → Bool
  | .directory => true
  | .closedDirectory _ => true
  | _ => false

/-- What reading a node gives. The reading of a device that gives bytes without end ends when no
memory is left. -/
def content : Node → Except FileFault Bytes
  | .file content => .ok content
  | .directory => .error .isDirectory
  | .closedDirectory _ => .error .isDirectory
  | .link _ _ => .ok []
  | .device .endless => .error .outOfMemory
  | .device _ => .ok []
  | .readOnly content _ => .ok content
  | .sealed content _ => .ok content
  | .faulty fault => .error fault
  | .shut fault => .error fault

/-- Why a node does not open for writing, if it does not. -/
def closedBy? : Node → Option FileFault
  | .directory => some .isDirectory
  | .closedDirectory _ => some .isDirectory
  | .readOnly _ refusal => some refusal
  | .shut fault => some fault
  | _ => none

/-- Why an open node refuses every byte, if it does. -/
def refusal? : Node → Option FileFault
  | .sealed _ refusal => some refusal
  | .faulty fault => some fault
  | _ => none

end Node

end OpcodeTable
