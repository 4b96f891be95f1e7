/-
This file says what a run finds: the files, and the standard streams. The standard input behaves
like a pipe, whatever it is and by whichever of its names it is read: it can be read once, and
whoever asks for it again finds that it has ended. A file that the shell has put there would be read
again from its beginning through a name in the tree; that is left out.

The standard output may refuse what it is given, at once or behind so many bytes. One that is closed
or was not opened for writing is not told of, and counts as taking all bytes. In front of it stands
one more buffer, which holds back lines that have not ended; that can put a refusal off, but not
beyond the flush at the end, and is left out as well. The standard error takes all bytes.
-/

import OpcodeTable.Command.Files

namespace OpcodeTable

open Text

/-- What a run finds. -/
structure World where
  files : Files
  standardInput : Bytes
  /-- How much the standard output takes, if not everything. -/
  standardOutput : Option Limit

namespace World

/-- Take all that the standard input holds. As in a pipe nothing is left then, for any of its
names. -/
def drain (world : World) : Bytes × World :=
  (world.standardInput, { world with standardInput := [] })

/-- Read what a name leads to. -/
def read (world : World) (name : String) : Except FileFault (Bytes × World) := do
  match ← world.files.find name with
  | .device .standardInput => .ok world.drain
  | node => return (← node.content, world)

/-- Bytes as text. -/
def decode : Bytes × World → Except FileFault (String × World)
  | (bytes, world) =>
    match decodeUtf8? bytes with
    | some text => .ok (text, world)
    | none => .error .notUtf8

/-- Read the text that a name leads to. -/
def readText (world : World) (name : String) : Except FileFault (String × World) :=
  world.read name >>= decode

/-- Read the text of the standard input. -/
def drainText (world : World) : Except FileFault (String × World) := decode world.drain

/-! ### Ordinary files -/

/-- Reading a file takes nothing from the standard input. -/
theorem read_of_find_file {world : World} {name : String} {content : Bytes}
    (found : world.files.find name = .ok (.file content)) :
    world.read name = .ok (content, world) := by
  unfold read
  rw [found]
  rfl

end World

end OpcodeTable
