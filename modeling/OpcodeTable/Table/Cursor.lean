/-
This file reads a table record by record. A cursor stands between two lines; asking it for the
next record reads lines up to the next definition and no further. After a fault nothing is left
to read, so a cursor that has failed, like one that has come to the end, gives no more records.
-/

import OpcodeTable.Table

namespace OpcodeTable

/-- A place in a table: the lines that are still to be read, and the number of the first. -/
structure Cursor where
  file : String
  number : Nat
  rest : List String
  deriving DecidableEq, Repr

namespace Cursor

/-- Before the first line of a text. -/
def start (file text : String) : Cursor := ⟨file, 1, Text.lines text⟩

/-- Read on from the given lines to the next record, if there is one, and say where that
leaves the cursor. -/
def advance (catalog : Catalog) (rules : Rules) (file : String) (number : Nat) :
    List String → Traced TableFault (Option Record) × Cursor
  | [] => (return none, ⟨file, number, []⟩)
  | line :: later =>
    let read := (assembleLine catalog rules line).mapFault (TableFault.mk file number line)
    match read.outcome with
    | .error _ => (read, ⟨file, number + 1, []⟩)
    | .ok (some _) => (read, ⟨file, number + 1, later⟩)
    | .ok none =>
      let (next, cursor) := advance catalog rules file (number + 1) later
      (⟨read.events ++ next.events, next.outcome⟩, cursor)

/-- The next record, and the cursor behind it. -/
def next (catalog : Catalog) (rules : Rules) (cursor : Cursor) :
    Traced TableFault (Option Record) × Cursor :=
  advance catalog rules cursor.file cursor.number cursor.rest

end Cursor

end OpcodeTable
