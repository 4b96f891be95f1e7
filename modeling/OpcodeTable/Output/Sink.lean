/-
This file says where bytes go. A sink may have room for a number of bytes only: of a piece that
does not fit it keeps what it has room for, and from then on it takes nothing but the empty
piece. A buffer in front of a sink gathers small pieces and hands them on when the next piece
does not fit, or when it is flushed; a refusal by the sink therefore comes to light later than
the write that caused it.
-/

import OpcodeTable.Text.Utf8

namespace OpcodeTable

open Text

/-- Something bytes can be put into. The answer says whether all of the piece was taken. -/
class Target (σ : Type) where
  put : σ → Bytes → σ × Bool

/-! ### Sinks -/

/-- The bytes that were taken, and room for how many more there is; without a number the room
never ends. -/
structure Sink where
  room : Option Nat
  held : Array UInt8
  deriving DecidableEq, Repr

namespace Sink

/-- A sink that holds nothing yet. -/
def empty (room : Option Nat) : Sink := ⟨room, #[]⟩

/-- Put a piece into a sink. -/
def put : Sink → Bytes → Sink × Bool
  | ⟨none, held⟩, piece => (⟨none, held ++ piece⟩, true)
  | ⟨some room, held⟩, piece =>
    (⟨some (room - piece.length), held ++ piece.take room⟩, piece.length ≤ room)

instance : Target Sink := ⟨put⟩

end Sink

/-! ### Buffers -/

/-- A sink, and the bytes that wait to be handed on to it. -/
structure Buffer where
  sink : Sink
  waiting : Array UInt8
  deriving DecidableEq, Repr

namespace Buffer

/-- How many bytes may wait. -/
def capacity : Nat := 8192

/-- A buffer in front of a sink. -/
def ofSink (sink : Sink) : Buffer := ⟨sink, #[]⟩

/-- Hand on what waits. -/
def flush : Buffer → Buffer × Bool
  | ⟨sink, waiting⟩ =>
    let (sink, taken) := sink.put waiting.toList
    (⟨sink, #[]⟩, taken)

/-- Put a piece that fits behind what waits into the buffer, or past the buffer when the piece
alone would fill it. -/
def putFitting : Buffer → Bytes → Buffer × Bool
  | ⟨sink, waiting⟩, piece =>
    if piece.length < capacity then (⟨sink, waiting ++ piece⟩, true)
    else
      let (sink, taken) := sink.put piece
      (⟨sink, waiting⟩, taken)

/-- Put a piece into a buffer. What waits is handed on first if the piece would not fit behind
it, and a piece is not taken when that fails. -/
def put (buffer : Buffer) (piece : Bytes) : Buffer × Bool :=
  if buffer.waiting.size + piece.length ≤ capacity then buffer.putFitting piece
  else
    let (emptied, taken) := buffer.flush
    if taken then emptied.putFitting piece else (emptied, false)

instance : Target Buffer := ⟨put⟩

end Buffer

end OpcodeTable
