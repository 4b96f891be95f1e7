/-
This file writes records one per line. A line and its ending are two pieces, and a record
counts once both are taken; what a failed record has left in the target stays there.
-/

import OpcodeTable.Output.Layout
import OpcodeTable.Output.Sink

namespace OpcodeTable

open Text

/-- A target, the layout it is written in, and the number of records it has taken. -/
structure Writer (σ : Type) where
  target : σ
  layout : Layout
  count : Nat
  deriving DecidableEq, Repr

namespace Writer

variable {σ : Type}

/-- A writer that has written nothing. -/
def start (target : σ) (layout : Layout) : Writer σ := ⟨target, layout, 0⟩

/-- Write a record. The answer says whether all of its line was taken. -/
def write [Target σ] : Writer σ → Record → Writer σ × Bool
  | ⟨target, layout, count⟩, record =>
    let (target, taken) := Target.put target (encodeUtf8 (layout.line record))
    if taken then
      let (target, taken) := Target.put target (encodeUtf8 ['\n'])
      if taken then (⟨target, layout, count + 1⟩, true) else (⟨target, layout, count⟩, false)
    else (⟨target, layout, count⟩, false)

end Writer

end OpcodeTable
