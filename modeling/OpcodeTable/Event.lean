/-
This file holds what is worth telling about a run while it goes on. An event says what happened
as data; its level, the part of the program it is reported under and its wording follow from
that.
-/

import OpcodeTable.FixedPart
import OpcodeTable.Line
import OpcodeTable.Record
import OpcodeTable.Text.Quoted

namespace OpcodeTable

open Text

/-! ### Levels -/

/-- How much an event matters, the gravest first. -/
inductive Level where
  | error
  | warn
  | info
  | debug
  | trace
  deriving DecidableEq, Repr

namespace Level

/-- The place of a level in the order. -/
def depth : Level → Nat
  | .error => 0
  | .warn => 1
  | .info => 2
  | .debug => 3
  | .trace => 4

/-- One level is below another if it is as grave or graver. -/
instance : LE Level := ⟨fun one other => one.depth ≤ other.depth⟩

instance (one other : Level) : Decidable (one ≤ other) :=
  inferInstanceAs (Decidable (one.depth ≤ other.depth))

/-- The name of a level in the log. -/
def name : Level → String
  | .error => "ERROR"
  | .warn => "WARN"
  | .info => "INFO"
  | .debug => "DEBUG"
  | .trace => "TRACE"

end Level

/-! ### Events -/

/-- Something that happened while a table was read. -/
inductive Event where
  /-- A line was sorted into its kind. -/
  | classified (kind : LineKind) (line : String)
  /-- The literal of a part lost bits that its range has no room for. -/
  | clipped (part : FixedPart)
  /-- The low half of a field was dropped for want of a high half. -/
  | orphaned (base : String)
  /-- A record was made. -/
  | assembled (record : Record)
  /-- A whole input was read without a fault. -/
  | finished (source : String) (records : Nat)
  deriving DecidableEq, Repr

namespace Event

def level : Event → Level
  | .classified _ _ => .trace
  | .clipped _ => .warn
  | .orphaned _ => .warn
  | .assembled _ => .debug
  | .finished _ _ => .info

/-- What the event is reported under. -/
def origin : Event → String
  | .classified _ _ => "optable::assembler"
  | .clipped _ => "optable::encoder"
  | .orphaned _ => "optable::normalize"
  | .assembled _ => "optable::assembler"
  | .finished _ _ => "optable"

/-- The wording of an event. -/
def message : Event → List Char
  | .classified kind line => kind.name.toList ++ [':', ' '] ++ line.toList
  | .clipped part =>
    "value 0x".toList ++ hex part.literal.toNat ++ " does not fit in bits ".toList
      ++ part.range.text ++ ", keeping 0x".toList ++ hex part.kept.toNat
  | .orphaned base =>
    "field '".toList ++ base.toList ++ "lo' has no matching '".toList ++ base.toList
      ++ "hi' half, dropping it".toList
  | .assembled record =>
    record.name.toList ++ ": mask=0x".toList ++ paddedHex 8 record.mask.toNat
      ++ " value=0x".toList ++ paddedHex 8 record.value.toNat
      ++ " width=".toList ++ decimal record.width.bits
      ++ " fields=[".toList ++ QuoteStyle.source.quoteAll [',', ' '] record.fields ++ [']']
  | .finished source records =>
    source.toList ++ ": ".toList ++ decimal records ++ " records".toList

end Event

end OpcodeTable
