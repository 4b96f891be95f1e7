/-
This file shows events to the user, one line each. How much is shown is set from outside or by
the verbose flag, and what is set from outside wins. A message may hold characters that steer a
terminal, since names of instructions are free text; in the log they stand by their number. The
output can go to the same place as the log, so an event is noted together with how much of the
output had arrived before it.
-/

import OpcodeTable.Event
import OpcodeTable.Text.Utf8

namespace OpcodeTable

open Text

/-! ### Thresholds -/

/-- The threshold that a word names; a word that names none lets errors through only, and the
word for silence nothing. Only the names of levels are meant: a setting can also give a level by its
number, or choose by the origin of an event, and such settings are not read here. -/
def Level.ofSetting (word : String) : Option Level :=
  match String.ofList (word.toList.map Char.toLower) with
  | "off" => none
  | "warn" => some .warn
  | "info" => some .info
  | "debug" => some .debug
  | "trace" => some .trace
  | _ => some .error

/-- The threshold of a run. -/
def threshold (setting : Option String) (verbose : Bool) : Option Level :=
  match setting with
  | some word => Level.ofSetting word
  | none => if verbose then some .debug else some .warn

/-- Whether a log with a threshold shows an event; without one it shows none. -/
def Event.isShown (threshold : Option Level) (event : Event) : Bool :=
  threshold.any fun level => event.level ≤ level

/-! ### Lines -/

/-- The control characters that a terminal takes for the beginning of a command. -/
def steering : List Char := ['\x07', '\x08', '\x0c', '\x1b', '\x7f']

/-- A character of a message as the log shows it. -/
def shownChar (c : Char) : List Char :=
  if c ∈ steering then '\\' :: 'x' :: paddedHex 2 c.toNat
  else if 0x80 ≤ c.toNat ∧ c.toNat ≤ 0x9F then
    ['\\', 'u', '\x7b'] ++ hex c.toNat ++ ['\x7d']
  else [c]

/-- The line of an event in the log. -/
def Event.line (event : Event) : List Char :=
  event.level.name.toList ++ ' ' :: event.origin.toList ++ ':' :: ' '
    :: event.message.flatMap shownChar

/-! ### Entries -/

/-- An event, and the number of bytes of the output that had arrived before it. -/
structure Entry where
  event : Event
  arrived : Nat
  deriving DecidableEq, Repr

/-- The lines of a log, and between them the bytes of an output of which some have passed
already. -/
def weave (passed : Nat) (output : Bytes) : List Entry → Bytes
  | [] => output
  | ⟨event, arrived⟩ :: later =>
    output.take (arrived - passed) ++ encodeUtf8 (event.line ++ ['\n'])
      ++ weave arrived (output.drop (arrived - passed)) later

/-- Without an output there are the lines alone. -/
theorem weave_nil (passed : Nat) (log : List Entry) :
    weave passed [] log = log.flatMap fun entry => encodeUtf8 (entry.event.line ++ ['\n']) := by
  induction log generalizing passed with
  | nil => rfl
  | cons entry later inductionHypothesis =>
    simp [weave, inductionHypothesis]

end OpcodeTable
