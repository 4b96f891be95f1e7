/-
This file holds the bit ranges that a fixed part names: two indexes, the higher one first, or a
single bit. A range keeps its ends in order by construction. What is read from a table names
bits of a 32-bit word only, so an index above 31 is refused; an index that no 32-bit number can
hold is not called too high but malformed.
-/

import OpcodeTable.Text.Numeral
import OpcodeTable.Text.Split

namespace OpcodeTable

open Text

/-- A run of bits, both ends included, or a single bit. -/
inductive BitRange where
  | span (hi lo : Nat) (ordered : lo ≤ hi)
  | bit (index : Nat)
  deriving DecidableEq, Repr

/-- Why a text is no bit range. -/
inductive BitRangeFault where
  | notIndex (text : String)
  | tooHigh (index : Nat)
  | reversed (hi lo : Nat)
  deriving DecidableEq, Repr

namespace BitRange

/-- The highest bit that a table may fix. -/
def maxIndex : Nat := 31

/-! ### The bits of a range -/

def hi : BitRange → Nat
  | .span hi _ _ => hi
  | .bit index => index

def lo : BitRange → Nat
  | .span _ lo _ => lo
  | .bit index => index

/-- The number of bits in the range. -/
def width (range : BitRange) : Nat := range.hi - range.lo + 1

/-- Whether a bit lies in the range. -/
def Covers (range : BitRange) (index : Nat) : Prop := range.lo ≤ index ∧ index ≤ range.hi

instance (range : BitRange) (index : Nat) : Decidable (range.Covers index) :=
  inferInstanceAs (Decidable (_ ∧ _))

theorem lo_le_hi (range : BitRange) : range.lo ≤ range.hi := by
  cases range with
  | span hi lo ordered => exact ordered
  | bit index => exact Nat.le_refl index

/-! ### Text -/

/-- The range as a table writes it, without leading zeros. -/
def text : BitRange → List Char
  | .span hi lo _ => decimal hi ++ ['.', '.'] ++ decimal lo
  | .bit index => decimal index

/-- Read one index. -/
def parseIndex (text : List Char) : Except BitRangeFault Nat :=
  match digitsValue? 10 text with
  | none => .error (.notIndex (String.ofList text))
  | some index =>
    if text.isEmpty || UInt32.size ≤ index then .error (.notIndex (String.ofList text))
    else if maxIndex < index then .error (.tooHigh index)
    else .ok index

/-- Read a range: two indexes with two dots between them, or one index. -/
def parse (text : List Char) : Except BitRangeFault BitRange :=
  match splitFirst? ['.', '.'] text with
  | none => (parseIndex text).map .bit
  | some (upper, lower) => do
    let hi ← parseIndex upper
    let lo ← parseIndex lower
    if ordered : lo ≤ hi then .ok (.span hi lo ordered) else .error (.reversed hi lo)

end BitRange

/-- The wording of a refused bit range. -/
def BitRangeFault.message : BitRangeFault → String
  | .notIndex text => "invalid bit index '" ++ text ++ "'"
  | .tooHigh index =>
    "bit index " ++ String.ofList (decimal index) ++ " is out of range (max "
      ++ String.ofList (decimal BitRange.maxIndex) ++ ")"
  | .reversed hi lo =>
    "range " ++ String.ofList (decimal hi) ++ ".." ++ String.ofList (decimal lo) ++ " is reversed"

end OpcodeTable
