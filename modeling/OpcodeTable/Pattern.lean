/-
This file holds the bits that an encoding fixes. A pattern is a mask, the bits that are fixed,
and a value, what they are fixed to. Patterns are gathered by union: fixing a bit again to the
same value changes nothing, and of two different values the one wins.
-/

namespace OpcodeTable

/-- An instruction word. -/
abbrev Word := BitVec 32

/-- Which bits of a word are fixed, and to what. -/
structure Pattern where
  mask : Word
  value : Word
  deriving DecidableEq, Repr

namespace Pattern

/-- The pattern that fixes nothing. -/
def free : Pattern := ⟨0, 0⟩

/-- The bits that either pattern fixes. -/
def union (first second : Pattern) : Pattern :=
  ⟨first.mask ||| second.mask, first.value ||| second.value⟩

instance : Union Pattern := ⟨union⟩

end Pattern

end OpcodeTable
