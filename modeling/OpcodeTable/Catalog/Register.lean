/-
This file builds catalogs with a table beside the list of names, in which the place of a name is
looked up instead of searched for. Names are entered one after the other, each behind those
before it, and a name that has a place already is refused.
-/

import Mathlib.Init
import OpcodeTable.Catalog

namespace OpcodeTable

/-- Names in the order in which they were entered, and the place of each. -/
structure Register where
  names : List String
  places : Std.HashMap String Nat

namespace Register

/-- A register without names. -/
def blank : Register := ⟨[], ∅⟩

/-- Enter a name behind the others. One that has a place already is refused. -/
def enter (register : Register) (name : String) : Except RepeatedField Register :=
  if register.places.contains name then .error ⟨name⟩
  else .ok ⟨register.names ++ [name], register.places.insert name register.names.length⟩

/-- Enter names one after the other, up to the first that is refused. -/
def enterAll (register : Register) : List String → Except RepeatedField Register
  | [] => .ok register
  | name :: later => (register.enter name).bind fun entered => entered.enterAll later

/-- The register of the given names, in their order. -/
def ofNames (names : List String) : Except RepeatedField Register := blank.enterAll names

end Register

end OpcodeTable
