/-
This file reads the arguments of the command line. They are taken one by one from left to
right. A value in an argument of its own, the input among them, stays pending until the next
item begins, and only then is it checked and entered; so a bad value, or a second one for the
same item, is refused when the next item begins, or at the end. A value that is attached to its
item is entered at once. An argument that is no item at all is refused at once, whatever is
pending.
-/

import OpcodeTable.Output.Layout
import OpcodeTable.Text.Split

namespace OpcodeTable

open Text

/-! ### What can be said -/

/-- Why the arguments ask for no run. -/
inductive Usage where
  /-- A value is missing, empty or none of the known ones. -/
  | invalidValue
  /-- There is no such item, or no place for one more value. -/
  | unknownArgument
  /-- An item is given twice. -/
  | argumentConflict
  /-- A flag is given a value. -/
  | tooManyValues
  | help
  | version
  deriving DecidableEq, Repr

/-- The items that have a value. -/
inductive Slot where
  | input
  | output
  | layout
  | fields
  deriving DecidableEq, Repr

/-- The items that have none. -/
inductive Flag where
  | wide
  | verbose
  | help
  | version
  deriving DecidableEq, Repr

/-- What a dash may introduce. -/
inductive Item where
  | slot (slot : Slot)
  | flag (flag : Flag)
  deriving DecidableEq, Repr

namespace Item

/-- The item with a long name; names are not abbreviated. -/
def ofName? (name : List Char) : Option Item :=
  match String.ofList name with
  | "output" => some (.slot .output)
  | "format" => some (.slot .layout)
  | "fields" => some (.slot .fields)
  | "wide" => some (.flag .wide)
  | "verbose" => some (.flag .verbose)
  | "help" => some (.flag .help)
  | "version" => some (.flag .version)
  | _ => none

/-- The item with a letter. -/
def ofLetter? : Char → Option Item
  | 'o' => some (.slot .output)
  | 'f' => some (.slot .layout)
  | 'v' => some (.flag .verbose)
  | 'h' => some (.flag .help)
  | 'V' => some (.flag .version)
  | _ => none

end Item

/-- The layout that a value names. -/
def Layout.ofName? : String → Option Layout
  | "rust" => some .source
  | "json" => some .json
  | _ => none

/-- Everything that arguments may say. -/
structure Arguments where
  input : Option String
  output : Option String
  layout : Option Layout
  fields : Option String
  wide : Bool
  verbose : Bool
  deriving DecidableEq, Repr

namespace Arguments

/-- Arguments that say nothing. -/
def empty : Arguments := ⟨none, none, none, none, false, false⟩

/-! ### Entering items -/

/-- Fill a place that is still free with the name of a file, which must not be empty. -/
def fillName (place : Option String) (name : String) : Except Usage (Option String) :=
  if place.isSome then .error .argumentConflict
  else if name.isEmpty then .error .invalidValue
  else .ok (some name)

/-- Fill the place of the layout if it is still free. -/
def fillLayout (place : Option Layout) (name : String) : Except Usage (Option Layout) :=
  if place.isSome then .error .argumentConflict
  else
    match Layout.ofName? name with
    | none => .error .invalidValue
    | some layout => .ok (some layout)

/-- Enter a value. -/
def enter (arguments : Arguments) (slot : Slot) (value : String) : Except Usage Arguments :=
  match slot with
  | .input => return { arguments with input := ← fillName arguments.input value }
  | .output => return { arguments with output := ← fillName arguments.output value }
  | .layout => return { arguments with layout := ← fillLayout arguments.layout value }
  | .fields => return { arguments with fields := ← fillName arguments.fields value }

/-- Enter a flag. Asking for help or the version ends the reading. -/
def raise (arguments : Arguments) (flag : Flag) : Except Usage Arguments :=
  match flag with
  | .wide =>
    if arguments.wide then .error .argumentConflict else .ok { arguments with wide := true }
  | .verbose =>
    if arguments.verbose then .error .argumentConflict
    else .ok { arguments with verbose := true }
  | .help => .error .help
  | .version => .error .version

/-! ### Reading from left to right -/

/-- How far the reading has come: what is entered, the item that is pending with the value it
has so far, and whether two dashes have declared everything that follows an input. -/
structure Progress where
  entered : Arguments
  pending : Option (Slot × Option String)
  inputsOnly : Bool
  deriving DecidableEq, Repr

namespace Progress

/-- Enter what is pending. -/
def settle (progress : Progress) : Except Usage Progress :=
  match progress.pending with
  | none => .ok progress
  | some (_, none) => .error .invalidValue
  | some (slot, some value) =>
    return { progress with entered := ← progress.entered.enter slot value, pending := none }

/-- Begin a flag. -/
def begin (progress : Progress) (flag : Flag) : Except Usage Progress := do
  let settled ← progress.settle
  return { settled with entered := ← settled.entered.raise flag }

/-- Begin an item with a value. A value that is attached to the item is entered at once, and
without one the next argument is waited for. -/
def await (progress : Progress) (slot : Slot) (attached : Option (List Char)) :
    Except Usage Progress := do
  let settled ← progress.settle
  match attached with
  | none => return { settled with pending := some (slot, none) }
  | some value =>
    return { settled with entered := ← settled.entered.enter slot (String.ofList value) }

/-- The value that is attached to a letter: what follows it, less an equals sign. -/
def attachedTo : List Char → Option (List Char)
  | [] => none
  | '=' :: value => some value
  | value => some value

/-- Read the letters behind a single dash. -/
def letters (progress : Progress) : List Char → Except Usage Progress
  | [] => .ok progress
  | letter :: rest =>
    match Item.ofLetter? letter with
    | none => .error .unknownArgument
    | some (.slot slot) => progress.await slot (attachedTo rest)
    | some (.flag flag) => do
      let progress ← progress.begin flag
      progress.letters rest

/-- Read what stands behind two dashes. -/
def long (progress : Progress) (text : List Char) : Except Usage Progress :=
  let (name, attached) :=
    match splitFirst? ['='] text with
    | none => (text, none)
    | some (name, value) => (name, some value)
  match Item.ofName? name with
  | none => .error .unknownArgument
  | some (.slot slot) => progress.await slot attached
  | some (.flag flag) => if attached.isSome then .error .tooManyValues else progress.begin flag

/-- Whether an input is entered or pending. -/
def hasInput (progress : Progress) : Bool :=
  progress.entered.input.isSome || progress.pending.any (·.1 = .input)

/-- Read an input; there is place for one. -/
def input (progress : Progress) (value : String) : Except Usage Progress :=
  if progress.hasInput then .error .unknownArgument
  else return { ← progress.settle with pending := some (.input, some value) }

/-- Read an argument that is no item: the value that is waited for, or an input. -/
def value (progress : Progress) (value : String) : Except Usage Progress :=
  match progress.pending with
  | some (slot, none) => .ok { progress with pending := some (slot, some value) }
  | _ => progress.input value

/-- Read one argument. -/
def read (progress : Progress) (argument : String) : Except Usage Progress :=
  if progress.inputsOnly then progress.input argument
  else
    match argument.toList with
    | ['-', '-'] => .ok { progress with inputsOnly := true }
    | '-' :: '-' :: text => progress.long text
    | '-' :: first :: rest => progress.letters (first :: rest)
    | _ => progress.value argument

end Progress

/-- Read the arguments of a command line, without the name of the program. -/
def parse (arguments : List String) : Except Usage Arguments := do
  let progress ← arguments.foldlM Progress.read ⟨empty, none, false⟩
  return (← progress.settle).entered

end Arguments

end OpcodeTable
