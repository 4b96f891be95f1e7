/-
This file models the files that a run reads and writes. They form a tree: a name is walked
step by step from the working directory, or from the root if it begins with a slash, and every
step but the last has to lead to a directory. A step that leads to a link goes on to where the
link leads, so a walk ends where no link stands; it may follow only so many links.
-/

import OpcodeTable.Command.Node
import OpcodeTable.Text.Runs

namespace OpcodeTable

open Text

/-- The tree, the directory that names are walked from, and how much can be put into files. Of two
entries for one place the earlier counts. A limit is that of a file that was emptied or has just
come into being, and without one a file takes all bytes. -/
structure Files where
  entries : List (Place × Node)
  workingDirectory : Place
  limits : List (Place × Limit)
  deriving DecidableEq, Repr

/-- How far a walk has come, and how many links it has followed. -/
structure Position where
  place : Place
  links : Nat
  deriving DecidableEq, Repr

namespace Files

/-- What stands at a place; the root is always a directory. -/
def node? (files : Files) (place : Place) : Option Node :=
  if place = [] then some .directory else files.entries.lookup place

/-- Put something at a place. -/
def set (files : Files) (place : Place) (node : Node) : Files :=
  ⟨(place, node) :: files.entries, files.workingDirectory, files.limits⟩

/-! ### Names -/

/-- The steps of a name. -/
def steps (name : String) : List String := (runs (· = '/') name.toList).map String.ofList

/-- Where the walk of a name begins. -/
def origin (files : Files) (name : String) : Place :=
  if name.toList.head? = some '/' then [] else files.workingDirectory

/-- Whether a name ends in a slash, and so can only mean a directory. -/
def endsInSlash (name : String) : Bool := name.toList.getLast? = some '/'

/-- The longest name that can be walked, in bytes. -/
def maxName : Nat := 4095

/-- What is wrong with a name wherever it leads. -/
def nameFault? (name : String) : Option FileFault :=
  if '\x00' ∈ name.toList then some .nulInName
  else if name.isEmpty then some .notFound
  else if maxName < name.utf8ByteSize then some .nameTooLong
  else none

/-! ### Walking -/

/-- The longest step that a directory can hold, in bytes. -/
def maxStep : Nat := 255

/-- The most links that one walk can follow. -/
def maxLinks : Nat := 40

/-- Go on to where a link leads if one has been reached. -/
def follow (files : Files) (position : Position) : Except FileFault Position :=
  match files.node? position.place with
  | some (.link target hops) =>
    if maxLinks < position.links + hops then .error .tooManyLinks
    else .ok ⟨target, position.links + hops⟩
  | _ => .ok position

/-- Take one step from a directory. Whether anything stands where it leads is not asked. -/
def enter (files : Files) (position : Position) (step : String) : Except FileFault Position :=
  if step = "." then .ok position
  else if step = ".." then .ok ⟨position.place.dropLast, position.links⟩
  else files.follow ⟨position.place ++ [step], position.links⟩

/-- Take one step. -/
def step (files : Files) (position : Position) (step : String) : Except FileFault Position :=
  match files.node? position.place with
  | some .directory =>
    if maxStep < step.utf8ByteSize then .error .nameTooLong else files.enter position step
  | some (.closedDirectory _) => files.enter position step
  | some _ => .error .notDirectory
  | none => .error .notFound

/-- Take all steps. -/
def walk (files : Files) (place : Place) (steps : List String) : Except FileFault Place :=
  (steps.foldlM files.step ⟨place, 0⟩).map Position.place

/-- Where steps lead that begin where the walk of a name begins. -/
def locate (files : Files) (name : String) (steps : List String) : Except FileFault Place :=
  match nameFault? name with
  | some fault => .error fault
  | none => files.walk (files.origin name) steps

/-! ### Reading -/

/-- What a name leads to. -/
def find (files : Files) (name : String) : Except FileFault Node := do
  let place ← files.locate name (steps name)
  match files.node? place with
  | none => .error .notFound
  | some node => if endsInSlash name && !node.isDirectory then .error .notDirectory else .ok node

/-- What reading a name gives. -/
def read (files : Files) (name : String) : Except FileFault Bytes :=
  files.find name >>= Node.content

/-! ### Writing -/

/-- The files after bytes were put into an open one. Only a file keeps them. -/
def fill (files : Files) (place : Place) (content : Bytes) : Files :=
  match files.node? place with
  | some (.file _) => files.set place (.file content)
  | _ => files

/-- Let a file come into being where nothing stands. -/
def make (files : Files) (place : Place) : Except FileFault Files :=
  match files.node? place.dropLast with
  | some (.closedDirectory refusal) => .error refusal
  | _ => .ok (files.set place (.file []))

/-- Open what stands at a place for writing. What a file held is lost. -/
def openAt (files : Files) (place : Place) : Except FileFault Files :=
  match files.node? place with
  | none => files.make place
  | some node =>
    match node.closedBy? with
    | some fault => .error fault
    | none => .ok (files.fill place [])

/-- Open a name for writing; what is missing comes into being. The answer says where the name
leads. Of a name that ends in a slash the last step is not taken: what it leads to could only be
a directory. -/
def create (files : Files) (name : String) : Except FileFault (Files × Place) := do
  if endsInSlash name then
    let _ ← files.locate name ((steps name).dropLast ++ ["."])
    .error .isDirectory
  else
    let place ← files.locate name (steps name)
    return (← files.openAt place, place)

/-- How much can be put into what stands open at a place, if not everything. The standard output is
not the tree's, so its limit has to be told. -/
def limit? (files : Files) (standardOutput : Option Limit) (place : Place) : Option Limit :=
  match files.node? place with
  | some (.file _) => files.limits.lookup place
  | some (.device .standardOutput) => standardOutput
  | some node => node.refusal?.map fun refusal => ⟨0, refusal⟩
  | none => none

end Files

end OpcodeTable
