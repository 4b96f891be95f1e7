/-
This file is the run of the command line: read the catalog, read the whole input, create the
output, write the records. Each stage begins when the one before it has succeeded, so a run that
cannot read what it needs leaves the output alone, and a run whose output is its own input has
the old content in hand. Records that were written before a fault of the table stay written.
What the run finds is a value here, and so is everything that it leaves behind.
-/

import OpcodeTable.Command.Log
import OpcodeTable.Command.Settings
import OpcodeTable.Output.Writer

namespace OpcodeTable

open Text

/-! ### Writing the records -/

/-- What was noted and written on the way through the lines, and why the way ended early if it
did. -/
structure Production where
  log : List Entry
  writer : Writer Buffer
  failure : Option Failure

namespace Production

/-- Entries that came before. -/
def after (log : List Entry) (production : Production) : Production :=
  ⟨log ++ production.log, production.writer, production.failure⟩

/-- The entries of events that are reported while the output stands as it does. -/
def note (writer : Writer Buffer) (events : List Event) : List Entry :=
  events.map fun event => ⟨event, writer.target.sink.held.size⟩

/-- Write the records of the lines, the first of which has the given number. The refusal is what
is said of bytes that are not taken. -/
def ofLines (catalog : Catalog) (rules : Rules) (file : String) (refusal : FileFault)
    (number : Nat) : List String → Writer Buffer → Production
  | [], writer => ⟨[], writer, none⟩
  | line :: later, writer =>
    let read := assembleLine catalog rules line
    let log := note writer read.events
    match read.outcome with
    | .error fault => ⟨log, writer, some (.table ⟨file, number, line, fault⟩)⟩
    | .ok none => (ofLines catalog rules file refusal (number + 1) later writer).after log
    | .ok (some record) =>
      let (writer, taken) := writer.write record
      if taken then (ofLines catalog rules file refusal (number + 1) later writer).after log
      else ⟨log, writer, some (.recordNotWritten refusal)⟩

/-- Hand on what the output still owes, unless it has refused a record already. What it owes
counts before a fault of the table. -/
def finish (file : String) (refusal : FileFault) (production : Production) : Production :=
  match production.failure with
  | some (.recordNotWritten fault) =>
    ⟨production.log, production.writer, some (.recordNotWritten fault)⟩
  | failure =>
    let (buffer, taken) := production.writer.target.flush
    let writer := ⟨buffer, production.writer.layout, production.writer.count⟩
    if !taken then ⟨production.log, writer, some (.outputNotWritten refusal)⟩
    else if failure.isSome then ⟨production.log, writer, failure⟩
    else ⟨production.log ++ note writer [.finished file writer.count], writer, none⟩

/-- Write the records of a text to something that has room for so many bytes and refuses the others.
Without a limit there is nothing to refuse. -/
def ofText (settings : Settings) (file text : String) (limit? : Option Limit) : Production :=
  let sink := Sink.empty (limit?.map Limit.room)
  let refusal := (limit?.map Limit.refusal).getD .noSpace
  (ofLines settings.catalog settings.rules file refusal 1 (lines text)
    (.start (.ofSink sink) settings.layout)).finish file refusal

/-- What the sink has taken. -/
def written (production : Production) : Bytes := production.writer.target.sink.held.toList

end Production

/-! ### Runs -/

/-- Where the records of a run go. -/
inductive Destination where
  | standardOutput
  | standardError
  | file (name : String)
  deriving DecidableEq, Repr

/-- Where the bytes go that are put into an open name. -/
def Files.destination (files : Files) (name : String) (place : Place) : Destination :=
  match files.node? place with
  | some (.device .standardOutput) => .standardOutput
  | some (.device .standardError) => .standardError
  | _ => .file name

/-- What a run leaves behind. -/
structure Outcome where
  /-- The log of the run, or those entries of it that are shown. -/
  log : List Entry
  failure : Option Failure
  destination : Destination
  written : Bytes
  files : Files

namespace Outcome

/-- Nothing was written. -/
def failed (files : Files) (failure : Failure) : Outcome :=
  ⟨[], some failure, .standardOutput, [], files⟩

/-- Leave out of the log what a threshold does not show. -/
def shown (threshold : Option Level) (outcome : Outcome) : Outcome :=
  { outcome with log := outcome.log.filter fun entry => entry.event.isShown threshold }

/-- A run that has failed exits with one and every other run with zero. -/
def exitCode (outcome : Outcome) : Nat := if outcome.failure.isSome then 1 else 0

/-- What the run has written to a destination. -/
def writtenTo (destination : Destination) (outcome : Outcome) : Bytes :=
  if outcome.destination = destination then outcome.written else []

/-- What appears on the standard output. -/
def standardOutput (outcome : Outcome) : Bytes := outcome.writtenTo .standardOutput

/-- What appears on the standard error: the log, between its lines the records if they go there,
and then the report of the failure. -/
def standardError (outcome : Outcome) : Bytes :=
  weave 0 (outcome.writtenTo .standardError) outcome.log
    ++ outcome.failure.toList.flatMap fun failure =>
      (lines failure.report).flatMap fun line => encodeUtf8 (line.toList ++ ['\n'])

end Outcome

/-- Read the whole input, and name it. -/
def Settings.readInput (settings : Settings) (world : World) :
    Except Failure (String × String) :=
  match settings.input with
  | some file =>
    ((world.readText file).mapError (.inputUnreadable file)).map fun read => (file, read.1)
  | none =>
    (world.drainText.mapError .standardInputUnreadable).map fun read => ("<stdin>", read.1)

/-- Run with settings. -/
def Settings.run (settings : Settings) (world : World) : Outcome :=
  match settings.readInput world with
  | .error failure => .failed world.files failure
  | .ok (file, text) =>
    match settings.output with
    | none =>
      let production := Production.ofText settings file text world.standardOutput
      ⟨production.log, production.failure, .standardOutput, production.written, world.files⟩
    | some name =>
      match world.files.create name with
      | .error fault => .failed world.files (.outputNotCreated name fault)
      | .ok (files, place) =>
        let limit? := files.limit? world.standardOutput place
        let production := Production.ofText settings file text limit?
        ⟨production.log, production.failure, files.destination name place, production.written,
          files.fill place production.written⟩

/-- Run with arguments. The whole log is kept. -/
def Arguments.run (arguments : Arguments) (world : World) : Outcome :=
  match arguments.resolve world with
  | .error failure => .failed world.files failure
  | .ok (settings, world) => settings.run world

/-! ### Command lines -/

/-- What a command line comes to: an answer about usage, or a run. -/
inductive Response where
  | usage (usage : Usage)
  | outcome (outcome : Outcome)

/-- The text that tells the version. -/
def versionText : List Char := "optable 0.4.0\n".toList

/-- Run a command line. The log setting is what the environment says about the log, if it says
anything. Nobody asks whether all of the version was taken. -/
def runCommand (arguments : List String) (logSetting : Option String) (world : World) :
    Response :=
  match Arguments.parse arguments with
  | .error .version =>
    let told := admitted world.standardOutput (encodeUtf8 versionText)
    .outcome ⟨[], none, .standardOutput, told, world.files⟩
  | .error usage => .usage usage
  | .ok arguments =>
    .outcome ((arguments.run world).shown (threshold logSetting arguments.verbose))

/-- The exit code of an answer about usage. -/
def Usage.exitCode : Usage → Nat
  | .help => 0
  | .version => 0
  | _ => 2

end OpcodeTable
