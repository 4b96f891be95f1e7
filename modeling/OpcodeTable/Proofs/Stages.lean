/-
This file is about the stages of a run before its first record: the catalog is loaded, the whole
input is read, the output is opened. Each begins when the one before it has succeeded, and each is
a look at the world as the run finds it, since reading takes from the standard input and changes
nothing else. So a run either is stopped in one of the three, and has written nothing and leaves the
files as they were, or it writes the records of the input's text to an open output.
-/

import OpcodeTable.Proofs.Delivery
import OpcodeTable.Proofs.Sequence
import OpcodeTable.Proofs.Tree

namespace OpcodeTable

open Text

/-! ### Reading changes only the standard input -/

namespace World

variable {world left : World} {name text : String}

theorem eq_of_read {bytes : Bytes} (read : world.read name = .ok (bytes, left)) :
    left = { world with standardInput := left.standardInput } := by
  obtain ⟨node, found, read⟩ := bind_eq_ok_iff.mp read
  split at read
  · rw [← (Prod.mk.inj (Except.ok.inj read)).2]
  · obtain ⟨content, _, read⟩ := bind_eq_ok_iff.mp read
    rw [← (Prod.mk.inj (Except.ok.inj read)).2]

theorem eq_of_decode {bytes : Bytes} (decoded : decode (bytes, world) = .ok (text, left)) :
    left = world := by
  unfold decode at decoded
  dsimp only at decoded
  split at decoded
  · exact (Prod.mk.inj (Except.ok.inj decoded)).2.symm
  · cases decoded

theorem eq_of_readText (read : world.readText name = .ok (text, left)) :
    left = { world with standardInput := left.standardInput } := by
  obtain ⟨⟨bytes, behind⟩, read, decoded⟩ := bind_eq_ok_iff.mp read
  obtain rfl := eq_of_decode decoded
  exact eq_of_read read

/-! ### Reading texts -/

theorem decode_encodeUtf8 (text : String) (world : World) :
    decode (encodeUtf8 text.toList, world) = .ok (text, world) := by
  unfold decode
  dsimp only
  rw [decodeUtf8?_encodeUtf8, String.ofList_toList]

theorem readText_of_find_file
    (found : world.files.find name = .ok (.file (encodeUtf8 text.toList))) :
    world.readText name = .ok (text, world) := by
  unfold readText
  rw [read_of_find_file found]
  exact decode_encodeUtf8 text world

end World

namespace Settings

variable {settings : Settings} {world left : World} {file text : String}

theorem readInput_of_named (named : settings.input = some file)
    (read : world.readText file = .ok (text, left)) :
    settings.readInput world = .ok (file, text) := by
  unfold readInput
  rw [named]
  dsimp only
  rw [read]
  rfl

theorem readInput_of_unnamed (unnamed : settings.input = none)
    (read : world.drainText = .ok (text, left)) :
    settings.readInput world = .ok ("<stdin>", text) := by
  unfold readInput
  rw [unnamed]
  dsimp only
  rw [read]
  rfl

end Settings

/-! ### The settings of a run -/

namespace Arguments

/-- The settings that arguments stand for when they name this catalog. -/
def settingsWith (arguments : Arguments) (catalog : Catalog) : Settings where
  input := arguments.input.filter (· ≠ "-")
  output := arguments.output
  layout := arguments.layout.getD .source
  rules := if arguments.wide then .wide else .mixed
  catalog := catalog
  verbose := arguments.verbose

variable {arguments : Arguments} {world left : World}

theorem resolve_eq (arguments : Arguments) (world : World) :
    arguments.resolve world =
      (arguments.loadCatalog world).map fun (catalog, left) =>
        (arguments.settingsWith catalog, left) := by
  unfold resolve
  cases arguments.loadCatalog world <;> rfl

theorem eq_of_loadCatalog {catalog : Catalog}
    (loaded : arguments.loadCatalog world = .ok (catalog, left)) :
    left = { world with standardInput := left.standardInput } := by
  unfold loadCatalog at loaded
  split at loaded
  · rw [← (Prod.mk.inj (Except.ok.inj loaded)).2]
  · obtain ⟨⟨text, behind⟩, read, loaded⟩ := bind_eq_ok_iff.mp loaded
    obtain ⟨catalog, _, loaded⟩ := bind_eq_ok_iff.mp loaded
    rw [← (Prod.mk.inj (Except.ok.inj loaded)).2]
    exact World.eq_of_readText (mapError_eq_ok_iff.mp read)

theorem files_of_loadCatalog {catalog : Catalog}
    (loaded : arguments.loadCatalog world = .ok (catalog, left)) : left.files = world.files := by
  rw [eq_of_loadCatalog loaded]

theorem standardOutput_of_loadCatalog {catalog : Catalog}
    (loaded : arguments.loadCatalog world = .ok (catalog, left)) :
    left.standardOutput = world.standardOutput := by
  rw [eq_of_loadCatalog loaded]

end Arguments

/-! ### The stages -/

/-- For a run with these arguments the catalog can be loaded and the input be read: these are the
settings, and this is the name and the text of the input. -/
def Reads (arguments : Arguments) (world : World) (settings : Settings) (file text : String) :
    Prop :=
  ∃ catalog left, arguments.loadCatalog world = .ok (catalog, left) ∧
    settings = arguments.settingsWith catalog ∧ settings.readInput left = .ok (file, text)

/-- The output with this name, or the standard output if it has none, can be opened. This is how
much it takes then, if not everything. -/
inductive Opens (world : World) : Option String → Option Limit → Prop
  | unnamed : Opens world none world.standardOutput
  | named {name : String} {opened : Files} {place : Place}
      (created : world.files.create name = .ok (opened, place)) :
      Opens world (some name) (opened.limit? world.standardOutput place)

/-- A run is stopped before its output is open: by its catalog, or else by its input, or else by
its output. -/
inductive Stopped (arguments : Arguments) (world : World) : Failure → Prop
  | catalog {failure : Failure} (failed : arguments.loadCatalog world = .error failure) :
      Stopped arguments world failure
  | input {catalog : Catalog} {left : World} {failure : Failure}
      (loaded : arguments.loadCatalog world = .ok (catalog, left))
      (failed : (arguments.settingsWith catalog).readInput left = .error failure) :
      Stopped arguments world failure
  | output {settings : Settings} {file text name : String} {fault : FileFault}
      (reads : Reads arguments world settings file text) (asked : arguments.output = some name)
      (failed : world.files.create name = .error fault) :
      Stopped arguments world (.outputNotCreated name fault)

variable {arguments : Arguments} {world : World} {settings : Settings} {file text : String}

theorem run_of_loaded {catalog : Catalog} {left : World}
    (loaded : arguments.loadCatalog world = .ok (catalog, left)) :
    arguments.run world = (arguments.settingsWith catalog).run left := by
  unfold Arguments.run
  rw [Arguments.resolve_eq, loaded]
  rfl

/-- A run without a named output writes to the standard output. -/
theorem Reads.run_unnamed (reads : Reads arguments world settings file text)
    (unnamed : arguments.output = none) :
    arguments.run world =
      let production := Production.ofText settings file text world.standardOutput
      ⟨production.log, production.failure, .standardOutput, production.written, world.files⟩ := by
  obtain ⟨catalog, left, loaded, rfl, read⟩ := reads
  have output : (arguments.settingsWith catalog).output = none := unnamed
  rw [run_of_loaded loaded, Settings.run, read]
  simp only [output]
  rw [Arguments.files_of_loadCatalog loaded, Arguments.standardOutput_of_loadCatalog loaded]

/-- A run with a named output fills what the name leads to once it is open. -/
theorem Reads.run_named (reads : Reads arguments world settings file text) {name : String}
    (named : arguments.output = some name) {opened : Files} {place : Place}
    (created : world.files.create name = .ok (opened, place)) :
    arguments.run world =
      let limit? := opened.limit? world.standardOutput place
      let production := Production.ofText settings file text limit?
      ⟨production.log, production.failure, opened.destination name place, production.written,
        opened.fill place production.written⟩ := by
  obtain ⟨catalog, left, loaded, rfl, read⟩ := reads
  have output : (arguments.settingsWith catalog).output = some name := named
  rw [← Arguments.files_of_loadCatalog loaded] at created
  rw [run_of_loaded loaded, Settings.run, read]
  simp only [output, created]
  rw [Arguments.standardOutput_of_loadCatalog loaded]

theorem Stopped.run {failure : Failure} (stopped : Stopped arguments world failure) :
    arguments.run world = .failed world.files failure := by
  cases stopped with
  | catalog failed =>
    unfold Arguments.run
    rw [Arguments.resolve_eq, failed]
    rfl
  | input loaded failed =>
    rw [run_of_loaded loaded, Settings.run, failed]
    simp only [Arguments.files_of_loadCatalog loaded]
  | output reads asked failed =>
    obtain ⟨catalog, left, loaded, rfl, read⟩ := reads
    have output : (arguments.settingsWith catalog).output = some _ := asked
    rw [← Arguments.files_of_loadCatalog loaded] at failed ⊢
    rw [run_of_loaded loaded, Settings.run, read]
    simp only [output, failed]

/-- A run is stopped, or it has read all it needs and its output is open. -/
theorem stopped_or_opens (arguments : Arguments) (world : World) :
    (∃ failure, Stopped arguments world failure) ∨
      ∃ settings file text limit?, Reads arguments world settings file text ∧
        Opens world arguments.output limit? := by
  rcases loaded : arguments.loadCatalog world with failure | ⟨catalog, left⟩
  · exact .inl ⟨failure, .catalog loaded⟩
  · rcases read : (arguments.settingsWith catalog).readInput left with failure | ⟨file, text⟩
    · exact .inl ⟨failure, .input loaded read⟩
    · have reads : Reads arguments world (arguments.settingsWith catalog) file text :=
        ⟨catalog, left, loaded, rfl, read⟩
      cases output : arguments.output with
      | none => exact .inr ⟨_, file, text, _, reads, .unnamed⟩
      | some name =>
        rcases created : world.files.create name with fault | ⟨opened, place⟩
        · exact .inl ⟨_, .output reads output created⟩
        · exact .inr ⟨_, file, text, _, reads, .named created⟩

/-! ### Behind the stages -/

/-- The bytes are what a run has written, and they have gone where its output goes: without a name
to the standard output, and with a name to what it leads to. If that is a file, then the file holds
them and nothing else. -/
def Delivers (files : Files) (output? : Option String) (outcome : Outcome) (bytes : Bytes) :
    Prop :=
  outcome.written = bytes ∧
    match output? with
    | none => outcome.standardOutput = bytes
    | some name => ∃ opened place, files.create name = .ok (opened, place) ∧
        outcome.destination = opened.destination name place ∧
        ∀ old, opened.node? place = some (.file old) →
          outcome.files.node? place = some (.file bytes)

/-- Behind the stages all that a run comes to is what comes of its table, and that goes to its
output. -/
theorem Reads.run (reads : Reads arguments world settings file text) {limit? : Option Limit}
    (opens : Opens world arguments.output limit?) :
    let production := Production.ofText settings file text limit?
    (arguments.run world).log = production.log ∧
      (arguments.run world).failure = production.failure ∧
      Delivers world.files arguments.output (arguments.run world) production.written := by
  intro production
  cases output : arguments.output with
  | none =>
    rw [output] at opens
    cases opens
    rw [reads.run_unnamed output]
    exact ⟨rfl, rfl, rfl, rfl⟩
  | some name =>
    rw [output] at opens
    obtain - | ⟨created⟩ := opens
    rw [reads.run_named output created]
    exact ⟨rfl, rfl, rfl, _, _, created, rfl, fun _ stands => Files.node?_fill stands _⟩

/-! ### Command lines -/

/-- What is shown of a log are its events that the threshold shows. -/
theorem Outcome.events_shown (threshold : Option Level) (outcome : Outcome) :
    (outcome.shown threshold).log.map Entry.event =
      (outcome.log.map Entry.event).filter (Event.isShown threshold) := by
  rw [List.filter_map]
  rfl

theorem Outcome.exitCode_eq_zero_iff {outcome : Outcome} :
    outcome.exitCode = 0 ↔ outcome.failure = none := by
  unfold exitCode
  cases outcome.failure with
  | none => exact iff_of_true rfl rfl
  | some failure => exact iff_of_false Nat.one_ne_zero (Option.some_ne_none _)

theorem Outcome.exitCode_of_failure {outcome : Outcome} {failure : Failure}
    (failed : outcome.failure = some failure) : outcome.exitCode = 1 := by
  unfold exitCode
  rw [failed]
  rfl

/-- The lines of the report stand behind everything else on the standard error. -/
theorem Outcome.standardError_eq (outcome : Outcome) :
    outcome.standardError =
      weave 0 (outcome.writtenTo .standardError) outcome.log ++
        encodeUtf8 (closedLines (outcome.failure.toList.flatMap fun failure =>
          (lines failure.report).map String.toList)) := by
  unfold standardError
  refine congrArg _ ?_
  cases outcome.failure with
  | none => rfl
  | some failure =>
    rw [Option.toList_some, List.flatMap_singleton, List.flatMap_singleton, closedLines,
      List.flatMap_map, encodeUtf8, List.flatMap_assoc]
    rfl

/-- A command line is accepted, what its run needs can be read, and its output can be opened. -/
structure Ready (command : List String) (world : World) (arguments : Arguments)
    (settings : Settings) (file text : String) (limit? : Option Limit) : Prop where
  accepted : Arguments.parse command = .ok arguments
  reads : Reads arguments world settings file text
  opens : Opens world arguments.output limit?

/-- An accepted command line comes to a run, of whose log a part is shown. -/
theorem runCommand_of_accepted {command : List String}
    (accepted : Arguments.parse command = .ok arguments) (logSetting : Option String)
    (world : World) :
    runCommand command logSetting world =
      .outcome ((arguments.run world).shown (threshold logSetting arguments.verbose)) := by
  unfold runCommand
  rw [accepted]

theorem Ready.ends {command : List String} {limit? : Option Limit}
    (ready : Ready command world arguments settings file text limit?)
    (logSetting : Option String) :
    let production := Production.ofText settings file text limit?
    ∃ outcome, runCommand command logSetting world = .outcome outcome ∧
      Delivers world.files arguments.output outcome production.written ∧
      outcome.failure = production.failure ∧
      outcome.log.map Entry.event = (production.log.map Entry.event).filter
        (Event.isShown (threshold logSetting arguments.verbose)) := by
  intro production
  obtain ⟨log, failure, delivers⟩ := ready.reads.run ready.opens
  refine ⟨_, runCommand_of_accepted ready.accepted logSetting world, delivers, failure, ?_⟩
  rw [Outcome.events_shown, log]

end OpcodeTable
