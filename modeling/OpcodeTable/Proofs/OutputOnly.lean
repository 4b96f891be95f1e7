/-
This file says what a command line does to the files. They are read before the output is opened, so
a run that cannot read what it needs leaves them all as they were, and a run whose output is its
own input or its own catalog has their old content in hand and writes what it would write elsewhere.
Behind the opening only the one place is written to that the name of the output leads to. If that
is a file, or nothing was there, then the records are all it holds in the end, or as much of them as
there was room for.
-/

import OpcodeTable.Proofs.Agreement

namespace OpcodeTable

open Text

/-! ### The files after a run -/

/-- The files that a command line leaves behind, when it found the given ones. -/
def Response.files (before : Files) : Response → Files
  | .usage _ => before
  | .outcome left => left.files

/-- The place is the one that the name of the output of these arguments leads to. -/
def Arguments.IsOutput (arguments : Arguments) (files : Files) (place : Place) : Prop :=
  ∃ name, arguments.output = some name ∧ files.locate name (Files.steps name) = .ok place

variable {command : List String} {arguments : Arguments} {world : World} {settings : Settings}
  {file text : String} {place : Place}

theorem Arguments.workingDirectory_run (arguments : Arguments) (world : World) :
    (arguments.run world).files.workingDirectory = world.files.workingDirectory := by
  rcases stopped_or_opens arguments world with ⟨_, stopped⟩ | ⟨_, _, _, _, reads, opens⟩
  · rw [stopped.run]
    rfl
  · cases output : arguments.output with
    | none => rw [reads.run_unnamed output]
    | some name =>
      rw [output] at opens
      obtain - | ⟨created⟩ := opens
      rw [reads.run_named output created]
      exact (Files.workingDirectory_fill ..).trans
        (Files.workingDirectory_openAt (Files.create_eq_ok_iff.mp created).2.2)

/-- A run changes nothing but what stands where the name of its output leads. -/
theorem Arguments.node?_run (apart : ¬ arguments.IsOutput world.files place) :
    (arguments.run world).files.node? place = world.files.node? place := by
  rcases stopped_or_opens arguments world with ⟨_, stopped⟩ | ⟨_, _, _, _, reads, opens⟩
  · rw [stopped.run]
    rfl
  · cases output : arguments.output with
    | none => rw [reads.run_unnamed output]
    | some name =>
      rw [output] at opens
      obtain - | ⟨created⟩ := opens
      obtain ⟨_, found, opened⟩ := Files.create_eq_ok_iff.mp created
      rw [reads.run_named output created]
      have differ : place ≠ _ := fun same => apart ⟨name, output, same ▸ found⟩
      exact (Files.node?_fill_of_ne _ differ _).trans (Files.node?_openAt_of_ne opened differ)

/-! ### The output is a file -/

/-- What is delivered to an output that is a file, or comes into being, stands there. -/
theorem Delivers.node? {outcome : Outcome} {bytes : Bytes}
    (delivers : Delivers world.files arguments.output outcome bytes)
    (output : arguments.IsOutput world.files place)
    (ordinary : ∀ node, world.files.node? place = some node → ∃ old, node = .file old) :
    outcome.files.node? place = some (.file bytes) := by
  obtain ⟨name, output, found⟩ := output
  obtain ⟨_, arrived⟩ := delivers
  rw [output] at arrived
  obtain ⟨opened, _, created, _, filled⟩ := arrived
  obtain ⟨_, foundAgain, ready⟩ := Files.create_eq_ok_iff.mp created
  obtain rfl := Except.ok.inj (found.symm.trans foundAgain)
  exact filled [] (Files.node?_openAt ready ordinary)

/-! ### Another output -/

/-- What is read does not depend on the output. -/
theorem Reads.withOutput (reads : Reads arguments world settings file text)
    (output : Option String) :
    Reads { arguments with output := output } world { settings with output := output }
      file text := by
  obtain ⟨catalog, left, loaded, rfl, read⟩ := reads
  exact ⟨catalog, left, loaded, rfl, read⟩

/-- With room enough, a command line that names another output with room enough leaves the same
behind. -/
theorem Ready.alike {limit? other? : Option Limit}
    (ready : Ready command world arguments settings file text limit?)
    (admits : Admits limit? (Production.owed settings text).length)
    {again : List String} {output : Option String}
    (accepted : Arguments.parse again = .ok { arguments with output := output })
    (opens : Opens world output other?)
    (admitsToo : Admits other? (Production.owed settings text).length)
    {logSetting : Option String} {outcome : Outcome}
    (came : runCommand command logSetting world = .outcome outcome) :
    ∃ other, runCommand again logSetting world = .outcome other ∧
      outcome.log = other.log ∧ outcome.failure = other.failure ∧
      outcome.written = other.written := by
  obtain rfl := Response.outcome.inj ((runCommand_of_accepted ready.accepted ..).symm.trans came)
  obtain ⟨sameLog, sameFailure, sameWritten⟩ := Production.ofText_alike admits admitsToo file
  obtain ⟨log, failure, written, _⟩ := ready.reads.run ready.opens
  obtain ⟨logAgain, failureAgain, writtenAgain, _⟩ := (ready.reads.withOutput output).run opens
  exact ⟨_, runCommand_of_accepted accepted logSetting world,
    congrArg (List.filter _) (log.trans (sameLog.trans logAgain.symm)),
    failure.trans (sameFailure.trans failureAgain.symm),
    written.trans (sameWritten.trans writtenAgain.symm)⟩

/-! ### Command lines -/

/-- A command line that is not accepted changes no file, whether it asks for help, for the version,
or for nothing that there is. -/
theorem files_runCommand_of_rejected {usage : Usage}
    (rejected : Arguments.parse command = .error usage) (logSetting : Option String)
    (world : World) : (runCommand command logSetting world).files world.files = world.files := by
  unfold runCommand
  rw [rejected]
  cases usage <;> rfl

theorem files_runCommand_of_accepted (accepted : Arguments.parse command = .ok arguments)
    (logSetting : Option String) (world : World) :
    (runCommand command logSetting world).files world.files = (arguments.run world).files := by
  rw [runCommand_of_accepted accepted]
  rfl

/-- A command line changes nothing but what stands where the name of its output leads, and nothing
at all unless it is accepted, all it needs can be read, and its output can be opened. Then, if a
file stands there or nothing does, the closed lines of the records in front of the first fault are
what the file holds in the end, or as much of them as it has room for. All this is so wherever the
name leads, be it to what was read; and with the name of another output the same is written and
told, if both have room for the lines. -/
theorem command_changes_only_output (command : List String) (logSetting : Option String)
    (world : World) :
    let files := (runCommand command logSetting world).files world.files
    files.workingDirectory = world.files.workingDirectory ∧
      (∀ place, files.node? place ≠ world.files.node? place →
        ∃ arguments, Arguments.parse command = .ok arguments ∧
          arguments.IsOutput world.files place) ∧
      ((¬ ∃ arguments settings file text limit?,
          Ready command world arguments settings file text limit?) → files = world.files) ∧
      ∀ arguments settings file text limit?,
        Ready command world arguments settings file text limit? →
        let owed := (tableRecords settings.catalog settings.rules (lines text)).flatMap
          settings.layout.closedLine
        (∀ place, arguments.IsOutput world.files place →
          (∀ node, world.files.node? place = some node → ∃ old, node = .file old) →
          files.node? place = some (.file (admitted limit? owed)) ∧
            (Admits limit? owed.length → files.node? place = some (.file owed))) ∧
        ∀ again output other?, Admits limit? owed.length →
          Arguments.parse again = .ok { arguments with output := output } →
          Opens world output other? → Admits other? owed.length →
          ∃ outcome other, runCommand command logSetting world = .outcome outcome ∧
            runCommand again logSetting world = .outcome other ∧
            other.written = outcome.written ∧ other.exitCode = outcome.exitCode ∧
            other.failure = outcome.failure ∧ other.log = outcome.log := by
  intro files
  refine ⟨?_, fun place changed => ?_, fun unready => ?_,
    fun arguments settings file text limit? ready => ⟨fun place output ordinary => ?_,
      fun again output other? admits acceptedAgain opensAgain admitsAgain => ?_⟩⟩
  · cases parsed : Arguments.parse command with
    | error usage => exact congrArg _ (files_runCommand_of_rejected parsed logSetting world)
    | ok arguments =>
      exact (congrArg _ (files_runCommand_of_accepted parsed logSetting world)).trans
        (arguments.workingDirectory_run world)
  · cases parsed : Arguments.parse command with
    | error usage =>
      exact absurd (congrArg (·.node? place)
        (files_runCommand_of_rejected parsed logSetting world)) changed
    | ok arguments =>
      refine ⟨arguments, rfl, Classical.not_not.mp fun apart => changed ?_⟩
      exact (congrArg (·.node? place) (files_runCommand_of_accepted parsed logSetting world)).trans
        (Arguments.node?_run apart)
  · cases parsed : Arguments.parse command with
    | error usage => exact files_runCommand_of_rejected parsed logSetting world
    | ok arguments =>
      have same : files = _ := files_runCommand_of_accepted parsed logSetting world
      rcases stopped_or_opens arguments world with
        ⟨_, stopped⟩ | ⟨settings, file, text, limit?, reads, opens⟩
      · rw [same, stopped.run]
        rfl
      · exact absurd ⟨arguments, settings, file, text, limit?, parsed, reads, opens⟩ unready
  · have came := runCommand_of_accepted ready.accepted logSetting world
    have same : files = _ := congrArg (·.files world.files) came
    have held := (ready.delivers came).node? output ordinary
    rw [same]
    exact ⟨held, fun admits => held.trans (congrArg _ (congrArg _ (admitted_of_admits admits)))⟩
  · have came := runCommand_of_accepted ready.accepted logSetting world
    obtain ⟨other, cameAgain, log, failure, written⟩ :=
      ready.alike admits acceptedAgain opensAgain admitsAgain came
    refine ⟨_, other, came, cameAgain, written.symm, ?_, failure.symm, log.symm⟩
    unfold Outcome.exitCode
    rw [failure]

/-- A table that is overwritten with its own record, just as another file would be filled with it;
and the same command line with both outputs, which is not accepted. -/
theorem command_changes_only_output_own_input :
    let arguments := { fileArguments with output := some "in" }
    let files command := (runCommand command none tablesWorld).files tablesWorld.files
    Ready ["in", "-o", "in"] tablesWorld arguments (arguments.settingsWith .riscv)
        "in" faultyTable none ∧
      (files ["in", "-o", "in"]).node? ["in"] = some (.file (encodeUtf8 loadLine.toList)) ∧
      (∃ outcome other, runCommand ["in", "-o", "in"] none tablesWorld = .outcome outcome ∧
        runCommand ["in", "-o", "out"] none tablesWorld = .outcome other ∧
        other.written = outcome.written ∧ other.exitCode = outcome.exitCode) ∧
      files ["in", "-o", "in", "-o", "out"] = tablesWorld.files := by
  intro arguments files
  have created : tablesWorld.files.create "in" =
    .ok (tablesWorld.files.set ["in"] (.file []), ["in"]) := rfl
  have createdElsewhere : tablesWorld.files.create "out" =
    .ok (tablesWorld.files.set ["out"] (.file []), ["out"]) := rfl
  have ready : Ready ["in", "-o", "in"] tablesWorld arguments (arguments.settingsWith .riscv)
      "in" faultyTable none := ⟨rfl, reads_tablesWorld (some "in"), .named created⟩
  obtain ⟨_, _, _, behind⟩ := command_changes_only_output ["in", "-o", "in"] none tablesWorld
  obtain ⟨filled, elsewhere⟩ := behind _ _ _ _ _ ready
  have records : (tableRecords .riscv .mixed (lines faultyTable)).flatMap
      Layout.source.closedLine = encodeUtf8 loadLine.toList := by
    have single : tableRecords .riscv .mixed (lines faultyTable) = [loadRecord] := rfl
    rw [single, List.flatMap_singleton, closedLine_loadRecord]
  refine ⟨ready, ?_, ?_, ?_⟩
  · rw [← records]
    have ordinary (node : Node) (stands : tablesWorld.files.node? ["in"] = some node) :
        ∃ old, node = .file old := ⟨_, (Option.some.inj stands).symm⟩
    exact (filled ["in"] ⟨"in", rfl, rfl⟩ ordinary).2 (admits_none _)
  · obtain ⟨outcome, other, came, cameElsewhere, written, exit, _⟩ :=
      elsewhere ["in", "-o", "out"] (some "out") none (admits_none _) rfl
        (.named createdElsewhere) (admits_none _)
    exact ⟨outcome, other, came, cameElsewhere, written, exit⟩
  · obtain ⟨_, _, unchanged, _⟩ :=
      command_changes_only_output ["in", "-o", "in", "-o", "out"] none tablesWorld
    refine unchanged fun ⟨_, _, _, _, _, accepted⟩ => ?_
    cases accepted.accepted

end OpcodeTable
