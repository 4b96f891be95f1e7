/-
This file says which failure a run reports when several things are wrong, and that it reports one
whenever something is. The stages come in their order, and the first that fails is the only one
that is told. Behind them a refusal by the output counts before a fault of the table, even if the
fault was met first: what waits in the buffer is handed on before the fault is told. So an output
without room for the records hides the fault of the table, be it a file that fills up on the way or
a standard output that nobody reads any more; and whether one that takes nothing is blamed on a
record or on the whole output depends on whether the records outgrow the buffer.
-/

import OpcodeTable.Proofs.OutputOnly

namespace OpcodeTable

open Text

/-! ### Sound tables -/

section

variable {catalog : Catalog} {rules : Rules} {file : String} {number : Nat} {lines : List String}

/-- A table has no fault when none of its lines has. -/
theorem tableFault?_eq_none_iff_sound :
    tableFault? catalog rules file number lines = none ↔
      ∀ line ∈ lines, ∃ result, (assembleLine catalog rules line).outcome = .ok result := by
  rw [tableFault?_eq_none_iff]
  constructor
  · intro all line member
    have before : line ∈ lines.take (firstFault catalog rules lines) := by
      rwa [all, List.take_length]
    exact sound_before_firstFault before
  · intro sound
    refine List.findIdx_eq_length.mpr fun line member => ?_
    obtain ⟨result, read⟩ := sound line member
    rw [lineFault?, read]
    rfl

theorem tableRecords_of_sound (sound : tableFault? catalog rules file number lines = none) :
    tableRecords catalog rules lines = lines.filterMap (lineRecord? catalog rules) := by
  rw [tableRecords, tableFault?_eq_none_iff.mp sound, List.take_length]

end

/-! ### Reports -/

/-- The run has failed, and behind the log and what else may have gone there the standard error
holds the report of this failure and nothing more. -/
def Outcome.Reports (outcome : Outcome) (failure : Failure) : Prop :=
  outcome.exitCode = 1 ∧ outcome.failure = some failure ∧
    outcome.standardError = weave 0 (outcome.writtenTo .standardError) outcome.log ++
      encodeUtf8 (closedLines ((lines failure.report).map String.toList))

theorem Outcome.reports_of_failure {outcome : Outcome} {failure : Failure}
    (failed : outcome.failure = some failure) : outcome.Reports failure := by
  refine ⟨exitCode_of_failure failed, failed, ?_⟩
  rw [standardError_eq, failed, Option.toList_some, List.flatMap_singleton]

variable {command : List String} {arguments : Arguments} {world : World} {settings : Settings}
  {file text : String} {limit? : Option Limit}

/-- A run is a success when the table has no fault and its records have arrived. -/
theorem Ready.failure_eq_none_iff
    (ready : Ready command world arguments settings file text limit?)
    {logSetting : Option String} {outcome : Outcome}
    (came : runCommand command logSetting world = .outcome outcome) :
    outcome.failure = none ↔
      Production.fault? settings file text = none ∧
        Delivers world.files arguments.output outcome (Production.owed settings text) := by
  obtain ⟨same, cameAgain, delivers, failure, _⟩ := ready.ends logSetting
  obtain rfl := Response.outcome.inj (cameAgain.symm.trans came)
  rw [failure]
  refine (Production.failure_ofText_eq_none_iff settings file text limit?).trans ?_
  exact and_congr_right fun _ =>
    ⟨fun all => all ▸ delivers, fun all => delivers.1.symm.trans all.1⟩

/-- The exit code is zero when nothing at all is wrong. -/
theorem exitCode_eq_zero_iff_sound (accepted : Arguments.parse command = .ok arguments)
    {logSetting : Option String} {outcome : Outcome}
    (came : runCommand command logSetting world = .outcome outcome) :
    outcome.exitCode = 0 ↔ ∃ settings file text limit?,
      Ready command world arguments settings file text limit? ∧
        (∀ line ∈ lines text, ∃ result,
          (assembleLine settings.catalog settings.rules line).outcome = .ok result) ∧
        Delivers world.files arguments.output outcome (((lines text).filterMap
          (lineRecord? settings.catalog settings.rules)).flatMap settings.layout.closedLine) := by
  rw [Outcome.exitCode_eq_zero_iff]
  constructor
  · intro success
    rcases stopped_or_opens arguments world with
      ⟨_, stopped⟩ | ⟨settings, file, text, limit?, reads, opens⟩
    · obtain rfl := Response.outcome.inj ((runCommand_of_accepted accepted ..).symm.trans came)
      have failed : (arguments.run world).failure = _ := congrArg Outcome.failure stopped.run
      cases success.symm.trans failed
    · have ready : Ready command world arguments settings file text limit? :=
        ⟨accepted, reads, opens⟩
      obtain ⟨faultless, delivered⟩ := (ready.failure_eq_none_iff came).mp success
      refine ⟨settings, file, text, limit?, ready, tableFault?_eq_none_iff_sound.mp faultless, ?_⟩
      rwa [← tableRecords_of_sound faultless]
  · intro ⟨settings, file, text, limit?, ready, sound, delivered⟩
    have faultless : Production.fault? settings file text = none :=
      tableFault?_eq_none_iff_sound.mpr sound
    rw [← tableRecords_of_sound faultless] at delivered
    exact (ready.failure_eq_none_iff came).mpr ⟨faultless, delivered⟩

/-- An output with room enough leaves the fault of the table to be told. -/
theorem Ready.failure_of_admits
    (ready : Ready command world arguments settings file text limit?)
    {logSetting : Option String} {outcome : Outcome}
    (came : runCommand command logSetting world = .outcome outcome)
    (admits : Admits limit? (Production.owed settings text).length) :
    outcome.failure = (Production.fault? settings file text).map .table := by
  obtain ⟨same, cameAgain, _, failure, _⟩ := ready.ends_of_admits admits logSetting
  obtain rfl := Response.outcome.inj (cameAgain.symm.trans came)
  exact failure

/-- An output without room enough is told of: for a record if one was refused, and else for what it
still owed. -/
theorem Ready.failure_of_exceeds {limit : Limit}
    (ready : Ready command world arguments settings file text (some limit))
    {logSetting : Option String} {outcome : Outcome}
    (came : runCommand command logSetting world = .outcome outcome)
    (exceeds : limit.room < (Production.owed settings text).length) :
    outcome.failure = some (if (Production.sent settings text (some limit.room)).2 then
      .outputNotWritten limit.refusal else .recordNotWritten limit.refusal) := by
  obtain ⟨same, cameAgain, _, failure, _⟩ := ready.ends logSetting
  obtain rfl := Response.outcome.inj (cameAgain.symm.trans came)
  rw [failure, Production.failure_ofText_of_exceeds exceeds]

/-! ### Command lines -/

/-- What an accepted command line reports. The exit code is zero just when the catalog and the input
are read, the output is open, every line is sound and all records have arrived. Otherwise there is
one report. A run is stopped in one of the three stages, and then reports just that, has written
nothing and changed no file; or it comes behind them, and its output gets as many bytes of the
records as it has room for. With room for all of them the success or the fault of the table is told,
and one output is as good as any other. Without it no fault of the table is told, but the output is
blamed, for one of its records or as a whole: as a whole when the records are 8192 bytes at most,
and for a record when they are more and the output takes nothing. -/
theorem failures_in_order {command : List String} {arguments : Arguments}
    (accepted : Arguments.parse command = .ok arguments) (logSetting : Option String)
    (world : World) :
    ∃ outcome, runCommand command logSetting world = .outcome outcome ∧
      (outcome.exitCode = 0 ↔ ∃ settings file text limit?,
        Ready command world arguments settings file text limit? ∧
          (∀ line ∈ lines text, ∃ result,
            (assembleLine settings.catalog settings.rules line).outcome = .ok result) ∧
          Delivers world.files arguments.output outcome (((lines text).filterMap
            (lineRecord? settings.catalog settings.rules)).flatMap settings.layout.closedLine)) ∧
      (outcome.exitCode ≠ 0 → ∃ failure, outcome.Reports failure) ∧
      ((∃ failure, Stopped arguments world failure) ∨ ∃ settings file text limit?,
        Ready command world arguments settings file text limit?) ∧
      (∀ failure, Stopped arguments world failure →
        outcome.Reports failure ∧ outcome.written = [] ∧ outcome.files = world.files) ∧
      ∀ settings file text limit?,
        Ready command world arguments settings file text limit? →
        let table := assembleText settings.catalog settings.rules file text
        let owed := (tableRecords settings.catalog settings.rules (lines text)).flatMap
          settings.layout.closedLine
        Delivers world.files arguments.output outcome (admitted limit? owed) ∧
        (Admits limit? owed.length →
          (outcome.exitCode = 0 ↔ ∃ records, table.outcome = .ok records) ∧
          (∀ place, table.outcome = .error place → outcome.Reports (.table place)) ∧
          ∀ again output other?,
            Arguments.parse again = .ok { arguments with output := output } →
            Opens world output other? → Admits other? owed.length →
            ∃ other, runCommand again logSetting world = .outcome other ∧
              outcome.log = other.log ∧ outcome.failure = other.failure ∧
              outcome.written = other.written) ∧
        ∀ limit, limit? = some limit → limit.room < owed.length →
          (outcome.Reports (.outputNotWritten limit.refusal) ∨
            outcome.Reports (.recordNotWritten limit.refusal)) ∧
          (owed.length ≤ 8192 → outcome.Reports (.outputNotWritten limit.refusal)) ∧
          (limit.room = 0 → 8192 < owed.length →
            outcome.Reports (.recordNotWritten limit.refusal)) := by
  have came := runCommand_of_accepted accepted logSetting world
  refine ⟨_, came, ?_, fun failed => ?_, ?_, fun failure stopped => ?_,
    fun settings file text limit? ready =>
      ⟨ready.delivers came, fun admits => ⟨?_, fun place failed => ?_, ?_⟩,
        fun limit limited exceeds => ?_⟩⟩
  · exact exitCode_eq_zero_iff_sound accepted came
  · obtain ⟨failure, told⟩ :=
      Option.ne_none_iff_exists'.mp (mt Outcome.exitCode_eq_zero_iff.mpr failed)
    exact ⟨failure, Outcome.reports_of_failure told⟩
  · exact (stopped_or_opens arguments world).imp_right
      fun ⟨settings, file, text, limit?, reads, opens⟩ =>
        ⟨settings, file, text, limit?, accepted, reads, opens⟩
  -- Of a run that is stopped nothing is shown but its failure.
  · have ran := stopped.run
    exact ⟨Outcome.reports_of_failure (congrArg Outcome.failure ran),
      congrArg Outcome.written ran, congrArg Outcome.files ran⟩
  · rw [Outcome.exitCode_eq_zero_iff, ready.failure_of_admits came admits, Option.map_eq_none_iff]
    exact exists_assembleText_iff.symm
  · refine Outcome.reports_of_failure ?_
    rw [ready.failure_of_admits came admits, Production.fault?, assembleText_eq_error_iff.mp failed]
    rfl
  · exact fun again output other? acceptedAgain opensAgain admitsAgain =>
      ready.alike admits acceptedAgain opensAgain admitsAgain came
  · subst limited
    have told := ready.failure_of_exceeds came exceeds
    refine ⟨?_, fun small => Outcome.reports_of_failure ?_,
      fun nothing large => Outcome.reports_of_failure ?_⟩
    · split at told
      · exact .inl (Outcome.reports_of_failure told)
      · exact .inr (Outcome.reports_of_failure told)
    · rw [told, if_pos (Production.sent_of_place small)]
    · refine told.trans (congrArg some (if_neg fun all => ?_))
      have within := Production.length_owed_le_of_sent all
      rw [nothing, Nat.zero_add] at within
      exact absurd large (Nat.not_lt.mpr within)

/-- A table, a file that takes nothing, another one that can come into being and takes ten bytes,
and a standard output that takes as many. -/
def fullWorld (text : String) : World :=
  ⟨⟨[(["in"], .file (encodeUtf8 text.toList)), (["full"], .sealed [] .noSpace)], [],
    [(["narrow"], ⟨10, .noSpace⟩)]⟩, [], some ⟨10, .brokenPipe⟩⟩

theorem ready_fullWorld (text : String) {command : List String} {output : Option String}
    (accepted : Arguments.parse command = .ok { fileArguments with output := output })
    {limit? : Option Limit} (opens : Opens (fullWorld text) output limit?) :
    let arguments := { fileArguments with output := output }
    Ready command (fullWorld text) arguments (arguments.settingsWith .riscv) "in" text limit? := by
  intro arguments
  have read : (fullWorld text).readText "in" = .ok (text, fullWorld text) :=
    World.readText_of_find_file rfl
  exact ⟨accepted, ⟨.riscv, fullWorld text, rfl, rfl, Settings.readInput_of_named rfl read⟩, opens⟩

theorem opens_full (text : String) : Opens (fullWorld text) (some "full") (some ⟨0, .noSpace⟩) := by
  have created : (fullWorld text).files.create "full" =
    .ok ((fullWorld text).files, ["full"]) := rfl
  exact .named created

theorem opens_narrow (text : String) :
    Opens (fullWorld text) (some "narrow") (some ⟨10, .noSpace⟩) := by
  have created : (fullWorld text).files.create "narrow" =
    .ok ((fullWorld text).files.set ["narrow"] (.file []), ["narrow"]) := rfl
  exact .named created

/-- So many loads. -/
def manyLoads : Nat → String
  | 0 => ""
  | n + 1 => loadTable ++ manyLoads n

theorem tableRecords_manyLoads (n : Nat) (later : String) :
    tableRecords .riscv .mixed (lines (manyLoads n ++ later)) =
      List.replicate n loadRecord ++ tableRecords .riscv .mixed (lines later) := by
  induction n with
  | zero => rw [manyLoads, String.empty_append]; rfl
  | succ n inductionHypothesis =>
    have closed : Closed loadTable := .inr ⟨"lw rd rs1 imm12 14..12=2 6..2=0 1..0=3\r", rfl⟩
    have sound : tableFault? .riscv .mixed "" 1 (lines loadTable) = none := rfl
    have single : tableRecords .riscv .mixed (lines loadTable) = [loadRecord] := rfl
    rw [manyLoads, String.append_assoc, lines_append closed, tableRecords_append sound, single,
      inductionHypothesis]
    rfl

/-- An output that takes nothing, and tables in front of it that bring nothing, little and much; the
outputs that take ten bytes; and an input that is missing as well as the directory of the output. -/
theorem failures_in_order_full :
    let command := ["in", "-o", "full"]
    let arguments := { fileArguments with output := some "full" }
    Arguments.parse command = .ok arguments ∧
      (∃ outcome, runCommand command none (fullWorld unlistedTable) = .outcome outcome ∧
        outcome.Reports (.table ⟨"in", 2, "lx rd seven 1..0=3", .unknownField "seven"⟩)) ∧
      (∃ outcome, runCommand command none (fullWorld faultyTable) = .outcome outcome ∧
        outcome.Reports (.outputNotWritten .noSpace)) ∧
      (∃ outcome, runCommand command none (fullWorld (manyLoads 88 ++ unlistedTable)) =
          .outcome outcome ∧
        outcome.Reports (.recordNotWritten .noSpace)) ∧
      (∃ outcome, runCommand ["in", "-o", "narrow"] none (fullWorld faultyTable) =
          .outcome outcome ∧
        outcome.Reports (.outputNotWritten .noSpace) ∧
        outcome.files.node? ["narrow"] = some (.file (encodeUtf8 "Encoding \x7b".toList))) ∧
      (∃ outcome, runCommand ["in"] none (fullWorld faultyTable) = .outcome outcome ∧
        outcome.Reports (.outputNotWritten .brokenPipe) ∧
        outcome.standardOutput = encodeUtf8 "Encoding \x7b".toList) ∧
      ∃ outcome, runCommand ["nowhere", "-o", "nowhere/out"] none (fullWorld faultyTable) =
          .outcome outcome ∧
        outcome.Reports (.inputUnreadable "nowhere" .notFound) := by
  intro command arguments
  have accepted : Arguments.parse command = .ok arguments := rfl
  have full (text : String) := ready_fullWorld text accepted (opens_full text)
  have width : (Layout.source.closedLine loadRecord).length = 95 := by
    rw [closedLine_loadRecord]
    rfl
  have size (n : Nat) :
      ((List.replicate n loadRecord).flatMap Layout.source.closedLine).length = n * 95 := by
    rw [List.length_flatMap, List.map_replicate, List.sum_replicate_nat, width]
  have silent : tableRecords .riscv .mixed (lines unlistedTable) = [] := rfl
  have single : tableRecords .riscv .mixed (lines faultyTable) = List.replicate 1 loadRecord := rfl
  have one : ((tableRecords .riscv .mixed (lines faultyTable)).flatMap
      Layout.source.closedLine).length = 95 := by
    rw [single, size]
  have front (refusal : FileFault) : admitted (some ⟨10, refusal⟩)
      ((tableRecords .riscv .mixed (lines faultyTable)).flatMap Layout.source.closedLine) =
        encodeUtf8 "Encoding \x7b".toList := by
    rw [single, List.replicate_one, List.flatMap_singleton, closedLine_loadRecord]
    rfl
  refine ⟨accepted, ?_, ?_, ?_, ?_, ?_, ?_⟩
  · obtain ⟨outcome, came, _, _, _, _, behind⟩ :=
      failures_in_order accepted none (fullWorld unlistedTable)
    obtain ⟨_, enough, _⟩ := behind _ _ _ _ (full unlistedTable)
    obtain ⟨_, told, _⟩ := enough (admits_some_iff.mpr (Nat.le_refl 0))
    exact ⟨outcome, came, told _ rfl⟩
  · obtain ⟨outcome, came, _, _, _, _, behind⟩ :=
      failures_in_order accepted none (fullWorld faultyTable)
    obtain ⟨_, _, refused⟩ := behind _ _ _ _ (full faultyTable)
    obtain ⟨_, small, _⟩ := refused _ rfl (one ▸ by decide)
    exact ⟨outcome, came, small (one ▸ by decide)⟩
  · obtain ⟨outcome, came, _, _, _, _, behind⟩ :=
      failures_in_order accepted none (fullWorld (manyLoads 88 ++ unlistedTable))
    obtain ⟨_, _, refused⟩ := behind _ _ _ _ (full (manyLoads 88 ++ unlistedTable))
    have exceeds : 8192 < ((tableRecords .riscv .mixed
        (lines (manyLoads 88 ++ unlistedTable))).flatMap Layout.source.closedLine).length := by
      rw [tableRecords_manyLoads, silent, List.append_nil, size]
      decide
    obtain ⟨_, _, large⟩ := refused _ rfl (Nat.zero_lt_of_lt exceeds)
    exact ⟨outcome, came, large rfl exceeds⟩
  · have acceptedToo : Arguments.parse ["in", "-o", "narrow"] =
      .ok { fileArguments with output := some "narrow" } := rfl
    obtain ⟨outcome, came, _, _, _, _, behind⟩ :=
      failures_in_order acceptedToo none (fullWorld faultyTable)
    obtain ⟨delivers, _, refused⟩ :=
      behind _ _ _ _ (ready_fullWorld faultyTable acceptedToo (opens_narrow faultyTable))
    obtain ⟨_, small, _⟩ := refused _ rfl (one ▸ by decide)
    refine ⟨outcome, came, small (one ▸ by decide), ?_⟩
    have held := delivers.node? ⟨"narrow", rfl, rfl⟩ fun node stands => nomatch stands
    exact held.trans (congrArg _ (congrArg _ (front _)))
  · have acceptedToo : Arguments.parse ["in"] = .ok { fileArguments with output := none } := rfl
    obtain ⟨outcome, came, _, _, _, _, behind⟩ :=
      failures_in_order acceptedToo none (fullWorld faultyTable)
    obtain ⟨delivers, _, refused⟩ :=
      behind _ _ _ _ (ready_fullWorld faultyTable acceptedToo .unnamed)
    obtain ⟨_, small, _⟩ := refused _ rfl (one ▸ by decide)
    exact ⟨outcome, came, small (one ▸ by decide), delivers.2.trans (front _)⟩
  · have elsewhere : Arguments.parse ["nowhere", "-o", "nowhere/out"] =
      .ok { Arguments.empty with input := some "nowhere", output := some "nowhere/out" } := rfl
    obtain ⟨outcome, came, _, _, _, stops, _⟩ :=
      failures_in_order elsewhere none (fullWorld faultyTable)
    exact ⟨outcome, came, (stops _ (.input rfl rfl)).1⟩

end OpcodeTable
