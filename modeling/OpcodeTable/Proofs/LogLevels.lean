/-
This file compares two runs that differ in what they show of their log. Nothing that a run does asks
for its log or for the verbose flag, so the runs come to the same: the same exit code, the same
output, the same files and the same report of a failure. Each of them shows those lines of the one
log that are grave enough for its own level. Where the flag stands among the arguments makes no
difference.

A command line that is not accepted has no run and no log, and it is accepted with the flag just
when it is without. Which of its faults is named can hang on the flag, though: a value in front of
the flag is checked where the flag begins, and without it another fault may be found before. If the
arguments in front are accepted by themselves, or already have the fault that is named without the
flag, then it is named with it as well.
-/

import OpcodeTable.Proofs.Agreement
import OpcodeTable.Proofs.LoudReading
import OpcodeTable.Proofs.RunLog
import OpcodeTable.Proofs.Stages

namespace OpcodeTable

open Text

/-! ### Levels and flags -/

/-- The words that set how much is shown, and the level down to which they show the log; one of them
shows nothing. -/
def bareLevels : List (String × Option Level) :=
  [("off", none), ("error", some .error), ("warn", some .warn), ("info", some .info),
    ("debug", some .debug), ("trace", some .trace)]

/-- The level down to which a run shows its log. A word in the environment sets it, in whatever case
it is written, and without one the verbose flag does. -/
inductive Effective (command : List String) : Option String → Option Level → Prop
  | set {word name : String} {level? : Option Level} (bare : (name, level?) ∈ bareLevels)
      (spelt : word.toList.map Char.toLower = name.toList) :
      Effective command (some word) level?
  | verbose (asks : Arguments.AsksVerbose command) : Effective command none (some .debug)
  | plain (silent : ¬ Arguments.AsksVerbose command) : Effective command none (some .warn)

/-- The commands are the same but for a verbose flag, which each may have at a place of its own. Both
places are of one kind. -/
def DifferInVerbose (kind : List String → List String → Prop) (first second : List String) : Prop :=
  first = second ∨ ∃ base, ¬ Arguments.AsksVerbose base ∧
    Arguments.AddsVerbose kind base first ∧ Arguments.AddsVerbose kind base second

theorem ofSetting_of_bare {word name : String} {level? : Option Level}
    (bare : (name, level?) ∈ bareLevels) (spelt : word.toList.map Char.toLower = name.toList) :
    Level.ofSetting word = level? := by
  unfold Level.ofSetting
  rw [spelt, String.ofList_toList]
  simp only [bareLevels, List.mem_cons, Prod.mk.injEq, List.not_mem_nil, or_false] at bare
  rcases bare with ⟨rfl, rfl⟩ | ⟨rfl, rfl⟩ | ⟨rfl, rfl⟩ | ⟨rfl, rfl⟩ | ⟨rfl, rfl⟩ | ⟨rfl, rfl⟩ <;>
    rfl

namespace Arguments

variable {command first second : List String} {arguments : Arguments}

/-- Accepted arguments have the verbose flag just when they ask for it. -/
theorem verbose_iff_asks (accepted : parse command = .ok arguments) :
    arguments.verbose = true ↔ AsksVerbose command := by
  rw [parse_eq] at accepted
  obtain ⟨behind, done, rfl⟩ := map_eq_ok_iff.mp accepted
  rw [Progress.verbose_finish done]
  exact ⟨fun asks => (asks.resolve_left Bool.false_ne_true).2, fun asks => .inr ⟨rfl, asks⟩⟩

theorem threshold_of_effective (accepted : parse command = .ok arguments)
    {setting : Option String} {level? : Option Level}
    (effective : Effective command setting level?) :
    threshold setting arguments.verbose = level? := by
  cases effective with
  | set bare spelt => exact ofSetting_of_bare bare spelt
  | verbose asks => exact if_pos ((verbose_iff_asks accepted).mpr asks)
  | plain silent => exact if_neg (mt (verbose_iff_asks accepted).mp silent)

theorem sameReading_of_differ (differ : DifferInVerbose Settled first second) :
    SameReading (parse first) (parse second) := by
  rcases differ with rfl | ⟨base, silent, one, other⟩
  · rfl
  · exact Eq.trans (Eq.symm (sameReading_of_adds silent one)) (sameReading_of_adds silent other)

theorem similarReading_of_differ (differ : DifferInVerbose TakesFlag first second) :
    SimilarReading (parse first) (parse second) := by
  rcases differ with rfl | ⟨base, silent, one, other⟩
  · exact .inl rfl
  · exact (similarReading_of_adds silent one).symm.trans (similarReading_of_adds silent other)

end Arguments

/-! ### What is shown -/

/-- The report of the failure, if there is one. -/
def Outcome.errorReport (outcome : Outcome) : Bytes :=
  encodeUtf8 (closedLines (outcome.failure.toList.flatMap fun failure =>
    (lines failure.report).map String.toList))

theorem Event.isShown_iff {level? : Option Level} {event : Event} :
    event.isShown level? = true ↔ ∃ level ∈ level?, event.level ≤ level := by
  cases level? with
  | none => exact iff_of_false Bool.false_ne_true fun ⟨_, impossible, _⟩ => nomatch impossible
  | some level =>
    refine decide_eq_true_iff.trans ⟨fun shown => ⟨level, rfl, shown⟩, ?_⟩
    rintro ⟨_, ⟨⟩, shown⟩
    exact shown

/-- The log of the one run is that of the other down to a level. It stands on the standard error, in
front of the report of the failure, and if the records do not go there then nothing else does. -/
structure Shows (level? : Option Level) (whole shown : Outcome) : Prop where
  log : shown.log = whole.log.filter fun entry => ∃ level ∈ level?, entry.event.level ≤ level
  woven : shown.standardError =
    weave 0 (shown.writtenTo .standardError) shown.log ++ shown.errorReport
  apart : shown.destination ≠ .standardError → shown.standardError =
    encodeUtf8 (closedLines (shown.log.map (·.event.line))) ++ shown.errorReport

theorem weave_nil_eq (passed : Nat) (log : List Entry) :
    weave passed [] log = encodeUtf8 (closedLines (log.map (·.event.line))) := by
  rw [weave_nil, closedLines, List.flatMap_map, encodeUtf8, List.flatMap_assoc]
  rfl

theorem shows_shown (level? : Option Level) (outcome : Outcome) :
    Shows level? outcome (outcome.shown level?) where
  log := List.filter_congr fun _ _ => Bool.eq_iff_iff.mpr (Event.isShown_iff.trans
    decide_eq_true_iff.symm)
  woven := Outcome.standardError_eq _
  apart elsewhere := by
    rw [Outcome.standardError_eq, Outcome.writtenTo, if_neg elsewhere, weave_nil_eq]
    rfl

/-- Down to the last level the whole log is shown. -/
theorem shown_trace (outcome : Outcome) : outcome.shown (some .trace) = outcome := by
  obtain ⟨log, failure, destination, written, files⟩ := outcome
  refine congrArg (Outcome.mk · failure destination written files) ?_
  exact List.filter_eq_self.mpr fun entry _ => entry.event.isShown_trace

/-! ### The verbose flag makes no difference to a run -/

theorem Arguments.run_loud (arguments : Arguments) (world : World) :
    arguments.loud.run world = arguments.run world := by
  have catalog : arguments.loud.loadCatalog world = arguments.loadCatalog world := rfl
  unfold run
  rw [resolve_eq, resolve_eq, catalog]
  cases arguments.loadCatalog world <;> rfl

theorem Arguments.run_eq_of_loud {one other : Arguments} (same : one.loud = other.loud)
    (world : World) : one.run world = other.run world := by
  rw [← run_loud one, same, run_loud]

/-! ### Command lines -/

section

variable {command first second : List String} {usage : Usage}

theorem runCommand_of_rejected (rejected : Arguments.parse command = .error usage)
    (other : usage ≠ .version) (setting : Option String) (world : World) :
    runCommand command setting world = .usage usage := by
  unfold runCommand
  rw [rejected]
  cases usage <;> first | rfl | exact absurd rfl other

theorem runCommand_of_exitCode (rejected : Arguments.parse command = .error usage)
    (error : usage.exitCode = 2) (setting : Option String) (world : World) :
    runCommand command setting world = .usage usage := by
  refine runCommand_of_rejected rejected ?_ setting world
  rintro rfl
  cases error

/-- What the version comes to is an outcome with an empty log. -/
theorem runCommand_of_version (asked : Arguments.parse command = .error .version)
    (setting : Option String) (level? : Option Level) (world : World) :
    runCommand command setting world = .outcome
      (Outcome.shown level? ⟨[], none, .standardOutput,
        admitted world.standardOutput (encodeUtf8 versionText), world.files⟩) := by
  unfold runCommand
  rw [asked]
  rfl

theorem runCommand_of_effective {arguments : Arguments}
    (accepted : Arguments.parse command = .ok arguments) {setting : Option String}
    {level? : Option Level} (effective : Effective command setting level?) (world : World) :
    runCommand command setting world = .outcome ((arguments.run world).shown level?) := by
  rw [runCommand_of_accepted accepted, Arguments.threshold_of_effective accepted effective]

/-- Whatever is said about the log, two readings that are similar have answers about usage, or else
one outcome, of whose log more or less is shown. -/
theorem runCommand_of_similarReading
    (similar : Arguments.SimilarReading (Arguments.parse first) (Arguments.parse second))
    (world : World) :
    (∃ one other, one.exitCode = other.exitCode ∧
        (Arguments.SameReading (Arguments.parse first) (Arguments.parse second) → one = other) ∧
        ∀ setting, runCommand first setting world = .usage one ∧
          runCommand second setting world = .usage other) ∨
      ∃ outcome : Outcome, ∀ setting level?,
        (Effective first setting level? →
          runCommand first setting world = .outcome (outcome.shown level?)) ∧
        (Effective second setting level? →
          runCommand second setting world = .outcome (outcome.shown level?)) := by
  rcases similar with same | ⟨⟨one, rejected, error⟩, other, alsoRejected, alsoError⟩
  · cases parsed : Arguments.parse first with
    | error usage =>
      rw [parsed] at same
      have alsoParsed := map_eq_error_iff.mp same.symm
      -- The version is told on the standard output, as if it were the outcome of a run.
      by_cases version : usage = .version
      · subst version
        exact .inr ⟨_, fun setting level? =>
          ⟨fun _ => runCommand_of_version parsed setting level? world,
            fun _ => runCommand_of_version alsoParsed setting level? world⟩⟩
      · exact .inl ⟨usage, usage, rfl, fun _ => rfl, fun setting =>
          ⟨runCommand_of_rejected parsed version setting world,
            runCommand_of_rejected alsoParsed version setting world⟩⟩
    | ok arguments =>
      rw [parsed] at same
      obtain ⟨others, alsoParsed, loud⟩ := map_eq_ok_iff.mp same.symm
      refine .inr ⟨arguments.run world, fun setting level? =>
        ⟨fun effective => runCommand_of_effective parsed effective world, fun effective => ?_⟩⟩
      rw [← Arguments.run_eq_of_loud loud world]
      exact runCommand_of_effective alsoParsed effective world
  · refine .inl ⟨one, other, error.trans alsoError.symm, fun same => ?_, fun setting =>
      ⟨runCommand_of_exitCode rejected error setting world,
        runCommand_of_exitCode alsoRejected alsoError setting world⟩⟩
    rw [rejected, alsoRejected] at same
    exact Except.error.inj same

end

/-- Two faults among the arguments. With the verbose flag between them the first is named, and
without it the second. -/
theorem verbose_moves_usage :
    let plain := ["-f", "yaml", "--bogus"]
    let verbose := ["-f", "yaml", "-v", "--bogus"]
    DifferInVerbose Arguments.TakesFlag plain verbose ∧
      Effective plain none (some .warn) ∧ Effective verbose none (some .debug) ∧
      runCommand plain none tablesWorld = .usage .unknownArgument ∧
      runCommand verbose none tablesWorld = .usage .invalidValue ∧
      runCommand plain none tablesWorld ≠ runCommand verbose none tablesWorld := by
  intro plain verbose
  have place : Arguments.TakesFlag ["-f", "yaml"] ["--bogus"] :=
    ⟨by decide, fun last ends => Option.some.inj ends ▸ by decide⟩
  refine ⟨.inr ⟨plain, by decide, .nothing _, .word place (.inl rfl)⟩, .plain (by decide),
    .verbose (by decide), rfl, rfl, fun same => ?_⟩
  cases Response.usage.inj same

/-- The log makes no difference to a run. Two command lines that differ at most in a verbose flag
come to answers about usage, or to outcomes with one exit code, one output, one report and one set
of files. Then each shows of the log that either shows down to the last level the entries down to
its own: to the one that the environment names, or else to what the flag sets. The answers about
usage have one exit code, and they are the same if the arguments in front of the flag are accepted
by themselves, or rejected for what all are rejected for without the flag. -/
theorem log_influences_no_run {first second : List String}
    (differ : DifferInVerbose Arguments.TakesFlag first second)
    {firstSetting secondSetting : Option String} {firstLevel? secondLevel? : Option Level}
    (firstEffective : Effective first firstSetting firstLevel?)
    (secondEffective : Effective second secondSetting secondLevel?) (world : World) :
    (∃ one other, runCommand first firstSetting world = .usage one ∧
        runCommand second secondSetting world = .usage other ∧
        one.exitCode = other.exitCode ∧
        (DifferInVerbose Arguments.Settled first second → one = other)) ∨
      ∃ whole one other,
        runCommand first (some "trace") world = .outcome whole ∧
        runCommand second (some "trace") world = .outcome whole ∧
        runCommand first firstSetting world = .outcome one ∧
        runCommand second secondSetting world = .outcome other ∧
        one.exitCode = other.exitCode ∧ one.standardOutput = other.standardOutput ∧
        one.files = other.files ∧ one.errorReport = other.errorReport ∧
        Shows firstLevel? whole one ∧ Shows secondLevel? whole other := by
  rcases runCommand_of_similarReading (Arguments.similarReading_of_differ differ) world with
    ⟨one, other, exit, same, came⟩ | ⟨whole, came⟩
  · exact .inl ⟨one, other, (came firstSetting).1, (came secondSetting).2, exit,
      fun settled => same (Arguments.sameReading_of_differ settled)⟩
  · have everything (command : List String) : Effective command (some "trace") (some .trace) :=
      have bare : ("trace", some .trace) ∈ bareLevels := by decide
      .set bare rfl
    have traces := came (some "trace") (some .trace)
    rw [shown_trace] at traces
    exact .inr ⟨whole, whole.shown firstLevel?, whole.shown secondLevel?,
      traces.1 (everything first), traces.2 (everything second),
      (came firstSetting firstLevel?).1 firstEffective,
      (came secondSetting secondLevel?).2 secondEffective, rfl, rfl, rfl, rfl,
      shows_shown firstLevel? whole, shows_shown secondLevel? whole⟩

/-- Arguments that name the file and the layout. -/
def jsonArguments : Arguments :=
  { Arguments.empty with input := some "in", layout := some .json }

theorem destination_jsonArguments {verbose : Bool} {command : List String}
    (accepted : Arguments.parse command = .ok { jsonArguments with verbose := verbose })
    {setting : Option String} {outcome : Outcome}
    (came : runCommand command setting tablesWorld = .outcome outcome) :
    outcome.destination ≠ .standardError := by
  have reads : Reads { jsonArguments with verbose := verbose } tablesWorld
      (Arguments.settingsWith { jsonArguments with verbose := verbose } .riscv) "in" faultyTable :=
    ⟨.riscv, tablesWorld, rfl, rfl,
      Settings.readInput_of_named rfl (World.readText_of_find_file rfl)⟩
  rw [runCommand_of_accepted accepted, reads.run_unnamed rfl] at came
  rw [← Response.outcome.inj came]
  exact fun impossible => nomatch impossible

/-- A table with a fault, once with the flag in a bundle while the environment says nothing, and
once without the flag while it asks for silence; and an argument that is none, which is rejected
alike with the flag behind it and without. -/
theorem log_influences_no_run_tablesWorld :
    DifferInVerbose Arguments.TakesFlag ["in", "-vfjson"] ["in", "-fjson"] ∧
      Effective ["in", "-vfjson"] none (some .debug) ∧
      Effective ["in", "-fjson"] (some "off") none ∧
      ∃ one other, runCommand ["in", "-vfjson"] none tablesWorld = .outcome one ∧
        runCommand ["in", "-fjson"] (some "off") tablesWorld = .outcome other ∧
        one.exitCode = other.exitCode ∧ one.standardOutput = other.standardOutput ∧
        one.standardError =
          encodeUtf8 (closedLines (one.log.map (·.event.line))) ++ other.errorReport ∧
        other.standardError = other.errorReport ∧
        ∃ usage, runCommand ["--bogus"] none tablesWorld = .usage usage ∧
          runCommand ["--bogus", "-v"] none tablesWorld = .usage usage := by
  have place : Arguments.TakesFlag ["in"] ["-fjson"] :=
    ⟨by decide, fun last ends => Option.some.inj ends ▸ by decide⟩
  have letter : Arguments.AddsVerbose Arguments.TakesFlag ["in", "-fjson"] ["in", "-vfjson"] :=
    @Arguments.AddsVerbose.letter _ ["in"] [] 'f' "json".toList place (by decide)
  have differ : DifferInVerbose Arguments.TakesFlag ["in", "-vfjson"] ["in", "-fjson"] :=
    .inr ⟨["in", "-fjson"], by decide, letter, .nothing _⟩
  have debug : Effective ["in", "-vfjson"] none (some .debug) := .verbose (by decide)
  have bare : ("off", none) ∈ bareLevels := by decide
  have silence : Effective ["in", "-fjson"] (some "off") none := .set bare rfl
  have accepted : Arguments.parse ["in", "-vfjson"] =
    .ok { jsonArguments with verbose := true } := rfl
  have alsoAccepted : Arguments.parse ["in", "-fjson"] =
    .ok { jsonArguments with verbose := false } := rfl
  refine ⟨differ, debug, silence, ?_⟩
  rcases log_influences_no_run differ debug silence tablesWorld with
    ⟨_, _, usage, _⟩ |
      ⟨whole, one, other, _, _, came, cameToo, exit, output, _, report, shows, nothing⟩
  · rw [runCommand_of_accepted accepted] at usage
    cases usage
  · refine ⟨one, other, came, cameToo, exit, output, ?_, ?_, ?_⟩
    · rw [← report]
      exact shows.apart (destination_jsonArguments accepted came)
    · have silent : other.log = [] := by
        rw [nothing.log]
        refine List.filter_eq_nil_iff.mpr fun entry _ shown => ?_
        obtain ⟨_, impossible, _⟩ := of_decide_eq_true shown
        cases impossible
      rw [nothing.apart (destination_jsonArguments alsoAccepted cameToo), silent]
      rfl
    · have free : Arguments.TakesFlag ["--bogus"] [] :=
        ⟨by decide, fun last ends => Option.some.inj ends ▸ by decide⟩
      have settled : Arguments.Settled ["--bogus"] [] := ⟨by decide, .inr rfl⟩
      have word {kind : List String → List String → Prop} (place : kind ["--bogus"] []) :
          DifferInVerbose kind ["--bogus"] ["--bogus", "-v"] :=
        .inr ⟨["--bogus"], by decide, .nothing _, .word place (.inl rfl)⟩
      have quiet : Effective ["--bogus"] none (some .warn) := .plain (by decide)
      have loud : Effective ["--bogus", "-v"] none (some .debug) := .verbose (by decide)
      have rejected : runCommand ["--bogus"] none tablesWorld = .usage .unknownArgument := rfl
      rcases log_influences_no_run (word free) quiet loud tablesWorld with
        ⟨one, other, came, cameToo, _, same⟩ | ⟨_, one, _, _, _, came, _⟩
      · exact ⟨one, came, same (word settled) ▸ cameToo⟩
      · cases rejected.symm.trans came

end OpcodeTable
