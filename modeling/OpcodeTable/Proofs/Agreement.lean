/-
This file compares a run of the command line with the reading of a table. The run goes through the
lines on its own, writes as it goes, and comes back to the fault of the table only when its output
has taken everything; but if its output has room enough, then what it leaves behind is the reading
said again: the records that a stream of the text yields in front of its first fault, the events
of the whole reading, and its fault or the number of its records.

The lines behind a fault make no difference. So a run that fails writes what the run succeeds in
writing whose text is cut off in front of the line with the fault.
-/

import OpcodeTable.Proofs.Concatenation
import OpcodeTable.Proofs.Stages
import OpcodeTable.Proofs.Stream

namespace OpcodeTable

open Text

variable {catalog : Catalog} {rules : Rules}

/-! ### What a stream yields -/

namespace Cursor

/-- The records among the answers to so many requests in front of the first fault. -/
def yielded (catalog : Catalog) (rules : Rules) (requests : Nat) (cursor : Cursor) : List Record :=
  (((cursor.answers catalog rules requests).map (·.outcome)).takeWhile (·.isOk)).filterMap
    (·.toOption.join)

/-- Answers that bring no record add nothing to those in front of them. -/
theorem filterMap_answers (records : List Record)
    {answers : List (Except TableFault (Option Record))}
    (silent : ∀ answer ∈ answers, answer.toOption.join = none) :
    ((records.map (fun record => Except.ok (some record)) ++ answers).takeWhile
      Except.isOk).filterMap (Option.join ∘ Except.toOption) = records := by
  induction records with
  | nil => exact List.filterMap_eq_nil_iff.mpr fun answer member =>
      silent answer ((List.takeWhile_sublist _).mem member)
  | cons record rest inductionHypothesis => exact congrArg (record :: ·) inductionHypothesis

/-- Asked often enough, a cursor yields the records in front of the first fault of its lines. -/
theorem yielded_eq {requests : Nat} {cursor : Cursor} (enough : cursor.rest.length ≤ requests) :
    cursor.yielded catalog rules requests = tableRecords catalog rules cursor.rest := by
  have few : (tableRecords catalog rules cursor.rest).length ≤ requests :=
    (List.length_filterMap_le ..).trans ((List.length_take_le' ..).trans enough)
  rw [yielded, outcome_answers, due, List.take_append,
    List.take_of_length_le (by rwa [List.length_map]), List.append_assoc]
  refine filterMap_answers _ fun answer member => ?_
  rcases List.mem_append.mp member with failed | ended
  · obtain ⟨_, _, rfl⟩ := List.mem_map.mp (List.mem_of_mem_take failed)
    rfl
  · rw [List.eq_of_mem_replicate ended]
    rfl

end Cursor

/-! ### The front of a text -/

/-- The front of the text ends where the line with the fault begins. -/
def CutBefore (place : TableFault) (text front : String) : Prop :=
  Closed front ∧ front.toList.count '\n' + 1 = place.number ∧
    ∃ behind, text = front ++ behind ∧ place.text.toList <+: behind.toList

/-- In front of the line with the first fault a text has the same records, and no fault. -/
theorem CutBefore.sound {place : TableFault} {file text front : String}
    (cut : CutBefore place text front)
    (found : tableFault? catalog rules file 1 (lines text) = some place) (other : String) :
    tableFault? catalog rules other 1 (lines front) = none ∧
      tableRecords catalog rules (lines front) = tableRecords catalog rules (lines text) := by
  obtain ⟨closed, number, behind, rfl, _⟩ := cut
  rw [lines_append closed, tableFault?_append] at found
  -- A fault of the front would be the first, and stand in front of the line that has it.
  have sound : tableFault? catalog rules file 1 (lines front) = none := by
    refine Option.eq_none_iff_forall_not_mem.mpr fun own inFront => ?_
    have above := (number_of_tableFault? inFront).2
    rw [inFront, Option.some_or] at found
    rw [Option.some.inj found, length_lines closed] at above
    omega
  rw [sound, Option.none_or] at found
  have first : firstFault catalog rules (lines behind) = 0 := by
    obtain ⟨_, _, _, _, rfl⟩ := tableFault?_eq_some_iff.mp found
    rw [← length_lines closed] at number
    dsimp only at number
    omega
  refine ⟨tableFault?_eq_none_iff.mpr (tableFault?_eq_none_iff.mp sound), ?_⟩
  have silent : tableRecords catalog rules (lines behind) = [] := by
    rw [tableRecords, first]
    rfl
  rw [lines_append closed, tableRecords_append sound, silent, List.append_nil]

theorem exists_cutBefore {place : TableFault} {file text : String}
    (found : tableFault? catalog rules file 1 (lines text) = some place) :
    ∃ front, CutBefore place text front := by
  obtain ⟨line, _, stands, _, rfl⟩ := tableFault?_eq_some_iff.mp found
  obtain ⟨before, after, whole, count, start, _⟩ := standsBehind_of_lines stands
  refine ⟨String.ofList before, ?_, ?_, String.ofList (line.toList ++ after), ?_, ?_⟩
  · rcases start with rfl | ⟨earlier, rfl⟩
    · exact .inl rfl
    · exact .inr ⟨String.ofList earlier, String.ofList_append⟩
  · rw [String.toList_ofList, count, Nat.add_comm]
  · rw [← String.ofList_append, ← whole, String.ofList_toList]
  · rw [String.toList_ofList]
    exact List.prefix_append ..

/-! ### The lines of a report -/

namespace Text

/-- The lines of a text that does not end in a newline are what stands between its newlines, less a
return that belongs to an ending. -/
theorem linesFrom_splitOn {begun text : List Char} (inside : '\n' ∉ begun)
    (begins : begun ≠ [] ∨ text ≠ []) (last : ∀ front, text ≠ front ++ ['\n']) :
    List.Forall₂ (fun line piece => piece = line ∨ piece = line ++ ['\r']) (linesFrom begun text)
      ((begun.reverse ++ text).splitOn '\n') := by
  induction text generalizing begun with
  | nil =>
    have some : begun ≠ [] := begins.resolve_right fun impossible => impossible rfl
    rw [List.append_nil, linesFrom, if_neg (mt List.isEmpty_iff.mp some),
      List.splitOn_eq_singleton fun member => inside (List.mem_reverse.mp member)]
    exact .cons (.inl rfl) .nil
  | cons c rest inductionHypothesis =>
    have lastBehind (front : List Char) : rest ≠ front ++ ['\n'] :=
      fun same => last (c :: front) (congrArg (c :: ·) same)
    rw [linesFrom]
    split
    · next newline =>
      subst newline
      have more : rest ≠ [] := fun none => last [] (congrArg _ none)
      rw [List.splitOn_append_cons_self_of_not_mem
        fun member => inside (List.mem_reverse.mp member)]
      refine .cons ?_ (inductionHypothesis List.not_mem_nil (.inr more) lastBehind)
      unfold stripReturn
      split
      · exact .inr (List.reverse_cons ..)
      · exact .inl rfl
    · next other =>
      have insideMore : '\n' ∉ c :: begun := fun member =>
        (List.mem_cons.mp member).elim (fun same => other same.symm) inside
      have moved := inductionHypothesis insideMore (.inl (List.cons_ne_nil _ _)) lastBehind
      rwa [List.reverse_cons, List.append_assoc] at moved

end Text

/-- The lines of the report of a fault are what stands between its newlines, less a return that
belongs to an ending. The report ends in the line with the fault, which has no newline. -/
theorem lines_report {place : TableFault} {file text : String}
    (found : tableFault? catalog rules file 1 (lines text) = some place) :
    List.Forall₂ (fun line piece => piece = line ∨ piece = line ++ ['\r'])
      ((lines place.report).map String.toList) (place.report.toList.splitOn '\n') := by
  have single : '\n' ∉ place.text.toList := by
    obtain ⟨line, _, stands, _, rfl⟩ := tableFault?_eq_some_iff.mp found
    obtain ⟨_, _, _, _, _, inside, _⟩ := standsBehind_of_lines stands
    exact inside
  obtain ⟨front, whole⟩ : ∃ front, place.report.toList = front ++ (' ' :: place.text.toList) := by
    refine ⟨("Error at " ++ place.location ++ ": " ++ place.fault.message ++ "\n" ++ ">>> " ++
      String.ofList ((decimal place.number).leftpad 4 ' ') ++ ":").toList, ?_⟩
    unfold TableFault.report TableFault.context
    simp only [String.toList_append, List.append_assoc]
    rfl
  have last (earlier : List Char) : place.report.toList ≠ earlier ++ ['\n'] := by
    intro same
    have ending := congrArg List.getLast? (whole.symm.trans same)
    rw [List.getLast?_append_of_ne_nil _ (List.cons_ne_nil _ _), List.getLast?_concat] at ending
    rcases List.mem_cons.mp (List.mem_of_getLast? ending) with impossible | member
    · revert impossible
      decide
    · exact single member
  have begins : place.report.toList ≠ [] := by
    rw [whole]
    exact List.append_ne_nil_of_right_ne_nil _ (List.cons_ne_nil _ _)
  have lines : (lines place.report).map String.toList = linesFrom [] place.report.toList := by
    rw [Text.lines, List.map_map]
    exact (List.map_congr_left fun _ _ => String.toList_ofList).trans (List.map_id _)
  rw [lines]
  exact linesFrom_splitOn List.not_mem_nil (.inr begins) last

/-! ### Runs and readings -/

theorem Reads.file_eq {arguments : Arguments} {world : World} {settings : Settings}
    {file text : String} (reads : Reads arguments world settings file text) :
    file = settings.input.getD "<stdin>" := by
  obtain ⟨_, _, _, _, read⟩ := reads
  unfold Settings.readInput at read
  split at read
  · next named =>
    obtain ⟨_, _, same⟩ := map_eq_ok_iff.mp read
    rw [named]
    exact (Prod.mk.inj same).1.symm
  · next unnamed =>
    obtain ⟨_, _, same⟩ := map_eq_ok_iff.mp read
    rw [unnamed]
    exact (Prod.mk.inj same).1.symm

/-- A run delivers of what its text owes as much as its output admits. -/
theorem Ready.delivers {command : List String} {world : World} {arguments : Arguments}
    {settings : Settings} {file text : String} {limit? : Option Limit}
    (ready : Ready command world arguments settings file text limit?)
    {logSetting : Option String} {outcome : Outcome}
    (came : runCommand command logSetting world = .outcome outcome) :
    Delivers world.files arguments.output outcome
      (admitted limit? (Production.owed settings text)) := by
  obtain ⟨same, cameAgain, delivers, _⟩ := ready.ends logSetting
  obtain rfl := Response.outcome.inj (cameAgain.symm.trans came)
  rwa [← Production.written_ofText settings file]

/-- A run whose output has room for what its text owes writes all of it, and tells its fault or the
number of its records. -/
theorem Ready.ends_of_admits {command : List String} {world : World} {arguments : Arguments}
    {settings : Settings} {file text : String} {limit? : Option Limit}
    (ready : Ready command world arguments settings file text limit?)
    (admits : Admits limit? (Production.owed settings text).length) (logSetting : Option String) :
    let fault? := Production.fault? settings file text
    ∃ outcome, runCommand command logSetting world = .outcome outcome ∧
      Delivers world.files arguments.output outcome (Production.owed settings text) ∧
      outcome.failure = fault?.map .table ∧
      outcome.log.map Entry.event =
        (tableEvents settings.catalog settings.rules (lines text) ++
          if fault? = none then [Event.finished file (Production.records settings text).length]
          else []).filter (Event.isShown (threshold logSetting arguments.verbose)) := by
  intro fault?
  obtain ⟨told, events⟩ := Production.ofText_of_admits admits file
  obtain ⟨outcome, came, _, failure, log⟩ := ready.ends logSetting
  have delivers := ready.delivers came
  rw [admitted_of_admits admits] at delivers
  exact ⟨outcome, came, delivers, failure.trans told, log.trans (congrArg _ events)⟩

/-- A run whose output has room for all its records. Its output is the closed lines of the records
that a stream of the text yields in front of its first fault, if it is asked often enough. The run
succeeds when the reading of the whole table does, and then it tells the number of its records;
otherwise it exits with one, and the standard error ends in the report of the fault of the table.
The other events are those of the reading. When the line with the fault and all behind it is cut
off, a run with the same layout, rules and catalog, and with room for as much, succeeds and writes
the same. -/
theorem command_agrees_with_table {command : List String} {world : World} {arguments : Arguments}
    {settings : Settings} {file text : String} {limit? : Option Limit}
    (ready : Ready command world arguments settings file text limit?)
    (admits : Admits limit? ((tableRecords settings.catalog settings.rules (lines text)).flatMap
      settings.layout.closedLine).length)
    (logSetting : Option String) :
    let table := assembleText settings.catalog settings.rules file text
    let shown := List.filter (Event.isShown (threshold logSetting arguments.verbose))
    ∃ outcome, runCommand command logSetting world = .outcome outcome ∧
      file = settings.input.getD "<stdin>" ∧
      (∀ requests, (lines text).length ≤ requests →
        Delivers world.files arguments.output outcome
          (((Cursor.start file text).yielded settings.catalog settings.rules requests).flatMap
            settings.layout.closedLine)) ∧
      (outcome.exitCode = 0 ↔ ∃ records, table.outcome = .ok records) ∧
      (∀ records, table.outcome = .ok records →
        outcome.log.map Entry.event = shown (table.events ++ [.finished file records.length])) ∧
      ∀ place, table.outcome = .error place →
        outcome.exitCode = 1 ∧
        outcome.log.map Entry.event = shown table.events ∧
        (∃ printed, List.Forall₂ (fun line piece => piece = line ∨ piece = line ++ ['\r'])
            printed (place.report.toList.splitOn '\n') ∧
          encodeUtf8 (closedLines printed) <:+ outcome.standardError) ∧
        (∃ front, CutBefore place text front) ∧
        ∀ front command world arguments settings' file limit? logSetting,
          CutBefore place text front →
          Ready command world arguments settings' file front limit? →
          Admits limit? outcome.written.length →
          settings'.layout = settings.layout → settings'.rules = settings.rules →
          settings'.catalog = settings.catalog →
          ∃ other, runCommand command logSetting world = .outcome other ∧
            other.exitCode = 0 ∧ other.written = outcome.written := by
  intro table shown
  obtain ⟨outcome, came, delivers, failure, log⟩ := ready.ends_of_admits admits logSetting
  have events : table.events = tableEvents settings.catalog settings.rules (lines text) :=
    congrArg Traced.events (assembleLines_eq file 1 (lines text))
  refine ⟨outcome, came, ready.reads.file_eq, fun requests enough => ?_, ?_,
    fun records sound => ?_, fun place failed => ?_⟩
  · have yielded : (Cursor.start file text).yielded settings.catalog settings.rules requests =
        Production.records settings text := Cursor.yielded_eq enough
    rw [yielded]
    exact delivers
  · rw [Outcome.exitCode_eq_zero_iff, failure, Option.map_eq_none_iff]
    exact exists_assembleText_iff.symm
  · obtain ⟨found, rfl⟩ := assembleText_eq_ok_iff.mp sound
    have faultless : Production.fault? settings file text = none := found
    rw [log, events, if_pos faultless]
    rfl
  · have found : Production.fault? settings file text = some place :=
      assembleText_eq_error_iff.mp failed
    rw [found] at failure log
    refine ⟨Outcome.exitCode_of_failure failure, ?_, ⟨_, lines_report found, ?_⟩,
      exists_cutBefore found, ?_⟩
    · rw [log, events, if_neg (Option.some_ne_none _), List.append_nil]
    · rw [outcome.standardError_eq, failure, Option.map_some, Option.toList_some,
        List.flatMap_singleton]
      exact List.suffix_append ..
    · intro front command world arguments settings' file limit? logSetting cut again admitsAgain
        layout rules catalog
      obtain ⟨faultless, same⟩ := cut.sound found file
      have sameOwed : Production.owed settings' front = outcome.written := by
        rw [delivers.1]
        unfold Production.owed Production.records
        rw [layout, catalog, rules, same]
      obtain ⟨other, cameAgain, deliversAgain, failureAgain, _⟩ :=
        again.ends_of_admits (sameOwed ▸ admitsAgain) logSetting
      refine ⟨other, cameAgain, ?_, deliversAgain.1.trans sameOwed⟩
      rw [Outcome.exitCode_eq_zero_iff, failureAgain, Production.fault?, catalog, rules, faultless]
      rfl

/-- A table with a load in front of a line with a fault. -/
def faultyTable : String := loadTable ++ unlistedTable

/-- What stands in front of that line. -/
def soundTable : String := loadTable ++ "$x\n"

/-- There is one file, with the one table, and the other is the standard input. -/
def tablesWorld : World :=
  ⟨⟨[(["in"], .file (encodeUtf8 faultyTable.toList))], [], []⟩, encodeUtf8 soundTable.toList, none⟩

/-- The arguments that name the file, and an output. -/
def fileArguments : Arguments := { Arguments.empty with input := some "in", output := some "out" }

theorem reads_tablesWorld (output : Option String) :
    Reads { fileArguments with output := output } tablesWorld
      (Arguments.settingsWith { fileArguments with output := output } .riscv) "in" faultyTable :=
  ⟨.riscv, tablesWorld, rfl, rfl,
    Settings.readInput_of_named rfl (World.readText_of_find_file rfl)⟩

/-- The record of the load. -/
def loadRecord : Record := ⟨⟨0x707f, 0x2003⟩, "lw", ["rd", "rs1", "imm12"], .wide⟩

/-- The line of the load. -/
def loadLine : String :=
  "Encoding \x7b name: \"lw\", mask: 0x0000707f, value: 0x00002003, " ++
    "fields: &[\"rd\", \"rs1\", \"imm12\"] \x7d,\n"

theorem closedLine_loadRecord :
    Layout.source.closedLine loadRecord = encodeUtf8 loadLine.toList := by
  have line : Layout.source.line loadRecord ++ ['\n'] = loadLine.toList := by decide +kernel
  rw [Layout.closedLine, line]

theorem command_agrees_with_table_unlisted :
    Ready ["in", "-o", "out"] tablesWorld fileArguments (fileArguments.settingsWith .riscv)
        "in" faultyTable none ∧
      Ready [] tablesWorld .empty (Arguments.empty.settingsWith .riscv)
        "<stdin>" soundTable none ∧
      ∃ outcome other, runCommand ["in", "-o", "out"] none tablesWorld = .outcome outcome ∧
        outcome.exitCode = 1 ∧
        Delivers tablesWorld.files (some "out") outcome (encodeUtf8 loadLine.toList) ∧
        runCommand [] none tablesWorld = .outcome other ∧ other.exitCode = 0 ∧
        other.written = outcome.written := by
  have created : tablesWorld.files.create "out" =
    .ok (tablesWorld.files.set ["out"] (.file []), ["out"]) := rfl
  have ready : Ready ["in", "-o", "out"] tablesWorld fileArguments
      (fileArguments.settingsWith .riscv) "in" faultyTable none :=
    ⟨rfl, reads_tablesWorld (some "out"), .named created⟩
  have again : Ready [] tablesWorld .empty (Arguments.empty.settingsWith .riscv)
      "<stdin>" soundTable none :=
    ⟨rfl, ⟨.riscv, tablesWorld, rfl, rfl,
      Settings.readInput_of_unnamed rfl (World.decode_encodeUtf8 soundTable _)⟩, .unnamed⟩
  have failed : (assembleText .riscv .mixed "in" faultyTable).outcome =
    .error ⟨"in", 3, "lx rd seven 1..0=3", .unknownField "seven"⟩ := rfl
  have cut : CutBefore ⟨"in", 3, "lx rd seven 1..0=3", .unknownField "seven"⟩ faultyTable
      soundTable :=
    ⟨.inr ⟨"lw rd rs1 imm12 14..12=2 6..2=0 1..0=3\r\n$x", rfl⟩, rfl, "lx rd seven 1..0=3", rfl,
      List.prefix_rfl⟩
  obtain ⟨outcome, came, _, delivers, _, _, failing⟩ :=
    command_agrees_with_table ready (admits_none _) none
  obtain ⟨exit, _, _, _, same⟩ := failing _ failed
  obtain ⟨other, cameAgain, exitAgain, written⟩ :=
    same _ _ _ _ _ _ _ none cut again (admits_none _) rfl rfl rfl
  have yielded : (Cursor.start "in" faultyTable).yielded .riscv .mixed 3 = [loadRecord] := rfl
  have delivered : Delivers tablesWorld.files (some "out") outcome
      (((Cursor.start "in" faultyTable).yielded .riscv .mixed 3).flatMap
        Layout.source.closedLine) := delivers 3 (by decide)
  rw [yielded, List.flatMap_singleton, closedLine_loadRecord] at delivered
  exact ⟨ready, again, outcome, other, came, exit, delivered, cameAgain, exitAgain, written⟩

end OpcodeTable
