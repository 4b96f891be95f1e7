/-
This file is about a table as a whole. Lines are read on their own, so all that a table gives
is said by its first line with a fault: the records are those of the lines before it, the fault
is that line's with its place added, and the events are those of the lines up to it. A table
without such a line gives the records and the events of all its lines.

The number of a line counts the newlines before it, whatever the lines in between hold.
-/

import OpcodeTable.Table

namespace OpcodeTable

/-! ### Where a line stands -/

namespace Text

/-- The line stands in the text behind the given number of newlines. It begins where the text
or a line begins, and it ends where the text or a line ends. -/
def StandsBehind (newlines : Nat) (line text : List Char) : Prop :=
  ∃ before after, text = before ++ (line ++ after) ∧ before.count '\n' = newlines ∧
    (before = [] ∨ ∃ earlier, before = earlier ++ ['\n']) ∧ '\n' ∉ line ∧
    (after = [] ∨ ∃ later, after = '\n' :: later ∨ after = '\r' :: '\n' :: later)

theorem standsBehind_zero {line after : List Char} (inside : '\n' ∉ line)
    (ending : after = [] ∨ ∃ later, after = '\n' :: later ∨ after = '\r' :: '\n' :: later) :
    StandsBehind 0 line (line ++ after) :=
  ⟨[], after, rfl, rfl, .inl rfl, inside, ending⟩

/-- A line in front moves the lines of a text on by one newline. -/
theorem StandsBehind.succ {newlines : Nat} {line text : List Char}
    (stands : StandsBehind newlines line text) {front : List Char} (inside : '\n' ∉ front) :
    StandsBehind (newlines + 1) line (front ++ '\n' :: text) := by
  obtain ⟨before, after, rfl, count, start, rest⟩ := stands
  refine ⟨front ++ '\n' :: before, after, by rw [List.append_assoc, List.cons_append], ?_, .inr ?_,
    rest⟩
  · rw [List.count_append, List.count_eq_zero_of_not_mem inside, List.count_cons_self, count,
      Nat.zero_add]
  · rcases start with rfl | ⟨earlier, rfl⟩
    · exact ⟨front, rfl⟩
    · exact ⟨front ++ '\n' :: earlier, by rw [List.append_assoc, List.cons_append]⟩

/-- The line that a newline closes, and the carriage return that belongs to that ending. -/
theorem standsBehind_stripReturn {line : List Char} (inside : '\n' ∉ line) (rest : List Char) :
    StandsBehind 0 (stripReturn line).reverse (line.reverse ++ '\n' :: rest) := by
  unfold stripReturn
  split
  · next line =>
    rw [List.reverse_cons, List.append_assoc]
    refine standsBehind_zero ?_ (.inr ⟨rest, .inr rfl⟩)
    exact fun member => inside (List.mem_cons_of_mem _ (List.mem_reverse.mp member))
  · exact standsBehind_zero (fun member => inside (List.mem_reverse.mp member))
      (.inr ⟨rest, .inl rfl⟩)

theorem standsBehind_of_linesFrom {begun text line : List Char} {index : Nat}
    (inside : '\n' ∉ begun) (found : (linesFrom begun text)[index]? = some line) :
    StandsBehind index line (begun.reverse ++ text) := by
  induction text generalizing begun index with
  | nil =>
    rw [linesFrom] at found
    split at found
    · cases found
    · cases index with
      | zero =>
        cases found
        exact standsBehind_zero (fun member => inside (List.mem_reverse.mp member)) (.inl rfl)
      | succ index => cases found
  | cons c rest inductionHypothesis =>
    rw [linesFrom] at found
    split at found
    · next newline =>
      subst newline
      cases index with
      | zero =>
        cases found
        exact standsBehind_stripReturn inside rest
      | succ index =>
        exact (inductionHypothesis List.not_mem_nil found).succ
          fun member => inside (List.mem_reverse.mp member)
    · next other =>
      have moved := inductionHypothesis
        (fun member => (List.mem_cons.mp member).elim (fun same => other same.symm) inside) found
      rwa [List.reverse_cons, List.append_assoc] at moved

/-- The line with a given index stands behind that many newlines. -/
theorem standsBehind_of_lines {text line : String} {index : Nat}
    (found : (lines text)[index]? = some line) :
    StandsBehind index line.toList text.toList := by
  rw [lines, List.getElem?_map, Option.map_eq_some_iff] at found
  obtain ⟨characters, found, rfl⟩ := found
  rw [String.toList_ofList]
  exact standsBehind_of_linesFrom List.not_mem_nil found

end Text

/-! ### What a table gives -/

section

variable (catalog : Catalog) (rules : Rules)

/-- The record of a line, when it has one. -/
def lineRecord? (line : String) : Option Record :=
  match (assembleLine catalog rules line).outcome with
  | .ok record => record
  | .error _ => none

/-- The fault of a line, when it has one. -/
def lineFault? (line : String) : Option Fault :=
  match (assembleLine catalog rules line).outcome with
  | .ok _ => none
  | .error fault => some fault

/-- How many lines stand before the first one with a fault; all of them when there is none. -/
def firstFault (lines : List String) : Nat :=
  lines.findIdx fun line => (lineFault? catalog rules line).isSome

/-- The records of the lines before the first fault. -/
def tableRecords (lines : List String) : List Record :=
  (lines.take (firstFault catalog rules lines)).filterMap (lineRecord? catalog rules)

/-- The first fault with its place, when the first line has the given number. -/
def tableFault? (file : String) (number : Nat) (lines : List String) : Option TableFault := do
  let line ← lines[firstFault catalog rules lines]?
  let fault ← lineFault? catalog rules line
  return ⟨file, number + firstFault catalog rules lines, line, fault⟩

/-- The events of the lines up to the one with the first fault. -/
def tableEvents (lines : List String) : List Event :=
  (lines.take (firstFault catalog rules lines + 1)).flatMap fun line =>
    (assembleLine catalog rules line).events

end

variable {catalog : Catalog} {rules : Rules} {line : String} {result : Option Record}
  {own : Fault}

/-! ### The first line of a table -/

theorem outcome_assembleLines_of_ok
    (sound : (assembleLine catalog rules line).outcome = .ok result) (file : String) (number : Nat)
    (later : List String) :
    (assembleLines catalog rules file number (line :: later)).outcome =
      (assembleLines catalog rules file (number + 1) later).outcome.map (result.toList ++ ·) := by
  rw [assembleLines, Traced.mapFault, sound]
  rfl

theorem outcome_assembleLines_of_error
    (failed : (assembleLine catalog rules line).outcome = .error own) (file : String)
    (number : Nat) (later : List String) :
    (assembleLines catalog rules file number (line :: later)).outcome =
      .error ⟨file, number, line, own⟩ := by
  rw [assembleLines, Traced.mapFault, failed]
  rfl

theorem firstFault_of_ok (sound : (assembleLine catalog rules line).outcome = .ok result)
    (later : List String) :
    firstFault catalog rules (line :: later) = firstFault catalog rules later + 1 := by
  simp [firstFault, List.findIdx_cons, lineFault?, sound]

theorem firstFault_of_error (failed : (assembleLine catalog rules line).outcome = .error own)
    (later : List String) : firstFault catalog rules (line :: later) = 0 := by
  simp [firstFault, List.findIdx_cons, lineFault?, failed]

theorem tableRecords_of_ok (sound : (assembleLine catalog rules line).outcome = .ok result)
    (later : List String) :
    tableRecords catalog rules (line :: later) =
      result.toList ++ tableRecords catalog rules later := by
  have found : lineRecord? catalog rules line = result := by rw [lineRecord?, sound]
  rw [tableRecords, firstFault_of_ok sound, List.take_succ_cons, List.filterMap_cons, found]
  cases result <;> rfl

theorem tableRecords_of_error (failed : (assembleLine catalog rules line).outcome = .error own)
    (later : List String) : tableRecords catalog rules (line :: later) = [] := by
  rw [tableRecords, firstFault_of_error failed]
  rfl

theorem tableFault?_of_ok (sound : (assembleLine catalog rules line).outcome = .ok result)
    (file : String) (number : Nat) (later : List String) :
    tableFault? catalog rules file number (line :: later) =
      tableFault? catalog rules file (number + 1) later := by
  unfold tableFault?
  rw [firstFault_of_ok sound, List.getElem?_cons_succ, Nat.add_comm (firstFault _ _ _) 1,
    ← Nat.add_assoc]

theorem tableFault?_of_error (failed : (assembleLine catalog rules line).outcome = .error own)
    (file : String) (number : Nat) (later : List String) :
    tableFault? catalog rules file number (line :: later) = some ⟨file, number, line, own⟩ := by
  have found : lineFault? catalog rules line = some own := by rw [lineFault?, failed]
  unfold tableFault?
  rw [firstFault_of_error failed, List.getElem?_cons_zero]
  simp [found]

theorem tableEvents_of_ok (sound : (assembleLine catalog rules line).outcome = .ok result)
    (later : List String) :
    tableEvents catalog rules (line :: later) =
      (assembleLine catalog rules line).events ++ tableEvents catalog rules later := by
  rw [tableEvents, firstFault_of_ok sound, List.take_succ_cons, List.flatMap_cons]
  rfl

theorem tableEvents_of_error (failed : (assembleLine catalog rules line).outcome = .error own)
    (later : List String) :
    tableEvents catalog rules (line :: later) = (assembleLine catalog rules line).events := by
  rw [tableEvents, firstFault_of_error failed, List.take_succ_cons, List.take_zero]
  exact List.append_nil _

/-! ### The whole table -/

/-- The lines before the first fault are sound. -/
theorem sound_before_firstFault {lines : List String}
    (member : line ∈ lines.take (firstFault catalog rules lines)) :
    ∃ result, (assembleLine catalog rules line).outcome = .ok result := by
  induction lines with
  | nil => cases member
  | cons first later inductionHypothesis =>
    cases read : (assembleLine catalog rules first).outcome with
    | error own =>
      rw [firstFault_of_error read] at member
      cases member
    | ok result =>
      rw [firstFault_of_ok read, List.take_succ_cons] at member
      rcases List.mem_cons.mp member with rfl | member
      · exact ⟨result, read⟩
      · exact inductionHypothesis member

theorem lineRecord?_eq_some_iff {record : Record} :
    lineRecord? catalog rules line = some record ↔
      (assembleLine catalog rules line).outcome = .ok (some record) := by
  unfold lineRecord?
  split
  · next sound =>
    rw [sound]
    exact ⟨fun found => congrArg _ found, Except.ok.inj⟩
  · next failed =>
    exact ⟨fun found => (nomatch found), fun sound => nomatch failed.symm.trans sound⟩

theorem lineFault?_eq_some_iff :
    lineFault? catalog rules line = some own ↔
      (assembleLine catalog rules line).outcome = .error own := by
  unfold lineFault?
  split
  · next sound =>
    exact ⟨fun found => (nomatch found), fun failed => nomatch sound.symm.trans failed⟩
  · next failed =>
    rw [failed]
    exact ⟨fun found => congrArg _ (Option.some.inj found),
      fun same => congrArg _ (Except.error.inj same)⟩

theorem tableFault?_eq_some_iff {file : String} {number : Nat} {lines : List String}
    {fault : TableFault} :
    tableFault? catalog rules file number lines = some fault ↔
      ∃ line own, lines[firstFault catalog rules lines]? = some line ∧
        (assembleLine catalog rules line).outcome = .error own ∧
        fault = ⟨file, number + firstFault catalog rules lines, line, own⟩ := by
  simp only [tableFault?, Option.bind_eq_bind, Option.bind_eq_some_iff, lineFault?_eq_some_iff,
    Option.pure_def, Option.some.injEq, exists_and_left, eq_comm (b := fault)]

/-- There is no fault just when all lines stand before the first one. -/
theorem tableFault?_eq_none_iff {file : String} {number : Nat} {lines : List String} :
    tableFault? catalog rules file number lines = none ↔
      firstFault catalog rules lines = lines.length := by
  induction lines generalizing number with
  | nil => exact iff_of_true rfl rfl
  | cons line later inductionHypothesis =>
    cases read : (assembleLine catalog rules line).outcome with
    | error own =>
      rw [tableFault?_of_error read, firstFault_of_error read]
      exact ⟨fun found => (nomatch found), fun same => nomatch same⟩
    | ok result =>
      rw [tableFault?_of_ok read, firstFault_of_ok read, inductionHypothesis, List.length_cons,
        Nat.add_right_cancel_iff]

/-- Reading all the lines of a table gives what its first fault says. -/
theorem assembleLines_eq (file : String) (number : Nat) (lines : List String) :
    assembleLines catalog rules file number lines =
      ⟨tableEvents catalog rules lines,
        match tableFault? catalog rules file number lines with
        | none => .ok (tableRecords catalog rules lines)
        | some fault => .error fault⟩ := by
  induction lines generalizing number with
  | nil => rfl
  | cons line later inductionHypothesis =>
    unfold assembleLines
    cases read : (assembleLine catalog rules line).outcome with
    | error own =>
      rw [tableEvents_of_error read, tableFault?_of_error read, Traced.mapFault, read]
      rfl
    | ok result =>
      rw [tableEvents_of_ok read, tableFault?_of_ok read, tableRecords_of_ok read,
        inductionHypothesis, Traced.mapFault, read]
      cases tableFault? catalog rules file (number + 1) later <;> rfl

/-- A text is read to the end when no line has a fault. -/
theorem assembleText_eq_ok_iff {file text : String} {records : List Record} :
    (assembleText catalog rules file text).outcome = .ok records ↔
      tableFault? catalog rules file 1 (Text.lines text) = none ∧
        tableRecords catalog rules (Text.lines text) = records := by
  rw [assembleText, assembleLines_eq]
  cases tableFault? catalog rules file 1 (Text.lines text) with
  | none => exact ⟨fun read => ⟨rfl, Except.ok.inj read⟩, fun ⟨_, same⟩ => congrArg _ same⟩
  | some place => exact ⟨fun read => (nomatch read), fun ⟨impossible, _⟩ => nomatch impossible⟩

theorem assembleText_eq_error_iff {file text : String} {place : TableFault} :
    (assembleText catalog rules file text).outcome = .error place ↔
      tableFault? catalog rules file 1 (Text.lines text) = some place := by
  rw [assembleText, assembleLines_eq]
  cases tableFault? catalog rules file 1 (Text.lines text) with
  | none => exact ⟨fun failed => (nomatch failed), fun impossible => nomatch impossible⟩
  | some own =>
    exact ⟨fun failed => congrArg _ (Except.error.inj failed),
      fun same => congrArg _ (Option.some.inj same)⟩

theorem exists_assembleText_iff {file text : String} :
    (∃ records, (assembleText catalog rules file text).outcome = .ok records) ↔
      tableFault? catalog rules file 1 (Text.lines text) = none :=
  ⟨fun ⟨_, read⟩ => (assembleText_eq_ok_iff.mp read).1,
    fun sound => ⟨_, assembleText_eq_ok_iff.mpr ⟨sound, rfl⟩⟩⟩

end OpcodeTable
