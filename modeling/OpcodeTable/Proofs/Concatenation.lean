/-
This file is about tables that are put together. A text whose last line is closed by a newline
has the same lines in front of any other text as alone, and lines are read on their own, so what
the two texts give together is said by what each gives alone: the records of the one behind those
of the other, or the fault of the first text that has one. Only the number of a line is not its
own, and that counts the lines of the text in front.

Lines that are no definitions bring neither records nor faults. A block of them may therefore be
put between any two lines, and nothing changes but the numbers of the lines behind it.
-/

import OpcodeTable.Proofs.Outcome
import OpcodeTable.Proofs.Tables

namespace OpcodeTable

/-! ### Closed texts -/

namespace Text

/-- The text is empty or its last line is closed by a newline. -/
def Closed (text : String) : Prop := text = "" ∨ ∃ front, text = front ++ "\n"

theorem lines_append {first : String} (closed : Closed first) (second : String) :
    lines (first ++ second) = lines first ++ lines second := by
  rcases closed with rfl | ⟨front, rfl⟩
  · rw [String.empty_append]
    rfl
  · have cut := linesFrom_append_newline [] front.toList second.toList
    unfold lines
    rw [← List.map_append]
    simp only [String.toList_append, List.append_assoc]
    exact congrArg _ cut

theorem length_linesFrom_newline (begun front : List Char) :
    (linesFrom begun (front ++ ['\n'])).length = (front ++ ['\n']).count '\n' := by
  induction front generalizing begun with
  | nil => rfl
  | cons c rest inductionHypothesis =>
    rw [List.cons_append, linesFrom]
    split
    · next newline =>
      rw [newline, List.length_cons, inductionHypothesis, List.count_cons_self]
    · next other =>
      rw [inductionHypothesis, List.count_cons_of_ne other]

/-- A closed text has as many lines as newlines. -/
theorem length_lines {text : String} (closed : Closed text) :
    (lines text).length = text.toList.count '\n' := by
  rcases closed with rfl | ⟨front, rfl⟩
  · rfl
  · unfold lines
    rw [List.length_map, String.toList_append]
    exact length_linesFrom_newline [] front.toList

end Text

/-! ### Tables one behind the other -/

/-- The fault with its line so many lines further down. -/
def TableFault.lowered (lines : Nat) (place : TableFault) : TableFault :=
  { place with number := place.number + lines }

variable {catalog : Catalog} {rules : Rules}

/-- The fault of two tables is that of the first, or else that of the second. -/
theorem tableFault?_append (file : String) (number : Nat) (first second : List String) :
    tableFault? catalog rules file number (first ++ second) =
      (tableFault? catalog rules file number first).or
        (tableFault? catalog rules file (number + first.length) second) := by
  induction first generalizing number with
  | nil => rfl
  | cons line later inductionHypothesis =>
    rw [List.cons_append]
    cases read : (assembleLine catalog rules line).outcome with
    | error own => rw [tableFault?_of_error read, tableFault?_of_error read, Option.some_or]
    | ok result =>
      rw [tableFault?_of_ok read, tableFault?_of_ok read, inductionHypothesis, List.length_cons,
        Nat.add_assoc, Nat.add_comm 1]

theorem tableFault?_lowered (file : String) (number front : Nat) (lines : List String) :
    tableFault? catalog rules file (number + front) lines =
      (tableFault? catalog rules file number lines).map (.lowered front) := by
  induction lines generalizing number with
  | nil => rfl
  | cons line later inductionHypothesis =>
    cases read : (assembleLine catalog rules line).outcome with
    | error own => rw [tableFault?_of_error read, tableFault?_of_error read]; rfl
    | ok result =>
      rw [tableFault?_of_ok read, tableFault?_of_ok read, ← inductionHypothesis,
        Nat.add_right_comm]

/-- A fault stands in one of the lines. -/
theorem number_of_tableFault? {file : String} {number : Nat} {lines : List String}
    {place : TableFault} (found : tableFault? catalog rules file number lines = some place) :
    number ≤ place.number ∧ place.number < number + lines.length := by
  obtain ⟨_, _, stands, _, rfl⟩ := tableFault?_eq_some_iff.mp found
  have bound := (List.getElem?_eq_some_iff.mp stands).1
  exact ⟨Nat.le_add_right _ _, Nat.add_lt_add_left bound _⟩

/-- Behind a table without a fault the records of another follow its own. -/
theorem tableRecords_append {first : List String} {file : String} {number : Nat}
    (sound : tableFault? catalog rules file number first = none) (second : List String) :
    tableRecords catalog rules (first ++ second) =
      tableRecords catalog rules first ++ tableRecords catalog rules second := by
  induction first generalizing number with
  | nil => rfl
  | cons line later inductionHypothesis =>
    cases read : (assembleLine catalog rules line).outcome with
    | error own =>
      rw [tableFault?_of_error read] at sound
      cases sound
    | ok result =>
      rw [tableFault?_of_ok read] at sound
      rw [List.cons_append, tableRecords_of_ok read, tableRecords_of_ok read,
        inductionHypothesis sound, List.append_assoc]

/-! ### Lines that are no definitions -/

section Silent

variable {block : List String} (silent : ∀ line ∈ block, LineKind.ofLine line ≠ .definition)

include silent

theorem tableFault?_silent (file : String) (number : Nat) :
    tableFault? catalog rules file number block = none := by
  induction block generalizing number with
  | nil => rfl
  | cons line later inductionHypothesis =>
    have read : (assembleLine catalog rules line).outcome = .ok none := by
      rw [assembleLine_of_skipped catalog rules (silent line List.mem_cons_self)]
    rw [tableFault?_of_ok read]
    exact inductionHypothesis (fun other member => silent other (List.mem_cons_of_mem _ member)) _

theorem tableRecords_silent : tableRecords catalog rules block = [] := by
  induction block with
  | nil => rfl
  | cons line later inductionHypothesis =>
    have read : (assembleLine catalog rules line).outcome = .ok none := by
      rw [assembleLine_of_skipped catalog rules (silent line List.mem_cons_self)]
    rw [tableRecords_of_ok read]
    exact inductionHypothesis fun other member => silent other (List.mem_cons_of_mem _ member)

/-- A block between two lines changes no record. -/
theorem tableRecords_insert (first second : List String) :
    tableRecords catalog rules (first ++ (block ++ second)) =
      tableRecords catalog rules (first ++ second) := by
  induction first with
  | nil =>
    rw [List.nil_append, List.nil_append, tableRecords_append (tableFault?_silent silent "" 1),
      tableRecords_silent silent, List.nil_append]
  | cons line later inductionHypothesis =>
    rw [List.cons_append, List.cons_append]
    cases read : (assembleLine catalog rules line).outcome with
    | error own => rw [tableRecords_of_error read, tableRecords_of_error read]
    | ok result => rw [tableRecords_of_ok read, tableRecords_of_ok read, inductionHypothesis]

/-- A block between two lines moves the faults behind it on. -/
theorem tableFault?_insert (file : String) (number : Nat) (first second : List String) :
    tableFault? catalog rules file number (first ++ (block ++ second)) =
      (tableFault? catalog rules file number (first ++ second)).map fun place =>
        if place.number < number + first.length then place else place.lowered block.length := by
  rw [tableFault?_append, tableFault?_append, tableFault?_append,
    tableFault?_silent silent, Option.none_or, tableFault?_lowered]
  cases inFirst : tableFault? catalog rules file number first with
  | some place =>
    rw [Option.some_or, Option.some_or, Option.map_some,
      if_pos (number_of_tableFault? inFirst).2]
  | none =>
    rw [Option.none_or, Option.none_or]
    cases behind : tableFault? catalog rules file (number + first.length) second with
    | none => rfl
    | some place =>
      have above := (number_of_tableFault? behind).1
      rw [Option.map_some, Option.map_some, if_neg (Nat.not_lt.mpr above)]

end Silent

/-! ### Texts one behind the other -/

/-- What two texts give together, the first of which is closed: the fault of the first, or else
the fault of the second further down by the newlines of the first, or else the records of both. A
block of lines that are no definitions, put between the two, changes no record and moves a fault
behind it on by its own newlines. The block is closed unless nothing follows it. -/
theorem assembleText_append (catalog : Catalog) (rules : Rules) (file : String) {first : String}
    (closed : Text.Closed first) (second : String) :
    let read (text : String) := (assembleText catalog rules file text).outcome
    let newlines (text : String) := text.toList.count '\n'
    (∀ place, read first = .error place → read (first ++ second) = .error place) ∧
      (∀ records place, read first = .ok records → read second = .error place →
        read (first ++ second) = .error { place with number := place.number + newlines first }) ∧
      (∀ records later, read first = .ok records → read second = .ok later →
        read (first ++ second) = .ok (records ++ later)) ∧
      ∀ block, (∀ line ∈ Text.lines block, LineKind.ofLine line ≠ .definition) →
        (Text.Closed block ∨ second = "") →
        (∀ records, read (first ++ second) = .ok records →
          read (first ++ (block ++ second)) = .ok records) ∧
        (∀ place, read (first ++ second) = .error place →
          read (first ++ (block ++ second)) = .error (if place.number ≤ newlines first then place
            else { place with number := place.number + newlines block })) ∧
        tableRecords catalog rules (Text.lines (first ++ (block ++ second))) =
          tableRecords catalog rules (Text.lines (first ++ second)) := by
  intro read newlines
  have joined (later : String) := Text.lines_append closed later
  have height : (Text.lines first).length = newlines first := Text.length_lines closed
  refine ⟨fun place failed => ?_, fun records place sound failed => ?_,
    fun records later sound laterSound => ?_, fun block silent apart => ?_⟩
  · refine assembleText_eq_error_iff.mpr ?_
    rw [joined, tableFault?_append, assembleText_eq_error_iff.mp failed, Option.some_or]
  · refine assembleText_eq_error_iff.mpr ?_
    rw [joined, tableFault?_append, (assembleText_eq_ok_iff.mp sound).1, Option.none_or,
      tableFault?_lowered, assembleText_eq_error_iff.mp failed, height]
    rfl
  · obtain ⟨faultless, rfl⟩ := assembleText_eq_ok_iff.mp sound
    obtain ⟨laterFaultless, rfl⟩ := assembleText_eq_ok_iff.mp laterSound
    refine assembleText_eq_ok_iff.mpr ⟨?_, ?_⟩
    · rw [joined, tableFault?_append, faultless, Option.none_or, tableFault?_lowered,
        laterFaultless]
      rfl
    · rw [joined, tableRecords_append faultless]
  · have inserted : Text.lines (first ++ (block ++ second)) =
        Text.lines first ++ (Text.lines block ++ Text.lines second) := by
      rw [joined]
      rcases apart with blockClosed | rfl
      · rw [Text.lines_append blockClosed]
      · rw [String.append_empty]
        exact congrArg _ (List.append_nil _).symm
    have records : tableRecords catalog rules (Text.lines (first ++ (block ++ second))) =
        tableRecords catalog rules (Text.lines (first ++ second)) := by
      rw [inserted, joined, tableRecords_insert silent]
    have fault : tableFault? catalog rules file 1 (Text.lines (first ++ (block ++ second))) =
        (tableFault? catalog rules file 1 (Text.lines (first ++ second))).map fun place =>
          if place.number < 1 + (Text.lines first).length then place
          else place.lowered (Text.lines block).length := by
      rw [inserted, joined, tableFault?_insert silent]
    refine ⟨fun own sound => ?_, fun place failed => ?_, records⟩
    · obtain ⟨faultless, rfl⟩ := assembleText_eq_ok_iff.mp sound
      exact assembleText_eq_ok_iff.mpr ⟨by rw [fault, faultless]; rfl, records⟩
    · have found := assembleText_eq_error_iff.mp failed
      refine assembleText_eq_error_iff.mpr ?_
      rw [fault, found, Option.map_some, height]
      by_cases before : place.number ≤ newlines first
      · rw [if_pos (Nat.lt_one_add_iff.mpr before), if_pos before]
      · rw [if_neg (mt Nat.lt_one_add_iff.mp before), if_neg before]
        -- Nothing is behind a block that is not closed, so no fault is either.
        rcases apart with blockClosed | rfl
        · rw [Text.length_lines blockClosed]
          rfl
        · rw [String.append_empty] at found
          have inside := (number_of_tableFault? found).2
          omega

/-- A table with one load. -/
def loadTable : String := "lw rd rs1 imm12 14..12=2 6..2=0 1..0=3\r\n"

/-- A table whose second line has a field that no catalog lists. -/
def unlistedTable : String := "$x\nlx rd seven 1..0=3"

/-- A blank line and a comment. -/
def noteLines : String := "\r\n# seven\r\n"

/-- Two loads, and a load in front of the line with the fault, with and without lines between. -/
theorem assembleText_append_loadTable :
    Text.Closed loadTable ∧ Text.Closed noteLines ∧
      (∀ line ∈ Text.lines noteLines, LineKind.ofLine line ≠ .definition) ∧
      (assembleText .riscv .mixed "t" (loadTable ++ loadTable)).outcome =
        .ok [⟨⟨0x707f, 0x2003⟩, "lw", ["rd", "rs1", "imm12"], .wide⟩,
          ⟨⟨0x707f, 0x2003⟩, "lw", ["rd", "rs1", "imm12"], .wide⟩] ∧
      (assembleText .riscv .mixed "t" (loadTable ++ unlistedTable)).outcome =
        .error ⟨"t", 3, "lx rd seven 1..0=3", .unknownField "seven"⟩ ∧
      (assembleText .riscv .mixed "t" (loadTable ++ (noteLines ++ unlistedTable))).outcome =
        .error ⟨"t", 5, "lx rd seven 1..0=3", .unknownField "seven"⟩ := by
  have closed : Text.Closed loadTable := .inr ⟨"lw rd rs1 imm12 14..12=2 6..2=0 1..0=3\r", rfl⟩
  have noteClosed : Text.Closed noteLines := .inr ⟨"\r\n# seven\r", rfl⟩
  have silent : ∀ line ∈ Text.lines noteLines, LineKind.ofLine line ≠ .definition := by decide
  have sound : (assembleText .riscv .mixed "t" loadTable).outcome =
    .ok [⟨⟨0x707f, 0x2003⟩, "lw", ["rd", "rs1", "imm12"], .wide⟩] := rfl
  have failed : (assembleText .riscv .mixed "t" unlistedTable).outcome =
    .error ⟨"t", 2, "lx rd seven 1..0=3", .unknownField "seven"⟩ := rfl
  have ⟨_, _, joined, _⟩ := assembleText_append .riscv .mixed "t" closed loadTable
  have ⟨_, behind, _, inserted⟩ := assembleText_append .riscv .mixed "t" closed unlistedTable
  have apart := behind _ _ sound failed
  exact ⟨closed, noteClosed, silent, joined _ _ sound sound, apart,
    (inserted noteLines silent (.inl noteClosed)).2.1 _ apart⟩

end OpcodeTable
