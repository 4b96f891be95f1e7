/-
This file is about the record by record reading of a table. Whatever was asked of a cursor
before, the answers it still owes are the records in front of the first fault of its lines,
then that fault, and from then on that there is nothing more: each request takes one answer off
the front of what is due. The events of the requests add up to the events of the whole table,
and the lines behind the first fault make no difference to any of them.
-/

import OpcodeTable.Proofs.Tables
import OpcodeTable.Table.Cursor

namespace OpcodeTable

namespace Cursor

/-! ### Requests -/

section

variable (catalog : Catalog) (rules : Rules)

/-- The answers to so many requests for the next record, one after the other. -/
def answers : Nat → Cursor → List (Traced TableFault (Option Record))
  | 0, _ => []
  | requests + 1, cursor =>
    let (answer, behind) := cursor.next catalog rules
    answer :: answers requests behind

/-- What a cursor has yet to answer before there is nothing more. -/
def due (cursor : Cursor) : List (Except TableFault (Option Record)) :=
  (tableRecords catalog rules cursor.rest).map (fun record => .ok (some record)) ++
    (tableFault? catalog rules cursor.file cursor.number cursor.rest).toList.map .error

/-- The cursor without the lines behind the first fault. -/
def upToFault (cursor : Cursor) : Cursor :=
  { cursor with rest := cursor.rest.take (firstFault catalog rules cursor.rest + 1) }

/-- What a request does to a cursor: it gives the first answer that is due and reports events
from the front of those of the table. A cursor without records has read all its lines then. -/
structure Advances (cursor : Cursor) (answer : Traced TableFault (Option Record))
    (behind : Cursor) : Prop where
  outcome : answer.outcome = (cursor.due catalog rules).headD (.ok none)
  due : behind.due catalog rules = (cursor.due catalog rules).tail
  events : answer.events ++ tableEvents catalog rules behind.rest =
    tableEvents catalog rules cursor.rest
  records : tableRecords catalog rules behind.rest = (tableRecords catalog rules cursor.rest).tail
  exhausted : tableRecords catalog rules cursor.rest = [] → behind.rest = []

end

variable {catalog : Catalog} {rules : Rules} {line : String} {result : Option Record}
  {own : Fault}

theorem due_of_ok (sound : (assembleLine catalog rules line).outcome = .ok result)
    (file : String) (number : Nat) (later : List String) :
    due catalog rules ⟨file, number, line :: later⟩ =
      result.toList.map (fun record => .ok (some record)) ++
        due catalog rules ⟨file, number + 1, later⟩ := by
  unfold due
  rw [tableRecords_of_ok sound, tableFault?_of_ok sound, List.map_append, List.append_assoc]

theorem due_of_error (failed : (assembleLine catalog rules line).outcome = .error own)
    (file : String) (number : Nat) (later : List String) :
    due catalog rules ⟨file, number, line :: later⟩ = [.error ⟨file, number, line, own⟩] := by
  unfold due
  rw [tableRecords_of_error failed, tableFault?_of_error failed]
  rfl

/-! ### One request -/

theorem advance_of_record {record : Record}
    (read : (assembleLine catalog rules line).outcome = .ok (some record))
    (file : String) (number : Nat) (later : List String) :
    advance catalog rules file number (line :: later) =
      (⟨(assembleLine catalog rules line).events, .ok (some record)⟩,
        ⟨file, number + 1, later⟩) := by
  rw [advance, Traced.mapFault, read]
  rfl

theorem advance_of_error (failed : (assembleLine catalog rules line).outcome = .error own)
    (file : String) (number : Nat) (later : List String) :
    advance catalog rules file number (line :: later) =
      (⟨(assembleLine catalog rules line).events, .error ⟨file, number, line, own⟩⟩,
        ⟨file, number + 1, []⟩) := by
  rw [advance, Traced.mapFault, failed]
  rfl

theorem advance_of_none (silent : (assembleLine catalog rules line).outcome = .ok none)
    (file : String) (number : Nat) (later : List String) :
    advance catalog rules file number (line :: later) =
      (⟨(assembleLine catalog rules line).events ++
          (advance catalog rules file (number + 1) later).1.events,
        (advance catalog rules file (number + 1) later).1.outcome⟩,
        (advance catalog rules file (number + 1) later).2) := by
  rw [advance, Traced.mapFault, silent]
  rfl

theorem advance_advances (file : String) (number : Nat) (lines : List String) :
    Advances catalog rules ⟨file, number, lines⟩ (advance catalog rules file number lines).1
      (advance catalog rules file number lines).2 := by
  induction lines generalizing number with
  | nil => exact ⟨rfl, rfl, rfl, rfl, fun _ => rfl⟩
  | cons line later inductionHypothesis =>
    rcases read : (assembleLine catalog rules line).outcome with own | _ | record
    · rw [advance_of_error read]
      refine ⟨?_, ?_, ?_, ?_, fun _ => rfl⟩
      · rw [due_of_error read, List.headD_cons]
      · rw [due_of_error read]
        rfl
      · rw [tableEvents_of_error read]
        exact List.append_nil _
      · rw [tableRecords_of_error read]
        rfl
    · rw [advance_of_none read]
      have behind := inductionHypothesis (number + 1)
      refine ⟨?_, ?_, ?_, ?_, ?_⟩
      · rw [due_of_ok read]
        exact behind.outcome
      · rw [due_of_ok read]
        exact behind.due
      · rw [tableEvents_of_ok read, List.append_assoc, behind.events]
      · rw [tableRecords_of_ok read]
        exact behind.records
      · rw [tableRecords_of_ok read]
        exact behind.exhausted
    · rw [advance_of_record read]
      refine ⟨?_, ?_, ?_, ?_, ?_⟩
      · rw [due_of_ok read]
        rfl
      · rw [due_of_ok read]
        rfl
      · rw [tableEvents_of_ok read]
      · rw [tableRecords_of_ok read]
        rfl
      · rw [tableRecords_of_ok read]
        exact fun empty => nomatch empty

/-- Each request takes one answer off the front of those that are due. -/
theorem next_advances (catalog : Catalog) (rules : Rules) (cursor : Cursor) :
    Advances catalog rules cursor (cursor.next catalog rules).1 (cursor.next catalog rules).2 :=
  advance_advances cursor.file cursor.number cursor.rest

theorem advance_upToFault (file : String) (number : Nat) (lines : List String) :
    advance catalog rules file number (lines.take (firstFault catalog rules lines + 1)) =
      ((advance catalog rules file number lines).1,
        (advance catalog rules file number lines).2.upToFault catalog rules) := by
  induction lines generalizing number with
  | nil => rfl
  | cons line later inductionHypothesis =>
    rcases read : (assembleLine catalog rules line).outcome with own | _ | record
    · rw [firstFault_of_error read, List.take_succ_cons, advance_of_error read,
        advance_of_error read]
      rfl
    · rw [firstFault_of_ok read, List.take_succ_cons, advance_of_none read, advance_of_none read,
        inductionHypothesis]
    · rw [firstFault_of_ok read, List.take_succ_cons, advance_of_record read,
        advance_of_record read]
      rfl

/-- The lines behind the first fault make no difference to the answer. -/
theorem next_upToFault (cursor : Cursor) :
    (cursor.upToFault catalog rules).next catalog rules =
      ((cursor.next catalog rules).1,
        (cursor.next catalog rules).2.upToFault catalog rules) :=
  advance_upToFault cursor.file cursor.number cursor.rest

/-! ### Any number of requests -/

theorem answers_succ (requests : Nat) (cursor : Cursor) :
    answers catalog rules (requests + 1) cursor =
      (cursor.next catalog rules).1 ::
        answers catalog rules requests (cursor.next catalog rules).2 := rfl

/-- What is due comes first, and then there is nothing more. -/
theorem outcome_answers (requests : Nat) (cursor : Cursor) :
    (answers catalog rules requests cursor).map (·.outcome) =
      (cursor.due catalog rules).take requests ++
        List.replicate (requests - (cursor.due catalog rules).length) (.ok none) := by
  induction requests generalizing cursor with
  | zero => rw [Nat.zero_sub]; rfl
  | succ requests inductionHypothesis =>
    have step := next_advances catalog rules cursor
    rw [answers_succ, List.map_cons, inductionHypothesis, step.outcome, step.due]
    cases cursor.due catalog rules with
    | nil => rw [List.headD_nil, List.tail_nil, List.take_nil, List.take_nil, List.length_nil,
        Nat.sub_zero, Nat.sub_zero, List.nil_append, List.nil_append, List.replicate_succ]
    | cons answer answers => rw [List.headD_cons, List.tail_cons, List.take_succ_cons,
        List.length_cons, Nat.add_sub_add_right, List.cons_append]

theorem events_answers_isPrefix (catalog : Catalog) (rules : Rules) (requests : Nat)
    (cursor : Cursor) :
    (answers catalog rules requests cursor).flatMap (·.events) <+:
      tableEvents catalog rules cursor.rest := by
  induction requests generalizing cursor with
  | zero => exact List.nil_prefix
  | succ requests inductionHypothesis =>
    rw [answers_succ, List.flatMap_cons, ← (next_advances catalog rules cursor).events]
    exact (List.prefix_append_right_inj _).mpr (inductionHypothesis _)

/-- When more was asked for than there are records, all events have been reported. -/
theorem events_answers {requests : Nat} {cursor : Cursor}
    (more : (tableRecords catalog rules cursor.rest).length < requests) :
    (answers catalog rules requests cursor).flatMap (·.events) =
      tableEvents catalog rules cursor.rest := by
  induction requests generalizing cursor with
  | zero => exact absurd more (Nat.not_lt_zero _)
  | succ requests inductionHypothesis =>
    have step := next_advances catalog rules cursor
    rw [answers_succ, List.flatMap_cons, ← step.events]
    congr 1
    cases records : tableRecords catalog rules cursor.rest with
    | nil =>
      have reported := events_answers_isPrefix catalog rules requests
        (cursor.next catalog rules).2
      rw [step.exhausted records] at reported ⊢
      exact List.prefix_nil.mp reported
    | cons record records' =>
      refine inductionHypothesis ?_
      rw [step.records, records]
      rw [records] at more
      exact Nat.lt_of_succ_lt_succ more

theorem answers_upToFault (requests : Nat) (cursor : Cursor) :
    answers catalog rules requests (cursor.upToFault catalog rules) =
      answers catalog rules requests cursor := by
  induction requests generalizing cursor with
  | zero => rfl
  | succ requests inductionHypothesis =>
    rw [answers_succ, answers_succ, next_upToFault, inductionHypothesis]

end Cursor

/-! ### Emitted records -/

/-- Some request for the next record of the text is answered by the given one. -/
def Emits (catalog : Catalog) (rules : Rules) (text : String) (record : Record) : Prop :=
  ∃ file requests, .ok (some record) ∈
    ((Cursor.start file text).answers catalog rules requests).map (·.outcome)

/-- The records that are emitted stand before the first fault. -/
theorem emits_iff {catalog : Catalog} {rules : Rules} {text : String} {record : Record} :
    Emits catalog rules text record ↔ record ∈ tableRecords catalog rules (Text.lines text) := by
  constructor
  · rintro ⟨file, requests, answered⟩
    rw [Cursor.outcome_answers] at answered
    rcases List.mem_append.mp answered with early | late
    · rcases List.mem_append.mp (List.mem_of_mem_take early) with emitted | failed
      · obtain ⟨other, member, same⟩ := List.mem_map.mp emitted
        cases same
        exact member
      · obtain ⟨_, _, impossible⟩ := List.mem_map.mp failed
        cases impossible
    · cases List.eq_of_mem_replicate late
  · intro member
    refine ⟨"", ((Cursor.start "" text).due catalog rules).length, ?_⟩
    rw [Cursor.outcome_answers, List.take_length]
    exact List.mem_append_left _ (List.mem_append_left _ (List.mem_map.mpr ⟨record, member, rfl⟩))

/-- An emitted record is that of a line. -/
theorem Emits.line {catalog : Catalog} {rules : Rules} {text : String} {record : Record}
    (emitted : Emits catalog rules text record) :
    ∃ line ∈ Text.lines text, (assembleLine catalog rules line).outcome = .ok (some record) := by
  obtain ⟨line, member, found⟩ := List.mem_filterMap.mp (emits_iff.mp emitted)
  exact ⟨line, List.mem_of_mem_take member, lineRecord?_eq_some_iff.mp found⟩

/-! ### Texts -/

/-- Reading a text record by record. With `stop` lines before the first fault, the requests are
answered by the records of these lines in order, then by the fault, if there is one, and then
by nothing, however often. The line of the fault stands behind `stop` newlines and has the
number after it. Lines behind it are not read: they report nothing, and without them all
answers are the same. Reading the text at once gives the same records or the same fault, and
reports what the requests report together, up to the first that brings no record. -/
theorem stream_of_text (catalog : Catalog) (rules : Rules) (file text : String) :
    let lines := Text.lines text
    let stop := firstFault catalog rules lines
    let records := (lines.take stop).filterMap (lineRecord? catalog rules)
    let fault := tableFault? catalog rules file 1 lines
    let due := records.map (fun record => .ok (some record)) ++ fault.toList.map .error
    let answers := fun requests => (Cursor.start file text).answers catalog rules requests
    let whole := assembleText catalog rules file text
    (∀ line ∈ lines.take stop, ∃ result,
        (assembleLine catalog rules line).outcome = .ok result) ∧
      (fault = none ↔ stop = lines.length) ∧
      (∀ place, fault = some place ↔ ∃ line own, lines[stop]? = some line ∧
        (assembleLine catalog rules line).outcome = .error own ∧
        place = ⟨file, 1 + stop, line, own⟩) ∧
      (∀ line, lines[stop]? = some line →
        Text.StandsBehind stop line.toList text.toList) ∧
      (∀ requests, (answers requests).map (·.outcome) =
        due.take requests ++ List.replicate (requests - due.length) (.ok none)) ∧
      (∀ requests, (answers requests).flatMap (·.events) <+:
        (lines.take (stop + 1)).flatMap fun line => (assembleLine catalog rules line).events) ∧
      (∀ requests, Cursor.answers catalog rules requests ⟨file, 1, lines.take (stop + 1)⟩ =
        answers requests) ∧
      whole.outcome = (match fault with
        | none => .ok records
        | some place => .error place) ∧
      whole.events = ((lines.take (stop + 1)).flatMap fun line =>
        (assembleLine catalog rules line).events) ∧
      ∀ requests, records.length < requests →
        (answers requests).flatMap (·.events) = whole.events := by
  intro lines stop records fault due answers whole
  have read : whole = _ := assembleLines_eq file 1 lines
  refine ⟨fun _ => sound_before_firstFault, tableFault?_eq_none_iff,
    fun _ => tableFault?_eq_some_iff, fun _ => Text.standsBehind_of_lines,
    fun requests => Cursor.outcome_answers requests _,
    fun requests => Cursor.events_answers_isPrefix catalog rules requests _,
    fun requests => Cursor.answers_upToFault requests (Cursor.start file text), ?_, ?_,
    fun requests more => ?_⟩
  · rw [read]
    rfl
  · rw [read]
    rfl
  · rw [read]
    exact Cursor.events_answers more

end OpcodeTable
