/-
This file is about the writing of a table. The way through the lines writes the records that the
table has in front of its first fault, one after another until one is refused, and it ends with a
refusal, with that fault, or with neither; it is the reading of the whole table and the writing of
a list of records, done in turns. What the output still owes is handed on behind it, and counts
before a fault. So what comes of a table depends on the room there is for its records: with enough
of it all of them arrive, the fault is told, if there is one, and nothing tells the output from one
that takes all bytes; otherwise as many bytes arrive as there is room for, and the refusal is told,
whatever else is wrong.

Which refusal that is hangs on the buffer. When it has place for all records, then they wait there,
and that of the whole output is told; and when they are more than the room and the buffer together
can take, then one of them is refused.
-/

import OpcodeTable.Command.Run
import OpcodeTable.Proofs.Buffering
import OpcodeTable.Proofs.Tables

namespace OpcodeTable

open Text

/-! ### Limits -/

/-- Something with this limit takes so many bytes. -/
def Admits (limit? : Option Limit) (size : Nat) : Prop := ∀ limit ∈ limit?, size ≤ limit.room

section

variable {limit? : Option Limit} {bytes : Bytes}

theorem admits_none (size : Nat) : Admits none size := fun _ impossible => nomatch impossible

theorem admits_some_iff {limit : Limit} {size : Nat} :
    Admits (some limit) size ↔ size ≤ limit.room :=
  ⟨fun admits => admits limit rfl, fun fit _ same => Option.some.inj same ▸ fit⟩

theorem admits_iff_fits {size : Nat} :
    Admits limit? size ↔ fits (limit?.map Limit.room) size = true := by
  cases limit? with
  | none => exact iff_of_true (admits_none size) rfl
  | some limit => exact admits_some_iff.trans decide_eq_true_iff.symm

/-- What is admitted of some bytes is what a sink with so much room holds of them. -/
theorem held_after_room (limit? : Option Limit) (bytes : Bytes) :
    (Sink.after (limit?.map Limit.room) bytes).held.toList = admitted limit? bytes := by
  cases limit? with
  | none => exact List.take_length
  | some limit => rfl

theorem admitted_of_admits (admits : Admits limit? bytes.length) :
    admitted limit? bytes = bytes := by
  rw [← held_after_room, Sink.held_after_of_fits (admits_iff_fits.mp admits)]

/-- Bytes that are not admitted do not all arrive. -/
theorem admitted_eq_iff : admitted limit? bytes = bytes ↔ Admits limit? bytes.length := by
  refine ⟨fun all => ?_, admitted_of_admits⟩
  cases limit? with
  | none => exact admits_none _
  | some limit => exact admits_some_iff.mpr ((List.take_eq_self_iff _).mp all)

end

namespace Production

/-! ### The way through the lines -/

section

variable {catalog : Catalog} {rules : Rules} {file : String} {refusal : FileFault} {number : Nat}
  {line : String} {later : List String} {writer : Writer Buffer}

theorem ofLines_of_error {own : Fault}
    (failed : (assembleLine catalog rules line).outcome = .error own) :
    ofLines catalog rules file refusal number (line :: later) writer =
      ⟨note writer (assembleLine catalog rules line).events, writer,
        some (.table ⟨file, number, line, own⟩)⟩ := by
  rw [ofLines]
  simp only [failed]

theorem ofLines_of_none (silent : (assembleLine catalog rules line).outcome = .ok none) :
    ofLines catalog rules file refusal number (line :: later) writer =
      (ofLines catalog rules file refusal (number + 1) later writer).after
        (note writer (assembleLine catalog rules line).events) := by
  rw [ofLines]
  simp only [silent]

theorem ofLines_of_record {record : Record}
    (read : (assembleLine catalog rules line).outcome = .ok (some record)) :
    ofLines catalog rules file refusal number (line :: later) writer =
      if (writer.write record).2 then
        (ofLines catalog rules file refusal (number + 1) later (writer.write record).1).after
          (note writer (assembleLine catalog rules line).events)
      else
        ⟨note writer (assembleLine catalog rules line).events, (writer.write record).1,
          some (.recordNotWritten refusal)⟩ := by
  rw [ofLines]
  simp only [read]

end

theorem events_note (writer : Writer Buffer) (events : List Event) :
    (note writer events).map Entry.event = events := by
  rw [note, List.map_map]
  exact List.map_id events

/-- What the way through the lines of a table comes to: the records are written until one is
refused, and when none is, the fault of the table ends the way and all its events are noted. -/
structure Follows (catalog : Catalog) (rules : Rules) (file : String) (refusal : FileFault)
    (number : Nat) (lines : List String) (writer : Writer Buffer) (production : Production) :
    Prop where
  reached : production.writer = (writer.writeUntil (tableRecords catalog rules lines)).1
  failure : production.failure =
    if (writer.writeUntil (tableRecords catalog rules lines)).2 then
      (tableFault? catalog rules file number lines).map .table
    else some (.recordNotWritten refusal)
  events : (writer.writeUntil (tableRecords catalog rules lines)).2 = true →
    production.log.map Entry.event = tableEvents catalog rules lines

theorem ofLines_follows (catalog : Catalog) (rules : Rules) (file : String) (refusal : FileFault)
    (number : Nat) (lines : List String) (writer : Writer Buffer) :
    Follows catalog rules file refusal number lines writer
      (ofLines catalog rules file refusal number lines writer) := by
  induction lines generalizing number writer with
  | nil => exact ⟨rfl, rfl, fun _ => rfl⟩
  | cons line later inductionHypothesis =>
    rcases read : (assembleLine catalog rules line).outcome with own | _ | record
    · rw [ofLines_of_error read]
      refine ⟨?_, ?_, fun _ => ?_⟩
      · rw [tableRecords_of_error read]
        rfl
      · rw [tableRecords_of_error read, tableFault?_of_error read]
        rfl
      · rw [tableEvents_of_error read]
        exact events_note ..
    · have behind := inductionHypothesis (number + 1) writer
      have records : tableRecords catalog rules (line :: later) =
          tableRecords catalog rules later := tableRecords_of_ok read later
      rw [ofLines_of_none read]
      refine ⟨?_, ?_, fun taken => ?_⟩
      · rw [records]
        exact behind.reached
      · rw [records, tableFault?_of_ok read]
        exact behind.failure
      · rw [records] at taken
        rw [tableEvents_of_ok read, after, List.map_append, events_note, behind.events taken]
    · have behind := inductionHypothesis (number + 1) (writer.write record).1
      have records : tableRecords catalog rules (line :: later) =
          record :: tableRecords catalog rules later := tableRecords_of_ok read later
      rw [ofLines_of_record read]
      split
      · next taken =>
        have goesOn : writer.writeUntil (tableRecords catalog rules (line :: later)) =
            (writer.write record).1.writeUntil (tableRecords catalog rules later) := by
          rw [records, Writer.writeUntil_cons, if_pos taken]
        refine ⟨?_, ?_, fun all => ?_⟩
        · rw [goesOn]
          exact behind.reached
        · rw [goesOn, tableFault?_of_ok read]
          exact behind.failure
        · rw [goesOn] at all
          rw [tableEvents_of_ok read, after, List.map_append, events_note, behind.events all]
      · next refused =>
        have stops : writer.writeUntil (tableRecords catalog rules (line :: later)) =
            ((writer.write record).1, false) := by
          rw [records, Writer.writeUntil_cons, if_neg refused]
        refine ⟨?_, ?_, fun all => ?_⟩
        · rw [stops]
        · rw [stops]
          rfl
        · rw [stops] at all
          cases all

/-- The same, where the room never ended. -/
def unlimited (production : Production) : Production :=
  ⟨production.log, production.writer.unlimited, production.failure⟩

/-- A way on which all records are taken is the same without a bound, whatever would be said of a
refusal. -/
theorem ofLines_unlimited {catalog : Catalog} {rules : Rules} {lines : List String}
    {writer : Writer Buffer}
    (all : (writer.writeUntil (tableRecords catalog rules lines)).2 = true)
    (file : String) (refusal other : FileFault) (number : Nat) :
    ofLines catalog rules file other number lines writer.unlimited =
      (ofLines catalog rules file refusal number lines writer).unlimited := by
  induction lines generalizing number writer with
  | nil => rfl
  | cons line later inductionHypothesis =>
    rcases read : (assembleLine catalog rules line).outcome with own | _ | record
    · rw [ofLines_of_error read, ofLines_of_error read]
      rfl
    · rw [tableRecords_of_ok read] at all
      rw [ofLines_of_none read, ofLines_of_none read, inductionHypothesis all]
      rfl
    · have records : tableRecords catalog rules (line :: later) =
          record :: tableRecords catalog rules later := tableRecords_of_ok read later
      rw [records, Writer.writeUntil_cons] at all
      split at all
      · next taken =>
        rw [ofLines_of_record read, ofLines_of_record read, Writer.write_unlimited taken,
          if_pos taken, if_pos rfl, inductionHypothesis all]
        rfl
      · cases all

/-! ### The end of the way -/

/-- A way that was refused a record is at its end. -/
theorem finish_of_refused {production : Production} {fault : FileFault}
    (refused : production.failure = some (.recordNotWritten fault)) (file : String)
    (refusal : FileFault) : production.finish file refusal = production := by
  obtain ⟨log, writer, failure⟩ := production
  cases refused
  rfl

/-- Any other way ends with a flush, and what the flush comes to counts before a fault. -/
theorem finish_of_fault? {production : Production} {fault? : Option TableFault}
    (ended : production.failure = fault?.map .table) (file : String) (refusal : FileFault) :
    let flushed := production.writer.target.flush
    let writer := Writer.mk flushed.1 production.writer.layout production.writer.count
    production.finish file refusal =
      ⟨production.log ++
          if flushed.2 = true ∧ fault? = none then note writer [.finished file writer.count]
          else [],
        writer, if flushed.2 then fault?.map .table else some (.outputNotWritten refusal)⟩ := by
  obtain ⟨log, writer, failure⟩ := production
  cases ended
  intro flushed
  cases answer : flushed.2 <;> cases fault? <;>
    simp [finish, show writer.target.flush.2 = _ from answer, flushed]

/-- When the flush succeeds, a way ends as it would without a bound. -/
theorem finish_unlimited {production : Production} {fault? : Option TableFault}
    (ended : production.failure = fault?.map .table)
    (emptied : production.writer.target.flush.2 = true)
    (file : String) (refusal other : FileFault) :
    production.unlimited.finish file other = (production.finish file refusal).unlimited := by
  have flushed : production.unlimited.writer.target.flush = _ := Buffer.flush_unlimited emptied
  have endedToo : production.unlimited.failure = _ := ended
  rw [finish_of_fault? endedToo, finish_of_fault? ended, flushed, emptied]
  rfl

/-! ### What comes of a table -/

section

variable (settings : Settings) (file text : String) (refusal : FileFault) (room : Option Nat)

/-- Write the records of a text to something with room for so many bytes. -/
def intoRoom : Production :=
  (ofLines settings.catalog settings.rules file refusal 1 (lines text)
    (.start (.ofSink (.empty room)) settings.layout)).finish file refusal

theorem ofText_eq (limit? : Option Limit) :
    ofText settings file text limit? =
      intoRoom settings file text ((limit?.map Limit.refusal).getD .noSpace)
        (limit?.map Limit.room) := rfl

/-- The records that a text has in front of its first fault. -/
def records : List Record := tableRecords settings.catalog settings.rules (lines text)

/-- Their closed lines. -/
def owed : Bytes := (records settings text).flatMap settings.layout.closedLine

/-- The first fault of a text. -/
def fault? : Option TableFault := tableFault? settings.catalog settings.rules file 1 (lines text)

/-- The records written one after another until one is refused. Nothing is handed on yet that the
buffer has place for. -/
def sent : Writer Buffer × Bool :=
  (Writer.start (Buffer.ofSink (.empty room)) settings.layout).writeUntil (records settings text)

theorem takes_owed : Buffer.Takes room (owed settings text)
    ((sent settings text room).1.target, (sent settings text room).2) := by
  have start : (Writer.start (Buffer.ofSink (.empty room)) settings.layout).target.Holds room [] :=
    Buffer.holds_start room
  have takes := Writer.writeUntil_takes start (records settings text)
  rw [List.nil_append] at takes
  exact takes

end

variable {settings : Settings} {text : String} {room : Option Nat}

/-- Records that fit are all taken. -/
theorem sent_of_fits (fit : fits room (owed settings text).length = true) :
    (sent settings text room).2 = true := by
  refine Bool.of_not_eq_false fun refused => ?_
  exact Bool.false_ne_true (((takes_owed settings text room).2 refused).1.symm.trans fit)

/-- Records are all taken when the buffer has place for them. -/
theorem sent_of_place (place : (owed settings text).length ≤ Buffer.capacity) :
    (sent settings text room).2 = true := by
  refine Writer.writeUntil_of_place (Nat.le_trans (Nat.le_of_eq ?_) place)
  exact Nat.zero_add _

/-- When they are all taken, the buffer has place for what the room does not take. -/
theorem length_owed_le_of_sent {room : Nat} (all : (sent settings text (some room)).2 = true) :
    (owed settings text).length ≤ room + Buffer.capacity := by
  obtain ⟨passed, waiting, fit, whole, target⟩ := (takes_owed settings text (some room)).1 all
  have place : waiting.length ≤ Buffer.capacity := by
    have size : (sent settings text (some room)).1.target.waiting.size ≤ Buffer.capacity :=
      Writer.size_waiting_writeUntil_le (Nat.zero_le _) (records settings text)
    have held : (sent settings text (some room)).1.target.waiting.size = waiting.length :=
      congrArg (·.waiting.size) target
    exact held ▸ size
  have passedOn : passed.length ≤ room := of_decide_eq_true fit
  rw [← whole, List.length_append]
  exact Nat.add_le_add passedOn place

/-- A text whose records are all taken ends with a flush. -/
theorem intoRoom_of_taken (taken : (sent settings text room).2 = true)
    (file : String) (refusal : FileFault) :
    let fit := fits room (owed settings text).length
    let writer := Writer.mk ⟨.after room (owed settings text), #[]⟩ settings.layout
      (records settings text).length
    ∃ log, log.map Entry.event = tableEvents settings.catalog settings.rules (lines text) ∧
      intoRoom settings file text refusal room =
        ⟨log ++ if fit = true ∧ fault? settings file text = none then
            note writer [.finished file writer.count] else [],
          writer, if fit then (fault? settings file text).map .table
            else some (.outputNotWritten refusal)⟩ := by
  intro fit writer
  have follows := ofLines_follows settings.catalog settings.rules file refusal 1 (lines text)
    (.start (.ofSink (.empty room)) settings.layout)
  have reached := follows.reached
  change _ = (sent settings text room).1 at reached
  have finished := finish_of_fault? (follows.failure.trans (if_pos taken)) file refusal
  have flushed := ((takes_owed settings text room).1 taken).flush
  have layout : (sent settings text room).1.layout = settings.layout :=
    Writer.layout_writeUntil _ _
  have count : (sent settings text room).1.count = (records settings text).length :=
    (Writer.count_writeUntil taken).trans (Nat.zero_add _)
  rw [reached, flushed, layout, count] at finished
  exact ⟨_, follows.events taken, finished⟩

/-- A text of which a record is refused ends with that refusal. -/
theorem intoRoom_of_refused (refused : (sent settings text room).2 = false)
    (file : String) (refusal : FileFault) :
    (intoRoom settings file text refusal room).writer = (sent settings text room).1 ∧
      (intoRoom settings file text refusal room).failure = some (.recordNotWritten refusal) := by
  have follows := ofLines_follows settings.catalog settings.rules file refusal 1 (lines text)
    (.start (.ofSink (.empty room)) settings.layout)
  have ended := follows.failure.trans (if_neg (Bool.eq_false_iff.mp refused))
  unfold intoRoom
  rw [finish_of_refused ended]
  exact ⟨follows.reached, ended⟩

/-- However the writing ends, the sink is left as if it had been given all records. -/
theorem sink_intoRoom (settings : Settings) (file text : String) (refusal : FileFault)
    (room : Option Nat) :
    (intoRoom settings file text refusal room).writer.target.sink =
      .after room (owed settings text) := by
  cases answer : (sent settings text room).2 with
  | true =>
    obtain ⟨_, _, ended⟩ := intoRoom_of_taken answer file refusal
    exact congrArg (·.writer.target.sink) ended
  | false =>
    obtain ⟨reached, _⟩ := intoRoom_of_refused answer file refusal
    exact (congrArg (·.target.sink) reached).trans
      ((takes_owed settings text room).2 answer).2

/-- Where all records fit, nothing hangs on the room. -/
theorem intoRoom_unlimited (fit : fits room (owed settings text).length = true)
    (file : String) (refusal other : FileFault) :
    intoRoom settings file text other none =
      (intoRoom settings file text refusal room).unlimited := by
  have all := sent_of_fits fit
  have follows := ofLines_follows settings.catalog settings.rules file refusal 1 (lines text)
    (.start (.ofSink (.empty room)) settings.layout)
  have reached := follows.reached
  change _ = (sent settings text room).1 at reached
  have flushed := ((takes_owed settings text room).1 all).flush
  rw [← reached, fit] at flushed
  have ended := finish_unlimited (follows.failure.trans (if_pos all)) (congrArg (·.2) flushed)
    file refusal other
  rw [← ofLines_unlimited all file refusal other 1] at ended
  exact ended

/-! ### Outputs -/

section

variable (settings : Settings) (file text : String) (limit? : Option Limit)

/-- Of the records as much arrives as the output admits. -/
theorem written_ofText :
    (ofText settings file text limit?).written = admitted limit? (owed settings text) := by
  rw [← held_after_room, ofText_eq, written, sink_intoRoom]

end

section

variable {limit? other? : Option Limit}

/-- With enough room the events and the fault of the table are told; when there is no fault, the
number of the records is. -/
theorem ofText_of_admits (admits : Admits limit? (owed settings text).length) (file : String) :
    let production := ofText settings file text limit?
    production.failure = (fault? settings file text).map .table ∧
      production.log.map Entry.event =
        tableEvents settings.catalog settings.rules (lines text) ++
          if fault? settings file text = none then
            [.finished file (records settings text).length] else [] := by
  have fit := admits_iff_fits.mp admits
  obtain ⟨log, events, production⟩ := intoRoom_of_taken (sent_of_fits fit) file
    ((limit?.map Limit.refusal).getD .noSpace)
  rw [ofText_eq, production]
  refine ⟨if_pos fit, ?_⟩
  rw [List.map_append, events]
  simp only [fit, true_and]
  split
  · exact congrArg _ (events_note _ _)
  · rfl

/-- Two outputs with enough room are told and given the same. -/
theorem ofText_alike (admits : Admits limit? (owed settings text).length)
    (admitsToo : Admits other? (owed settings text).length) (file : String) :
    let first := ofText settings file text limit?
    let second := ofText settings file text other?
    first.log = second.log ∧ first.failure = second.failure ∧ first.written = second.written := by
  have unlimited {limit? : Option Limit} (admits : Admits limit? (owed settings text).length) :=
    intoRoom_unlimited (admits_iff_fits.mp admits) file ((limit?.map Limit.refusal).getD .noSpace)
      .noSpace
  obtain ⟨log, writer, failure⟩ := (Production.mk.injEq ..).mp
    ((unlimited admits).symm.trans (unlimited admitsToo))
  rw [ofText_eq, ofText_eq]
  exact ⟨log, failure, congrArg (·.target.sink.held.toList) writer⟩

/-- Without enough room a refusal is told and nothing else: that of a record, or, when all were
taken, that of what the output still owes. -/
theorem failure_ofText_of_exceeds {limit : Limit}
    (exceeds : limit.room < (owed settings text).length) (file : String) :
    (ofText settings file text (some limit)).failure =
      some (if (sent settings text (some limit.room)).2 then .outputNotWritten limit.refusal
        else .recordNotWritten limit.refusal) := by
  have same : ofText settings file text (some limit) =
    intoRoom settings file text limit.refusal (some limit.room) := rfl
  rw [same]
  cases answer : (sent settings text (some limit.room)).2 with
  | true =>
    obtain ⟨_, _, ended⟩ := intoRoom_of_taken answer file limit.refusal
    rw [not_fits_some_iff.mpr exceeds] at ended
    exact congrArg (·.failure) ended
  | false => exact (intoRoom_of_refused answer file limit.refusal).2

end

/-! ### Nothing is told to be a success that is none -/

/-- Whatever room there is, no failure is told just when the table has no fault and all its records
have arrived. -/
theorem failure_ofText_eq_none_iff (settings : Settings) (file text : String)
    (limit? : Option Limit) :
    let production := ofText settings file text limit?
    production.failure = none ↔
      fault? settings file text = none ∧ production.written = owed settings text := by
  intro production
  rw [written_ofText, admitted_eq_iff]
  by_cases admits : Admits limit? (owed settings text).length
  · rw [(ofText_of_admits admits file).1, Option.map_eq_none_iff]
    exact (and_iff_left admits).symm
  · cases limit? with
    | none => exact absurd (admits_none _) admits
    | some limit =>
      have exceeds := Nat.not_le.mp (mt admits_some_iff.mpr admits)
      rw [failure_ofText_of_exceeds exceeds file]
      exact iff_of_false (Option.some_ne_none _) fun success => admits success.2

end Production

end OpcodeTable
