/-
This file says what a run of writes leaves in a sink that has room for so many bytes. Whatever
pieces a stream of bytes comes in, the sink is left with the first bytes of the stream, as many as
there was room for at the start, and with the room that they leave. A record is written as two
pieces, and when the line is refused its newline is never offered; but a sink that has refused a
byte has no room for another one, so it is left as if the newline had been offered too. Each write
therefore gives the sink one piece, the closed line, and is told how the stream up to the end of
that line compares with the room.
-/

import Mathlib.Data.List.Infix
import OpcodeTable.Proofs.Writing

namespace OpcodeTable

open Text

/-! ### Closed lines -/

namespace Layout

/-- The bytes of a record: its line and the newline that closes it. -/
def closedLine (layout : Layout) (record : Record) : Bytes :=
  encodeUtf8 (layout.line record ++ ['\n'])

theorem closedLine_eq (layout : Layout) (record : Record) :
    layout.closedLine record = encodeUtf8 (layout.line record) ++ encodeUtf8 ['\n'] :=
  encodeUtf8_append ..

end Layout

/-! ### Room -/

/-- Whether so many bytes fit into so much room; without a number there is room for all. -/
def fits (room : Option Nat) (size : Nat) : Bool := room.all fun room => size ≤ room

theorem not_fits_some_iff {room size : Nat} : fits (some room) size = false ↔ room < size :=
  decide_eq_false_iff_not.trans Nat.not_le

theorem fits_mono {room : Option Nat} {size larger : Nat} (le : size ≤ larger)
    (fit : fits room larger = true) : fits room size = true := by
  cases room with
  | none => rfl
  | some room => exact decide_eq_true (Nat.le_trans le (of_decide_eq_true fit))

theorem not_fits_mono {room : Option Nat} {size larger : Nat} (le : size ≤ larger)
    (exceeds : fits room size = false) : fits room larger = false :=
  Bool.eq_false_iff.mpr fun fit => Bool.eq_false_iff.mp exceeds (fits_mono le fit)

/-- Bytes fit into what others leave of a room when all of them fit into it. If the others do not
fit themselves, then only nothing fits behind them. -/
theorem fits_left {room : Option Nat} {first second : Nat}
    (meant : 0 < second ∨ fits room first = true) :
    fits (room.map (· - first)) second = fits room (first + second) := by
  cases room with
  | none => rfl
  | some room =>
    have meant : 0 < second ∨ first ≤ room := meant.imp_right of_decide_eq_true
    have same : second ≤ room - first ↔ first + second ≤ room := by omega
    exact decide_eq_decide.mpr same

/-- What is refused behind other bytes does not fit together with them. -/
theorem not_fits_of_left {room : Option Nat} {first second : Nat}
    (refused : ¬ fits (room.map (· - first)) second = true) :
    fits room (first + second) = false := by
  refine Bool.eq_false_iff.mpr fun fit => refused ?_
  rwa [fits_left (.inr (fits_mono (Nat.le_add_right _ _) fit))]

namespace Sink

/-- A sink of some room after it was given a stream of bytes. -/
def after (room : Option Nat) (stream : Bytes) : Sink :=
  ⟨room.map (· - stream.length), (stream.take (room.getD stream.length)).toArray⟩

theorem after_nil (room : Option Nat) : after room [] = empty room := by
  cases room with
  | none => rfl
  | some room => exact (Sink.mk.injEq ..).mpr ⟨rfl, congrArg List.toArray List.take_nil⟩

/-- A stream that fits is held whole. -/
theorem held_after_of_fits {room : Option Nat} {stream : Bytes}
    (fit : fits room stream.length = true) : (after room stream).held.toList = stream := by
  cases room with
  | none => exact List.take_length
  | some room => exact List.take_of_length_le (of_decide_eq_true fit)

/-- A piece goes on with the stream, and all of it is taken when it fits into the room left. -/
theorem put_after (room : Option Nat) (stream piece : Bytes) :
    (after room stream).put piece =
      (after room (stream ++ piece), fits (room.map (· - stream.length)) piece.length) := by
  cases room with
  | none =>
    refine Prod.ext ?_ rfl
    refine (Sink.mk.injEq ..).mpr ⟨rfl, Array.toList_inj.mp ?_⟩
    rw [Array.toList_appendList]
    simp only [Option.getD_none, List.take_length]
  | some room =>
    refine Prod.ext ?_ rfl
    refine (Sink.mk.injEq ..).mpr ⟨congrArg some ?_, Array.toList_inj.mp ?_⟩
    · rw [List.length_append, Nat.sub_sub]
    · rw [Array.toList_appendList]
      exact List.take_append.symm

/-- A sink that has refused a byte takes no more, so bytes behind that one change nothing. -/
theorem after_append_of_not_fits {room : Option Nat} {stream : Bytes}
    (exceeds : fits room stream.length = false) (piece : Bytes) :
    after room (stream ++ piece) = after room stream := by
  cases room with
  | none => cases exceeds
  | some room =>
    have exceeds : room < stream.length := not_fits_some_iff.mp exceeds
    have full : room - (stream ++ piece).length = room - stream.length := by
      rw [List.length_append]
      omega
    exact (Sink.mk.injEq ..).mpr ⟨congrArg some full,
      congrArg List.toArray (List.take_append_of_le_length (Nat.le_of_lt exceeds))⟩

end Sink

/-! ### Writes -/

namespace Writer

/-- A write puts the line and then the newline, unless the line was refused. -/
theorem write_eq {σ : Type} [Target σ] (writer : Writer σ) (record : Record) :
    let line := Target.put writer.target (encodeUtf8 (writer.layout.line record))
    let ending := Target.put line.1 (encodeUtf8 ['\n'])
    writer.write record =
      if line.2 then (⟨ending.1, writer.layout, writer.count + ending.2.toNat⟩, ending.2)
      else (⟨line.1, writer.layout, writer.count⟩, false) := by
  intro line ending
  change (if line.2 then
      (if ending.2 then (Writer.mk ending.1 writer.layout (writer.count + 1), true)
        else (⟨ending.1, writer.layout, writer.count⟩, false))
    else (⟨line.1, writer.layout, writer.count⟩, false)) = _
  cases ending.2 <;> rfl

theorem layout_write {σ : Type} [Target σ] (writer : Writer σ) (record : Record) :
    (writer.write record).1.layout = writer.layout := by
  rw [write_eq]
  split <;> rfl

theorem count_write {σ : Type} [Target σ] (writer : Writer σ) (record : Record) :
    (writer.write record).1.count = writer.count + (writer.write record).2.toNat := by
  rw [write_eq]
  split <;> rfl

/-- A write gives the sink the closed line of the record. It succeeds when the stream up to the end
of that line fits into the room, and just then the record is counted. -/
theorem write_after (room : Option Nat) (stream : Bytes) (layout : Layout) (count : Nat)
    (record : Record) :
    let fit := fits room (stream ++ layout.closedLine record).length
    (Writer.mk (Sink.after room stream) layout count).write record =
      (⟨.after room (stream ++ layout.closedLine record), layout, count + fit.toNat⟩, fit) := by
  intro fit
  have whole : stream ++ layout.closedLine record =
      stream ++ encodeUtf8 (layout.line record) ++ encodeUtf8 ['\n'] := by
    rw [layout.closedLine_eq, List.append_assoc]
  have line := Sink.put_after room stream (encodeUtf8 (layout.line record))
  have ending := Sink.put_after room (stream ++ encodeUtf8 (layout.line record))
    (encodeUtf8 ['\n'])
  have newline : 0 < (encodeUtf8 ['\n']).length := Nat.one_pos
  rw [fits_left (.inl newline), ← List.length_append, ← whole] at ending
  rw [write_eq]
  simp only [Target.put, line, ending]
  split
  · rfl
  · next refused =>
    have exceeds : fits room (stream ++ encodeUtf8 (layout.line record)).length = false := by
      rw [List.length_append]
      exact not_fits_of_left refused
    have exceedsWhole : fit = false :=
      not_fits_mono (whole ▸ (List.prefix_append ..).length_le) exceeds
    rw [exceedsWhole, whole, Sink.after_append_of_not_fits exceeds]
    rfl

theorem writeAll_cons {σ : Type} [Target σ] (writer : Writer σ) (record : Record)
    (rest : List Record) :
    writer.writeAll (record :: rest) =
      (((writer.write record).1.writeAll rest).1,
        (writer.write record).2 :: ((writer.write record).1.writeAll rest).2) := rfl

/-- So many writes one after the other: the sink is left with the stream of all closed lines, and
each write is answered by whether the lines up to its own fit. -/
theorem writeAll_after (room : Option Nat) (stream : Bytes) (layout : Layout) (count : Nat)
    (records : List Record) :
    let answers := (List.range records.length).map fun n =>
      fits room (stream ++ (records.take (n + 1)).flatMap layout.closedLine).length
    (Writer.mk (Sink.after room stream) layout count).writeAll records =
      (⟨.after room (stream ++ records.flatMap layout.closedLine), layout,
        count + answers.count true⟩, answers) := by
  induction records generalizing stream count with
  | nil => simp [writeAll]
  | cons record rest inductionHypothesis =>
    intro answers
    have next : answers = fits room (stream ++ layout.closedLine record).length ::
        (List.range rest.length).map fun n => fits room
          (stream ++ layout.closedLine record ++
            (rest.take (n + 1)).flatMap layout.closedLine).length := by
      simp [answers, List.range_succ_eq_map, Function.comp_def]
    have counted (b : Bool) : b.toNat = if b == true then 1 else 0 := by cases b <;> rfl
    rw [writeAll_cons, write_after, inductionHypothesis, next, List.flatMap_cons,
      List.append_assoc stream, List.count_cons, counted, Nat.add_assoc, Nat.add_comm (ite ..)]

/-- A run of writes is one run behind the other, wherever it is cut. -/
theorem writeAll_append {σ : Type} [Target σ] (writer : Writer σ) (records later : List Record) :
    writer.writeAll (records ++ later) =
      (((writer.writeAll records).1.writeAll later).1,
        (writer.writeAll records).2 ++ ((writer.writeAll records).1.writeAll later).2) := by
  induction records generalizing writer with
  | nil => rfl
  | cons record rest inductionHypothesis =>
    rw [List.cons_append, writeAll_cons, inductionHypothesis, writeAll_cons, List.cons_append]

end Writer

/-! ### Answers -/

/-- Answers of which none is good behind a bad one are so many good ones and then bad ones only. -/
theorem eq_replicate_of_pairwise {answers : List Bool}
    (falling : answers.Pairwise fun before behind => behind = true → before = true) :
    answers = List.replicate (answers.count true) true ++
      List.replicate (answers.length - answers.count true) false := by
  induction falling with
  | nil => rfl
  | @cons answer rest before _ inductionHypothesis =>
    cases answer with
    | true =>
      rw [List.count_cons_self, List.length_cons, List.replicate_succ, List.cons_append,
        Nat.add_sub_add_right, ← inductionHypothesis]
    | false =>
      have bad : ∀ behind ∈ rest, behind = false :=
        fun behind member => Bool.eq_false_iff.mpr fun good => nomatch before behind member good
      have none : rest.count true = 0 :=
        List.count_eq_zero.mpr fun member => nomatch bad true member
      rw [List.count_cons_of_ne (by decide), none, List.length_cons, Nat.sub_zero,
        List.replicate_succ, ← List.eq_replicate_of_mem bad]
      rfl

/-! ### The whole run -/

/-- The first records of a run of writes to a sink that has room for so many bytes; the writes of
later records go on from there, so what is said of the first records holds after every write. Each
write succeeds just when the closed lines up to its own fit into the room. So all writes before
the first failure succeed and none behind it, and as many have succeeded as are counted. The count
is the number of records whose closed lines, in front of which all earlier ones stand, are in the
sink; and the sink holds the first bytes of all the closed lines, as many as fit. -/
theorem writes_to_limited_sink (layout : Layout) (room : Nat) (records later : List Record) :
    let writer := Writer.start (Sink.empty (some room)) layout
    let run := writer.writeAll records
    let stream (n : Nat) := (records.take n).flatMap layout.closedLine
    let held := run.1.target.held.toList
    writer.writeAll (records ++ later) =
        ((run.1.writeAll later).1, run.2 ++ (run.1.writeAll later).2) ∧
      run.2 = ((List.range records.length).map fun n => decide ((stream (n + 1)).length ≤ room)) ∧
      run.2 = List.replicate run.1.count true ++
        List.replicate (records.length - run.1.count) false ∧
      run.1.count = ((List.range records.length).countP fun n => (stream (n + 1)).isPrefixOf held) ∧
      held = (records.flatMap layout.closedLine).take
        (min room (records.flatMap layout.closedLine).length) := by
  intro writer run stream held
  have told := Writer.writeAll_after (some room) [] layout 0 records
  rw [Sink.after_nil] at told
  change run = _ at told
  -- All but the bytes themselves is said of lengths, and these grow with the number of lines.
  have answers : run.2 =
      (List.range records.length).map fun n => decide ((stream (n + 1)).length ≤ room) := by
    rw [told]
    rfl
  have counted : run.1.count = run.2.count true := by
    rw [told]
    exact Nat.zero_add _
  have whole : held = (records.flatMap layout.closedLine).take room := by
    simp only [held]
    rw [told]
    rfl
  have begins (n : Nat) : stream n <+: records.flatMap layout.closedLine :=
    List.IsPrefix.flatMap (List.take_prefix n records) _
  have grows {n m : Nat} (le : n ≤ m) : (stream n).length ≤ (stream m).length :=
    (List.IsPrefix.flatMap (List.take_prefix_take_left le) _).length_le
  have stands (n : Nat) : (stream n).isPrefixOf held = decide ((stream n).length ≤ room) := by
    rw [whole, Bool.eq_iff_iff, List.isPrefixOf_iff_prefix, List.prefix_take_iff,
      decide_eq_true_iff]
    exact and_iff_right (begins n)
  refine ⟨Writer.writeAll_append writer records later, answers, ?_, ?_, ?_⟩
  · have falling : run.2.Pairwise fun before behind => behind = true → before = true := by
      rw [answers, List.pairwise_map]
      refine List.pairwise_lt_range.imp fun less fit => decide_eq_true ?_
      exact Nat.le_trans (grows (Nat.succ_le_succ (Nat.le_of_lt less))) (of_decide_eq_true fit)
    have parted := eq_replicate_of_pairwise falling
    have length : run.2.length = records.length := by
      rw [answers, List.length_map, List.length_range]
    rwa [← counted, length] at parted
  · rw [counted, answers, List.count_eq_countP, List.countP_map]
    refine List.countP_congr fun n _ => ?_
    rw [stands]
    exact beq_iff_eq
  · rw [whole, List.take_eq_take_min]

end OpcodeTable
