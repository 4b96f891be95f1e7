/-
This file says what a buffer owes. As long as it has refused nothing, the bytes that its sink holds
and those that wait are together the bytes that were put into it, in their order; this is kept by
every piece that is taken, whichever of the ways through the buffer the piece goes. When a piece is
refused, the sink had no room for what was put into the buffer up to the end of that piece, and
holds as much of it as there was room for. So nothing is ever invented, and a buffer that was
flushed with success stands for bytes that have arrived.

A refusal comes late, and how late depends on the pieces. But as long as the buffer has place for
all that was put into it the sink is given nothing, and more than the buffer has place for can never
wait. And until the first refusal a buffer does what it would do if the room never ended.
-/

import OpcodeTable.Proofs.LimitedSink

namespace OpcodeTable

open Text

namespace Buffer

/-! ### What a buffer holds -/

/-- The buffer has taken all of a stream: what its sink holds, which is what fits into the room,
and behind it what waits. -/
def Holds (room : Option Nat) (stream : Bytes) (buffer : Buffer) : Prop :=
  ∃ passed waiting : Bytes, fits room passed.length = true ∧ passed ++ waiting = stream ∧
    buffer = ⟨.after room passed, waiting.toArray⟩

/-- The buffer has refused a piece at the end of a stream: the stream does not fit into the room,
and the sink is left as if it had been given all of it. -/
def Overrun (room : Option Nat) (stream : Bytes) (buffer : Buffer) : Prop :=
  fits room stream.length = false ∧ buffer.sink = .after room stream

variable {room : Option Nat} {stream : Bytes} {buffer : Buffer}

theorem holds_start (room : Option Nat) : Holds room [] (.ofSink (.empty room)) := by
  refine ⟨[], [], ?_, rfl, ?_⟩
  · cases room with
    | none => rfl
    | some room => exact decide_eq_true (Nat.zero_le room)
  · rw [Sink.after_nil]
    rfl

theorem Overrun.append {piece : Bytes} (overrun : Overrun room stream buffer) :
    Overrun room (stream ++ piece) buffer := by
  obtain ⟨exceeds, sink⟩ := overrun
  exact ⟨not_fits_mono (List.prefix_append _ _).length_le exceeds,
    sink.trans (Sink.after_append_of_not_fits exceeds piece).symm⟩

/-- A flush gives the sink all that it has not been given, and succeeds when all of the stream
fits. -/
theorem Holds.flush (holds : Holds room stream buffer) :
    buffer.flush = (⟨.after room stream, #[]⟩, fits room stream.length) := by
  obtain ⟨passed, waiting, fit, rfl, rfl⟩ := holds
  rw [Buffer.flush, Sink.put_after, fits_left (.inr fit), List.length_append]

/-! ### One piece -/

/-- What becomes of a stream with one more piece. -/
def Takes (room : Option Nat) (stream : Bytes) (answer : Buffer × Bool) : Prop :=
  (answer.2 = true → Holds room stream answer.1) ∧
    (answer.2 = false → Overrun room stream answer.1)

theorem putFitting_of_lt {piece : Bytes} (small : piece.length < capacity) (buffer : Buffer) :
    buffer.putFitting piece = (⟨buffer.sink, buffer.waiting ++ piece⟩, true) :=
  if_pos small

theorem putFitting_of_le {piece : Bytes} (large : capacity ≤ piece.length) (buffer : Buffer) :
    buffer.putFitting piece =
      (⟨(buffer.sink.put piece).1, buffer.waiting⟩, (buffer.sink.put piece).2) :=
  if_neg (Nat.not_lt.mpr large)

/-- A piece goes behind what waits, or past the buffer, and then nothing may wait. -/
theorem Holds.putFitting {piece : Bytes} (holds : Holds room stream buffer)
    (place : piece.length < capacity ∨ buffer.waiting = #[]) :
    Takes room (stream ++ piece) (buffer.putFitting piece) := by
  obtain ⟨passed, waiting, fit, rfl, rfl⟩ := holds
  rcases Nat.lt_or_ge piece.length capacity with small | large
  · rw [putFitting_of_lt small]
    have behind : waiting.toArray ++ piece = (waiting ++ piece).toArray :=
      Array.toList_inj.mp (Array.toList_appendList ..)
    exact ⟨fun _ => ⟨passed, waiting ++ piece, fit, (List.append_assoc ..).symm,
      (Buffer.mk.injEq ..).mpr ⟨rfl, behind⟩⟩, fun refused => nomatch refused⟩
  · obtain rfl : waiting = [] :=
      congrArg Array.toList (place.resolve_left (Nat.not_lt.mpr large))
    rw [putFitting_of_le large, Sink.put_after, fits_left (.inr fit), ← List.length_append,
      List.append_nil]
    exact ⟨fun taken => ⟨passed ++ piece, [], taken, List.append_nil _, rfl⟩,
      fun refused => ⟨refused, rfl⟩⟩

/-- A piece is taken behind the stream, or there is no room for it. -/
theorem Holds.put (holds : Holds room stream buffer) (piece : Bytes) :
    Takes room (stream ++ piece) (buffer.put piece) := by
  unfold Buffer.put
  split
  · next place =>
    refine holds.putFitting ?_
    -- A piece that would fill the buffer alone has place only if nothing waits.
    rcases Nat.eq_zero_or_pos buffer.waiting.size with none | some
    · exact .inr (Array.eq_empty_of_size_eq_zero none)
    · exact .inl (by omega)
  · rw [holds.flush]
    dsimp only
    split
    · next fit => exact Holds.putFitting ⟨stream, [], fit, List.append_nil _, rfl⟩ (.inr rfl)
    · next exceeds =>
      refine ⟨fun taken => (nomatch taken), fun _ => ?_⟩
      exact .append ⟨Bool.eq_false_iff.mpr exceeds, rfl⟩

/-! ### What waits -/

/-- While the buffer has place for a piece, the piece waits there. -/
theorem put_of_place {piece : Bytes} (small : piece.length < capacity)
    (place : buffer.waiting.size + piece.length ≤ capacity) :
    buffer.put piece = (⟨buffer.sink, buffer.waiting ++ piece⟩, true) := by
  unfold Buffer.put
  rw [if_pos place, putFitting_of_lt small]

theorem size_append_bytes (held : Array UInt8) (bytes : Bytes) :
    (held ++ bytes).size = held.size + bytes.length := by
  rw [← Array.length_toList, Array.toList_appendList, List.length_append, Array.length_toList]

theorem size_waiting_putFitting_le {piece : Bytes}
    (place : buffer.waiting.size + piece.length ≤ capacity ∨ buffer.waiting.size = 0) :
    (buffer.putFitting piece).1.waiting.size ≤ capacity := by
  rcases Nat.lt_or_ge piece.length capacity with small | large
  · rw [putFitting_of_lt small, size_append_bytes]
    omega
  · rw [putFitting_of_le large]
    dsimp only
    omega

/-- What waits behind a piece does not outgrow the buffer. -/
theorem size_waiting_put_le (buffer : Buffer) (piece : Bytes) :
    (buffer.put piece).1.waiting.size ≤ capacity := by
  unfold Buffer.put
  split
  · next place => exact size_waiting_putFitting_le (.inl place)
  · have emptied : buffer.flush.1.waiting = #[] := rfl
    dsimp only
    split
    · exact size_waiting_putFitting_le (.inr (congrArg Array.size emptied))
    · rw [emptied]
      exact Nat.zero_le _

end Buffer

/-! ### Room that never ends -/

/-- A sink that holds the same and whose room never ends. -/
def Sink.unlimited (sink : Sink) : Sink := ⟨none, sink.held⟩

/-- Until it refuses something, a sink does what it would do without a bound. -/
theorem Sink.put_unlimited {sink : Sink} {piece : Bytes} (taken : (sink.put piece).2 = true) :
    sink.unlimited.put piece = ((sink.put piece).1.unlimited, true) := by
  obtain ⟨room, held⟩ := sink
  cases room with
  | none => rfl
  | some room =>
    have fit : piece.length ≤ room := of_decide_eq_true taken
    rw [put, unlimited, unlimited, put, List.take_of_length_le fit]

namespace Buffer

/-- A buffer that holds the same, and whose sink has room that never ends. -/
def unlimited (buffer : Buffer) : Buffer := ⟨buffer.sink.unlimited, buffer.waiting⟩

variable {buffer : Buffer} {piece : Bytes}

theorem flush_unlimited (taken : buffer.flush.2 = true) :
    buffer.unlimited.flush = (buffer.flush.1.unlimited, true) := by
  have handed := Sink.put_unlimited taken
  rw [unlimited, flush, handed]
  rfl

theorem putFitting_unlimited (taken : (buffer.putFitting piece).2 = true) :
    buffer.unlimited.putFitting piece = ((buffer.putFitting piece).1.unlimited, true) := by
  rcases Nat.lt_or_ge piece.length capacity with small | large
  · rw [putFitting_of_lt small, putFitting_of_lt small]
    rfl
  · rw [putFitting_of_le large] at taken ⊢
    rw [putFitting_of_le large, unlimited, Sink.put_unlimited taken]
    rfl

theorem put_unlimited (taken : (buffer.put piece).2 = true) :
    buffer.unlimited.put piece = ((buffer.put piece).1.unlimited, true) := by
  have same : buffer.unlimited.waiting = buffer.waiting := rfl
  unfold put at taken ⊢
  rw [same]
  split
  · next place =>
    rw [if_pos place] at taken
    exact putFitting_unlimited taken
  · next full =>
    rw [if_neg full] at taken
    dsimp only at taken ⊢
    split at taken
    · next emptied =>
      rw [flush_unlimited emptied, if_pos rfl, if_pos emptied]
      exact putFitting_unlimited taken
    · cases taken

end Buffer

/-! ### Records -/

namespace Writer

variable {room : Option Nat} {stream : Bytes} {writer : Writer Buffer}

/-- Write records one after another until one is refused, and say whether all were taken. -/
def writeUntil {σ : Type} [Target σ] (writer : Writer σ) : List Record → Writer σ × Bool
  | [] => (writer, true)
  | record :: rest =>
    let (writer, taken) := writer.write record
    if taken then writer.writeUntil rest else (writer, false)

theorem write_takes (holds : writer.target.Holds room stream) (record : Record) :
    Buffer.Takes room (stream ++ writer.layout.closedLine record)
      ((writer.write record).1.target, (writer.write record).2) := by
  have whole : stream ++ writer.layout.closedLine record =
      stream ++ encodeUtf8 (writer.layout.line record) ++ encodeUtf8 ['\n'] := by
    rw [Layout.closedLine_eq, List.append_assoc]
  have line := holds.put (encodeUtf8 (writer.layout.line record))
  rw [write_eq, whole]
  simp only [Target.put]
  split
  · next taken => exact (line.1 taken).put _
  · next refused =>
    exact ⟨fun taken => absurd taken Bool.false_ne_true,
      fun _ => (line.2 (Bool.eq_false_iff.mpr refused)).append⟩

theorem writeUntil_cons {σ : Type} [Target σ] (writer : Writer σ) (record : Record)
    (rest : List Record) :
    writer.writeUntil (record :: rest) =
      if (writer.write record).2 then (writer.write record).1.writeUntil rest
      else ((writer.write record).1, false) := rfl

theorem layout_writeUntil {σ : Type} [Target σ] (writer : Writer σ) (records : List Record) :
    (writer.writeUntil records).1.layout = writer.layout := by
  induction records generalizing writer with
  | nil => rfl
  | cons record rest inductionHypothesis =>
    rw [writeUntil_cons]
    split
    · rw [inductionHypothesis, layout_write]
    · exact layout_write writer record

/-- When all were taken, all are counted. -/
theorem count_writeUntil {σ : Type} [Target σ] {writer : Writer σ} {records : List Record}
    (taken : (writer.writeUntil records).2 = true) :
    (writer.writeUntil records).1.count = writer.count + records.length := by
  induction records generalizing writer with
  | nil => rfl
  | cons record rest inductionHypothesis =>
    rw [writeUntil_cons] at taken ⊢
    split at taken
    · next first =>
      rw [if_pos first, inductionHypothesis taken, count_write, first, Bool.toNat_true,
        List.length_cons, Nat.add_assoc, Nat.add_comm 1]
    · cases taken

theorem writeUntil_takes (holds : writer.target.Holds room stream) (records : List Record) :
    Buffer.Takes room (stream ++ records.flatMap writer.layout.closedLine)
      ((writer.writeUntil records).1.target, (writer.writeUntil records).2) := by
  induction records generalizing writer stream with
  | nil =>
    rw [List.flatMap_nil, List.append_nil]
    exact ⟨fun _ => holds, fun refused => nomatch refused⟩
  | cons record rest inductionHypothesis =>
    have first := write_takes holds record
    rw [writeUntil_cons, List.flatMap_cons, ← List.append_assoc]
    split
    · next taken =>
      have later := inductionHypothesis (first.1 taken)
      rwa [layout_write] at later
    · next refused =>
      exact ⟨fun taken => (nomatch taken),
        fun _ => (first.2 (Bool.eq_false_iff.mpr refused)).append⟩

/-! ### The buffer alone -/

theorem size_waiting_write_le (writer : Writer Buffer) (record : Record) :
    (writer.write record).1.target.waiting.size ≤ Buffer.capacity := by
  rw [write_eq]
  split
  · exact Buffer.size_waiting_put_le ..
  · exact Buffer.size_waiting_put_le ..

theorem size_waiting_writeUntil_le (le : writer.target.waiting.size ≤ Buffer.capacity)
    (records : List Record) :
    (writer.writeUntil records).1.target.waiting.size ≤ Buffer.capacity := by
  induction records generalizing writer with
  | nil => exact le
  | cons record rest inductionHypothesis =>
    rw [writeUntil_cons]
    split
    · exact inductionHypothesis (size_waiting_write_le writer record)
    · exact size_waiting_write_le writer record

/-- A record whose closed line has place in the buffer waits there. -/
theorem write_of_place {record : Record}
    (place : writer.target.waiting.size + (writer.layout.closedLine record).length ≤
      Buffer.capacity) :
    writer.write record =
      (⟨⟨writer.target.sink, writer.target.waiting ++ writer.layout.closedLine record⟩,
        writer.layout, writer.count + 1⟩, true) := by
  have newline : (encodeUtf8 ['\n']).length = 1 := rfl
  have whole := writer.layout.closedLine_eq record
  have behind (held : Array UInt8) : held ++ writer.layout.closedLine record =
      held ++ encodeUtf8 (writer.layout.line record) ++ encodeUtf8 ['\n'] := by
    refine Array.toList_inj.mp ?_
    simp only [Array.toList_appendList, whole, List.append_assoc]
  rw [whole, List.length_append] at place
  have line : writer.target.put (encodeUtf8 (writer.layout.line record)) = _ :=
    Buffer.put_of_place (by omega) (by omega)
  have ending : (Buffer.mk writer.target.sink
      (writer.target.waiting ++ encodeUtf8 (writer.layout.line record))).put (encodeUtf8 ['\n']) =
        _ :=
    Buffer.put_of_place (by decide) (by rw [Buffer.size_append_bytes]; omega)
  rw [write_eq, behind]
  simp only [Target.put, line, ending, if_true]
  rfl

/-- Records are taken as long as the buffer has place for all of their closed lines. -/
theorem writeUntil_of_place {records : List Record}
    (place : writer.target.waiting.size + (records.flatMap writer.layout.closedLine).length ≤
      Buffer.capacity) :
    (writer.writeUntil records).2 = true := by
  induction records generalizing writer with
  | nil => rfl
  | cons record rest inductionHypothesis =>
    rw [List.flatMap_cons, List.length_append] at place
    have first : writer.write record = _ := write_of_place (by omega)
    rw [writeUntil_cons, first]
    refine inductionHypothesis ?_
    dsimp only
    rw [Buffer.size_append_bytes]
    omega

/-! ### Room that never ends -/

/-- A writer that has written the same to something whose room never ends. -/
def unlimited (writer : Writer Buffer) : Writer Buffer :=
  ⟨writer.target.unlimited, writer.layout, writer.count⟩

/-- A record that is taken is also taken without a bound, and leaves the same. -/
theorem write_unlimited {record : Record} (taken : (writer.write record).2 = true) :
    writer.unlimited.write record = ((writer.write record).1.unlimited, true) := by
  rw [write_eq] at taken
  split at taken
  · next line =>
    have first : writer.target.unlimited.put _ = _ := Buffer.put_unlimited line
    have second := Buffer.put_unlimited taken
    simp only [Target.put] at line taken first second
    rw [write_eq, write_eq]
    simp only [unlimited, Target.put, first, second, line, taken, if_true]
  · cases taken

end Writer

end OpcodeTable
