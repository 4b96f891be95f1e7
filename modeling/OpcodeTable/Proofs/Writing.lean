/-
This file says what a run of writes leaves in a sink that takes everything: the lines of the
records in their order, each with a newline behind it, and a count of all of them. Bytes that
encode a text decode to that text, and a text of closed lines is cut at its newlines into just
these lines, so nothing but the single line is left to say of a layout.
-/

import OpcodeTable.Output.Writer

namespace OpcodeTable

open Text

/-! ### Lines -/

namespace Text

theorem decodeUtf8?_encodeUtf8 (text : List Char) :
    decodeUtf8? (encodeUtf8 text) = some (String.ofList text) := by
  have same : (String.ofList text).toByteArray = (encodeUtf8 text).toByteArray :=
    String.toByteArray_ofList
  unfold decodeUtf8? String.fromUTF8?
  rw [← same, dif_pos (String.ofList text).isValidUTF8]
  rfl

theorem encodeUtf8_append (first second : List Char) :
    encodeUtf8 (first ++ second) = encodeUtf8 first ++ encodeUtf8 second :=
  List.flatMap_append

/-- The lines, each with a newline behind it. -/
def closedLines (lines : List (List Char)) : List Char := lines.flatMap (· ++ ['\n'])

/-- Closed lines are told from each other by their newlines, behind the last of which nothing
stands. -/
theorem splitOn_closedLines {lines : List (List Char)} (single : ∀ line ∈ lines, '\n' ∉ line) :
    (closedLines lines).splitOn '\n' = lines ++ [[]] := by
  induction lines with
  | nil => exact List.splitOn_nil '\n'
  | cons line rest inductionHypothesis =>
    have ⟨here, later⟩ := List.forall_mem_cons.mp single
    calc
      (closedLines (line :: rest)).splitOn '\n' =
          (line ++ '\n' :: closedLines rest).splitOn '\n' := by
        rw [closedLines, List.flatMap_cons, List.append_assoc]
        rfl
      _ = line :: (closedLines rest).splitOn '\n' :=
        List.splitOn_append_cons_self_of_not_mem here _
      _ = line :: (rest ++ [[]]) := by rw [inductionHypothesis later]

end Text

/-! ### Runs of writes -/

/-- The text of the records, one line for each. -/
def Layout.text (layout : Layout) (records : List Record) : List Char :=
  closedLines (records.map layout.line)

namespace Writer

variable {σ : Type}

/-- Write records one after another, whatever becomes of each. The answers are those of the
single writes. -/
def writeAll [Target σ] (writer : Writer σ) : List Record → Writer σ × List Bool
  | [] => (writer, [])
  | record :: rest =>
    let (writer, taken) := writer.write record
    let (writer, answers) := writer.writeAll rest
    (writer, taken :: answers)

theorem held_append (held : Array UInt8) (first second : List Char) :
    held ++ encodeUtf8 (first ++ second) = held ++ encodeUtf8 first ++ encodeUtf8 second := by
  refine Array.toList_inj.mp ?_
  rw [Array.toList_appendList, Array.toList_appendList, Array.toList_appendList,
    encodeUtf8_append, List.append_assoc]

theorem write_endless (held : Array UInt8) (layout : Layout) (count : Nat) (record : Record) :
    (Writer.mk (Sink.mk none held) layout count).write record =
      (⟨⟨none, held ++ encodeUtf8 (layout.line record ++ ['\n'])⟩, layout, count + 1⟩, true) := by
  rw [held_append]
  rfl

/-- A sink that takes everything is left with the text of the records, and each is counted. -/
theorem writeAll_endless (held : Array UInt8) (layout : Layout) (count : Nat)
    (records : List Record) :
    (Writer.mk (Sink.mk none held) layout count).writeAll records =
      (⟨⟨none, held ++ encodeUtf8 (layout.text records)⟩, layout, count + records.length⟩,
        List.replicate records.length true) := by
  induction records generalizing held count with
  | nil =>
    have nothing : held ++ encodeUtf8 (layout.text []) = held := Array.appendList_nil
    rw [nothing]
    rfl
  | cons record rest inductionHypothesis =>
    have line : layout.text (record :: rest) =
        layout.line record ++ ['\n'] ++ layout.text rest := rfl
    rw [writeAll, write_endless]
    dsimp only
    rw [inductionHypothesis, line, held_append held _ (layout.text rest), List.length_cons,
      Nat.add_assoc, Nat.add_comm 1]
    rfl

end Writer

/-! ### Output -/

namespace Layout

/-- What a run of writes leaves in a sink that takes everything. -/
def output (layout : Layout) (records : List Record) : Bytes :=
  ((Writer.start (Sink.empty none) layout).writeAll records).1.target.held.toList

theorem decodeUtf8?_output (layout : Layout) (records : List Record) :
    decodeUtf8? (layout.output records) = some (String.ofList (layout.text records)) := by
  unfold output Writer.start Sink.empty
  rw [Writer.writeAll_endless, Array.toList_appendList]
  exact decodeUtf8?_encodeUtf8 _

variable {layout : Layout}

theorem splitOn_text (single : ∀ record, '\n' ∉ layout.line record) (records : List Record) :
    (layout.text records).splitOn '\n' = records.map layout.line ++ [[]] := by
  refine splitOn_closedLines fun line member => ?_
  obtain ⟨record, _, rfl⟩ := List.mem_map.mp member
  exact single record

/-- The output determines the lines. -/
theorem lines_of_output (single : ∀ record, '\n' ∉ layout.line record)
    {records others : List Record} (same : layout.output records = layout.output others) :
    records.map layout.line = others.map layout.line := by
  have texts : layout.text records = layout.text others := by
    have decoded := layout.decodeUtf8?_output records
    rw [same, decodeUtf8?_output] at decoded
    exact (String.ofList_injective (Option.some.inj decoded)).symm
  refine (List.append_left_inj [[]]).mp ?_
  rw [← splitOn_text single, texts, splitOn_text single]

end Layout

end OpcodeTable
