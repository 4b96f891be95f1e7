/-
This file is about what a table does not see. Of a line it sees the words: a line is sorted by its
first character that is not space and read by its words, and since the first word begins with
that character, two lines with the same words are of one kind and give the same, however they are
laid out. Only the event that shows a line as it stands tells them apart.

For the endings of lines this means that a carriage return in front of a newline makes no
difference. The first one belongs to the ending. One more stands at the end of the line, where it
is space, so the words are the same in either case, and the lines are as many as before. What a
table gives is therefore kept when some of its line endings are changed, down to the number of the
line with a fault; only that line's text may be longer.
-/

import OpcodeTable.Proofs.Layout
import OpcodeTable.Proofs.Outcome
import OpcodeTable.Proofs.Tables

namespace OpcodeTable

open Text

/-! ### The kind of a line -/

namespace LineKind

/-- The first word has the first character of the text that is no space, so both ways of telling
the kind agree. -/
theorem ofTrimmed_eq_ofLine (line : String) : ofTrimmed line = ofLine line := by
  have first := runs_of_dropWhile isSpace line.toList
  rw [ofTrimmed, words_trimStart, ofLine]
  unfold trimStart words
  cases begun : line.toList.dropWhile isSpace with
  | nil =>
    rw [begun] at first
    rw [first]
    rfl
  | cons c rest =>
    rw [begun] at first
    obtain ⟨tail, later, split⟩ := first
    simp only [split, List.head?_cons, Option.some.injEq]

end LineKind

/-! ### What comes of a line -/

theorem Definition.parse_eq_of_tokens {line other : String} (same : tokens line = tokens other) :
    Definition.parse line = Definition.parse other := by
  rw [Definition.parse, Definition.parse, same]

/-- What comes of a line hangs on its words, and so does what is reported behind the line
itself. -/
theorem assembleLine_of_tokens (catalog : Catalog) (rules : Rules) {line other : String}
    (same : tokens line = tokens other) :
    assembleLine catalog rules line =
      ⟨.classified (LineKind.ofLine other) line :: (assembleLine catalog rules other).events.tail,
        (assembleLine catalog rules other).outcome⟩ := by
  have kind : LineKind.ofLine line = LineKind.ofLine other := by
    rw [LineKind.ofLine_eq_ofTokens, LineKind.ofLine_eq_ofTokens, same]
  unfold assembleLine
  rw [kind, Definition.parse_eq_of_tokens same]
  cases LineKind.ofLine other <;> rfl

/-! ### What comes of a table -/

/-- A fault without the text of its line. -/
def TableFault.untold (fault : TableFault) : String × Nat × Fault :=
  (fault.file, fault.number, fault.fault)

/-- Two tables whose lines have the same words, one by one, give the same records or have the
same fault in the same place. -/
theorem assembleLines_of_tokens (catalog : Catalog) (rules : Rules) (file : String)
    {lines others : List String} (same : lines.map tokens = others.map tokens) (number : Nat) :
    (assembleLines catalog rules file number lines).outcome.mapError TableFault.untold =
      (assembleLines catalog rules file number others).outcome.mapError TableFault.untold := by
  induction lines generalizing others number with
  | nil => rw [List.map_eq_nil_iff.mp same.symm]
  | cons line later inductionHypothesis =>
    obtain ⟨other, rest, rfl, first, behind⟩ := List.map_eq_cons_iff.mp same.symm
    have alike : (assembleLine catalog rules line).outcome =
        (assembleLine catalog rules other).outcome := by
      rw [assembleLine_of_tokens catalog rules first.symm]
    cases read : (assembleLine catalog rules other).outcome with
    | error own =>
      rw [outcome_assembleLines_of_error (alike.trans read), outcome_assembleLines_of_error read]
      rfl
    | ok result =>
      have commute (outcome : Except TableFault (List Record)) :
          (outcome.map (result.toList ++ ·)).mapError TableFault.untold =
            (outcome.mapError TableFault.untold).map (result.toList ++ ·) := by
        cases outcome <;> rfl
      rw [outcome_assembleLines_of_ok (alike.trans read), outcome_assembleLines_of_ok read,
        commute, commute, inductionHypothesis behind.symm]

/-! ### Carriage returns -/

namespace Text

/-- The second text is the first with a carriage return put in front of some of its newlines. -/
inductive Returned : List Char → List Char → Prop
  | nil : Returned [] []
  | keep (c : Char) {text other : List Char} (later : Returned text other) :
      Returned (c :: text) (c :: other)
  | put {text other : List Char} (later : Returned text other) :
      Returned ('\n' :: text) ('\r' :: '\n' :: other)

theorem Returned.behind {text other : List Char} (returned : Returned text other)
    (front : List Char) : Returned (front ++ text) (front ++ other) := by
  induction front with
  | nil => exact returned
  | cons c _ inductionHypothesis => exact .keep c inductionHypothesis

theorem words_append_return (line : List Char) : words (line ++ ['\r']) = words line :=
  (runs_append_separator rfl line []).trans (List.append_nil _)

theorem words_stripReturn (line : List Char) :
    words (stripReturn line).reverse = words line.reverse := by
  unfold stripReturn
  split
  · rw [List.reverse_cons, words_append_return]
  · rfl

/-- A line that has begun ends with the same words, and those behind it have the same, too. -/
theorem Returned.map_words {text other : List Char} (returned : Returned text other)
    (begun : List Char) :
    (linesFrom begun text).map words = (linesFrom begun other).map words := by
  induction returned generalizing begun with
  | nil => rfl
  | keep c _ inductionHypothesis =>
    rw [linesFrom, linesFrom]
    split
    · rw [List.map_cons, List.map_cons, inductionHypothesis]
    · exact inductionHypothesis (c :: begun)
  | put _ inductionHypothesis =>
    show words (stripReturn begun).reverse :: _ = words begun.reverse :: _
    rw [words_stripReturn, inductionHypothesis]

theorem Returned.map_tokens {text other : String} (returned : Returned text.toList other.toList) :
    (lines text).map tokens = (lines other).map tokens := by
  have split (text : String) :
      (lines text).map tokens =
        ((linesFrom [] text.toList).map words).map (List.map String.ofList) := by
    simp [lines, tokens, Function.comp_def]
  rw [split, split, returned.map_words]

end Text

/-! ### Words alone matter -/

/-- Nothing but the words of a line counts. A line gives the words that it is a layout of, space
being the twenty-five code points and no others. Its kind is that of its words, by either way of
telling it, and so is what comes of it, under every catalog and all rules; the events differ
in the line they show at most. A text with more carriage returns in front of its newlines has the
same words line by line, so it gives the same records or has the same fault in the same place. -/
theorem words_alone_matter :
    (∀ c, isSpace c = true ↔ c.toNat ∈ spaceCodePoints) ∧
      (∀ line words, tokens line = words ↔
        (∀ word ∈ words, IsWord word.toList) ∧ LaidOut (words.map String.toList) line.toList) ∧
      (∀ line,
        LineKind.ofTrimmed line = LineKind.ofLine line ∧
          (LineKind.ofLine line = .blank ↔ tokens line = []) ∧
          (LineKind.ofLine line = .comment ↔ Marked '#' (tokens line)) ∧
          (LineKind.ofLine line = .directive ↔ Marked '$' (tokens line)) ∧
          (LineKind.ofLine line = .definition ↔
            tokens line ≠ [] ∧ ¬ Marked '#' (tokens line) ∧ ¬ Marked '$' (tokens line))) ∧
      (∀ line other, tokens line = tokens other →
        LineKind.ofLine line = LineKind.ofLine other ∧
          ∀ catalog rules,
            (assembleLine catalog rules line).outcome =
                (assembleLine catalog rules other).outcome ∧
              (assembleLine catalog rules line).events.tail =
                (assembleLine catalog rules other).events.tail) ∧
      ∀ text other : String, Returned text.toList other.toList →
        (lines text).map tokens = (lines other).map tokens ∧
          ∀ catalog rules file,
            (assembleText catalog rules file text).outcome.mapError TableFault.untold =
              (assembleText catalog rules file other).outcome.mapError TableFault.untold := by
  refine ⟨isSpace_iff, fun line words => tokens_eq_iff, fun line => ?_,
    fun line other same => ⟨?_, fun catalog rules => ?_⟩,
    fun text other returned => ⟨returned.map_tokens, fun catalog rules file => ?_⟩⟩
  · rw [LineKind.ofLine_eq_ofTokens]
    exact ⟨(LineKind.ofTrimmed_eq_ofLine line).trans (LineKind.ofLine_eq_ofTokens line),
      LineKind.ofTokens_eq_iff (tokens line)⟩
  · rw [LineKind.ofLine_eq_ofTokens, LineKind.ofLine_eq_ofTokens, same]
  · rw [assembleLine_of_tokens catalog rules same]
    exact ⟨rfl, rfl⟩
  · exact assembleLines_of_tokens catalog rules file returned.map_tokens 1

/-- Three lines that end in three ways, the second of which has a field that no catalog lists. -/
def mixedTable : String := "$x\nlx rd seven 1..0=3\r\nlw"

/-- The same lines with one carriage return more in front of each newline. -/
def returnedTable : String := "$x\r\nlx rd seven 1..0=3\r\r\nlw"

/-- The fault stays in its line, which now ends in a carriage return. -/
theorem words_alone_matter_mixedTable :
    Returned mixedTable.toList returnedTable.toList ∧
      lines mixedTable = ["$x", "lx rd seven 1..0=3", "lw"] ∧
      lines returnedTable = ["$x", "lx rd seven 1..0=3\r", "lw"] ∧
      (assembleText .riscv .mixed "t" mixedTable).outcome =
        .error ⟨"t", 2, "lx rd seven 1..0=3", .unknownField "seven"⟩ ∧
      (assembleText .riscv .mixed "t" returnedTable).outcome.mapError TableFault.untold =
        .error ("t", 2, .unknownField "seven") := by
  have returned : Returned mixedTable.toList returnedTable.toList :=
    (((Returned.nil.behind ['l', 'w']).put.behind "lx rd seven 1..0=3\r".toList).put).behind
      ['$', 'x']
  have failed : (assembleText .riscv .mixed "t" mixedTable).outcome =
    .error ⟨"t", 2, "lx rd seven 1..0=3", .unknownField "seven"⟩ := rfl
  have ⟨_, _, _, _, endings⟩ := words_alone_matter
  have same := (endings _ _ returned).2 .riscv .mixed "t"
  rw [failed] at same
  exact ⟨returned, rfl, rfl, failed, same.symm⟩

end OpcodeTable
