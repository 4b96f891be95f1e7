/-
This file cuts a text into its lines. A line ends at a newline; a carriage return directly
before that newline belongs to the ending, and every other carriage return belongs to the
line. A newline at the end of the text closes the last line and opens no other, so a text
without characters has no lines.
-/

namespace OpcodeTable.Text

/-- Take the carriage return of a line ending off a line that was collected latest character
first. -/
def stripReturn : List Char → List Char
  | '\r' :: line => line
  | line => line

/-- The lines of a text whose first line has already begun with the given characters, latest
first. -/
def linesFrom (line : List Char) : List Char → List (List Char)
  | [] => if line.isEmpty then [] else [line.reverse]
  | c :: rest =>
    if c = '\n' then (stripReturn line).reverse :: linesFrom [] rest
    else linesFrom (c :: line) rest

/-- The lines of a text, without their endings. -/
def lines (text : String) : List String := (linesFrom [] text.toList).map String.ofList

/-- A newline cuts a text into two, and no line reaches across it. -/
theorem linesFrom_append_newline (line text later : List Char) :
    linesFrom line (text ++ '\n' :: later) =
      linesFrom line (text ++ ['\n']) ++ linesFrom [] later := by
  induction text generalizing line with
  | nil => simp [linesFrom]
  | cons c rest inductionHypothesis =>
    rw [List.cons_append, List.cons_append, linesFrom, linesFrom]
    split
    · rw [inductionHypothesis, List.cons_append]
    · rw [inductionHypothesis]

end OpcodeTable.Text
