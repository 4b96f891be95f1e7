/-
This file sorts the lines of a table. Only a definition says something about an instruction;
comments, directives and blank lines are passed over. The kind of a line hangs on its first
character that is not space, so it is read without cutting the line into words; it can also be told
from the first word.
-/

import OpcodeTable.Text.Space

namespace OpcodeTable

open Text

/-- The words of a line. -/
def tokens (line : String) : List String := (words line.toList).map String.ofList

/-- The four kinds of line. -/
inductive LineKind where
  | comment
  | directive
  | blank
  | definition
  deriving DecidableEq, Repr

namespace LineKind

/-- A comment begins with a hash sign and a directive with a dollar sign, space in front not
counted; a line of space alone is blank and every other line is a definition. -/
def ofLine (line : String) : LineKind :=
  match trimStart line.toList with
  | [] => .blank
  | first :: _ =>
    if first = '#' then .comment else if first = '$' then .directive else .definition

/-- The kind of a line, told from its first word once the space in front is taken off. Of a
comment no word is looked at. -/
def ofTrimmed (line : String) : LineKind :=
  let trimmed := trimStart line.toList
  if trimmed.head? = some '#' then .comment
  else
    match words trimmed with
    | [] => .blank
    | first :: _ => if first.head? = some '$' then .directive else .definition

/-- The name of a kind in the log. -/
def name : LineKind → String
  | .comment => "Comment"
  | .directive => "Directive"
  | .blank => "Blank"
  | .definition => "Definition"

end LineKind

end OpcodeTable
