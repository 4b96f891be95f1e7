/-
This file says that the kind of a line hangs on its words. A line is sorted into its kind by its
first character that is not space, before it is cut into words; since the first word begins with
that character, the words alone tell the kind, and two lines with the same words are of one
kind however they are laid out.
-/

import OpcodeTable.Line

namespace OpcodeTable

open Text

/-- Whether a line with the given words says nothing of an instruction: it has none, or the
first begins with the mark of a comment or of a directive. -/
def Skipped (words : List String) : Prop :=
  words = [] ∨ ∃ name rest, words = name :: rest ∧
    (name.toList.head? = some '#' ∨ name.toList.head? = some '$')

theorem skipped_cons_iff {name : String} {rest : List String} :
    Skipped (name :: rest) ↔ name.toList.head? = some '#' ∨ name.toList.head? = some '$' := by
  constructor
  · rintro (impossible | ⟨_, _, same, mark⟩)
    · cases impossible
    · rwa [(List.cons.inj same).1]
  · exact fun mark => .inr ⟨name, rest, rfl, mark⟩

/-- The first of the words begins with the mark. -/
def Marked (mark : Char) (words : List String) : Prop :=
  ∃ first later, words = first :: later ∧ first.toList.head? = some mark

theorem marked_cons_iff {mark : Char} {first : String} {later : List String} :
    Marked mark (first :: later) ↔ first.toList.head? = some mark := by
  simp [Marked]

theorem skipped_iff {words : List String} :
    Skipped words ↔ words = [] ∨ Marked '#' words ∨ Marked '$' words := by
  cases words with
  | nil => exact iff_of_true (.inl rfl) (.inl rfl)
  | cons first later => simp [skipped_cons_iff, marked_cons_iff]

namespace LineKind

/-- The kind of a line with the given words. -/
def ofTokens : List String → LineKind
  | [] => .blank
  | name :: _ =>
    if name.toList.head? = some '#' then .comment
    else if name.toList.head? = some '$' then .directive
    else .definition

theorem ofLine_eq_ofTokens (line : String) : ofLine line = ofTokens (tokens line) := by
  have first := runs_of_dropWhile isSpace line.toList
  unfold ofLine trimStart tokens words
  cases begun : line.toList.dropWhile isSpace with
  | nil =>
    rw [begun] at first
    rw [first]
    rfl
  | cons c rest =>
    rw [begun] at first
    obtain ⟨tail, later, runsFirst⟩ := first
    rw [runsFirst, List.map_cons, ofTokens, String.toList_ofList, List.head?_cons]
    simp only [Option.some.injEq]

theorem ofTokens_eq_iff (words : List String) :
    (ofTokens words = .blank ↔ words = []) ∧
      (ofTokens words = .comment ↔ Marked '#' words) ∧
      (ofTokens words = .directive ↔ Marked '$' words) ∧
      (ofTokens words = .definition ↔ words ≠ [] ∧ ¬ Marked '#' words ∧ ¬ Marked '$' words) := by
  cases words with
  | nil => simp [ofTokens, Marked]
  | cons first later =>
    rw [marked_cons_iff, marked_cons_iff, ofTokens]
    by_cases comment : first.toList.head? = some '#'
    · simp [comment]
    · by_cases directive : first.toList.head? = some '$'
      · simp [directive]
      · simp [comment, directive]

theorem ofTokens_eq_definition_iff (words : List String) :
    ofTokens words = .definition ↔ ¬ Skipped words := by
  rw [(ofTokens_eq_iff words).2.2.2, skipped_iff, not_or, not_or]

theorem ofLine_eq_definition_iff {line : String} :
    ofLine line = .definition ↔ ¬ Skipped (tokens line) := by
  rw [ofLine_eq_ofTokens, ofTokens_eq_definition_iff]

end LineKind

end OpcodeTable
