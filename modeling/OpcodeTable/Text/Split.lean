/-
This file cuts a text at the first place where a mark stands.
-/

namespace OpcodeTable.Text

/-- What stands before and after the first occurrence of the mark, which has at least one
character; nothing if the mark does not occur. -/
def splitFirst? (mark : List Char) : List Char → Option (List Char × List Char)
  | [] => none
  | c :: rest =>
    if mark.isPrefixOf (c :: rest) then some ([], (c :: rest).drop mark.length)
    else (splitFirst? mark rest).map fun parts => (c :: parts.1, parts.2)

/-- The text before a given ending, if the text ends so. -/
def dropEnding? (ending text : List Char) : Option (List Char) :=
  if ending.isSuffixOf text then some (text.take (text.length - ending.length)) else none

/-! ### What the pieces are -/

theorem eq_append_of_splitFirst? {mark text before after : List Char}
    (cut : splitFirst? mark text = some (before, after)) : text = before ++ mark ++ after := by
  induction text generalizing before with
  | nil => cases cut
  | cons c rest inductionHypothesis =>
    rw [splitFirst?] at cut
    split at cut
    · next here =>
      obtain ⟨rfl, rfl⟩ := Prod.mk.inj (Option.some.inj cut)
      have ⟨after, whole⟩ := List.isPrefixOf_iff_prefix.mp here
      rw [List.nil_append, ← whole, List.drop_left]
    · obtain ⟨⟨later, behind⟩, found, same⟩ := Option.map_eq_some_iff.mp cut
      obtain ⟨rfl, rfl⟩ := Prod.mk.inj same
      rw [inductionHypothesis found]
      rfl

/-- A text without the first character of the mark has no mark. -/
theorem splitFirst?_eq_none {first : Char} {text : List Char} (fresh : first ∉ text)
    (marks : List Char) : splitFirst? (first :: marks) text = none := by
  induction text with
  | nil => rfl
  | cons c rest inductionHypothesis =>
    rw [List.mem_cons, not_or] at fresh
    have ⟨different, fresh⟩ := fresh
    rw [splitFirst?, List.isPrefixOf_cons_cons, beq_false_of_ne different, Bool.false_and,
      if_neg Bool.false_ne_true, inductionHypothesis fresh]
    rfl

/-- The mark is found behind a text that lacks its first character. -/
theorem splitFirst?_append {first : Char} {before : List Char} (fresh : first ∉ before)
    (marks after : List Char) :
    splitFirst? (first :: marks) (before ++ (first :: marks) ++ after) = some (before, after) := by
  induction before with
  | nil =>
    have here : (first :: marks).isPrefixOf (first :: (marks ++ after)) = true :=
      List.isPrefixOf_iff_prefix.mpr ⟨after, rfl⟩
    rw [List.nil_append, List.cons_append, splitFirst?, if_pos here]
    exact congrArg (fun rest => some ([], rest)) List.drop_left
  | cons c rest inductionHypothesis =>
    rw [List.mem_cons, not_or] at fresh
    have ⟨different, fresh⟩ := fresh
    rw [List.cons_append, List.cons_append, splitFirst?, List.isPrefixOf_cons_cons,
      beq_false_of_ne different, Bool.false_and, if_neg Bool.false_ne_true,
      inductionHypothesis fresh]
    rfl

theorem dropEnding?_eq_some_iff {ending text base : List Char} :
    dropEnding? ending text = some base ↔ text = base ++ ending := by
  rw [dropEnding?]
  constructor
  · intro dropped
    split at dropped
    · next ends =>
      have ⟨front, whole⟩ := List.isSuffixOf_iff_suffix.mp ends
      rw [← whole, List.length_append, Nat.add_sub_cancel, List.take_left] at dropped
      rw [← whole, Option.some.inj dropped]
    · cases dropped
  · rintro rfl
    rw [if_pos (List.isSuffixOf_iff_suffix.mpr ⟨base, rfl⟩), List.length_append,
      Nat.add_sub_cancel, List.take_left]

theorem dropEnding?_eq_none_iff {ending text : List Char} :
    dropEnding? ending text = none ↔ ¬ ending <:+ text := by
  rw [dropEnding?, ← List.isSuffixOf_iff_suffix]
  split
  · next ends => exact iff_of_false (Option.some_ne_none _) fun none => none ends
  · next differs => exact iff_of_true rfl differs

end OpcodeTable.Text
