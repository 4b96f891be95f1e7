/-
This file compares what one table gives under different rules. The two rules work on different
parts of the result and do not meet: to ask for the two lowest bits only takes away records that
do not fix them, and to choose the width only says which width the records have.

A table of mixed widths read as a table of 32-bit instructions has both rules changed. It then
gives the same records up to their width, and the same fault, unless the fault was that an opcode
is left open; the line of that fault has a record then, and the reading goes on behind it.
-/

import OpcodeTable.Proofs.Tables
import OpcodeTable.Proofs.Verdict

namespace OpcodeTable

/-! ### One definition -/

/-- The record with the width that all records have in a table of 32-bit instructions. -/
def Record.widened (record : Record) : Record := { record with width := .wide }

/-- What is left of the outcome of a line when the two lowest bits are asked for: a record that
does not fix them is refused with its mask. -/
def checked : Except Fault (Option Record) → Except Fault (Option Record)
  | .ok (some record) =>
    if record.mask &&& opcodeBits = opcodeBits then .ok (some record)
    else .error (.openOpcode record.mask)
  | other => other

theorem eq_of_checked_eq_ok {outcome : Except Fault (Option Record)} {result : Option Record}
    (sound : checked outcome = .ok result) : outcome = .ok result := by
  rcases outcome with fault | _ | record
  · exact sound
  · exact sound
  · rw [checked] at sound
    split at sound
    · exact sound
    · cases sound

theorem eq_of_checked_eq_error {outcome : Except Fault (Option Record)} {fault : Fault}
    (failed : checked outcome = .error fault) :
    outcome = .error fault ∨
      ∃ record, outcome = .ok (some record) ∧ fault = .openOpcode record.mask := by
  rcases outcome with own | _ | record
  · exact .inl failed
  · cases failed
  · rw [checked] at failed
    split at failed
    · cases failed
    · exact .inr ⟨record, rfl, (Except.error.inj failed).symm⟩

namespace Definition

variable (catalog : Catalog) (definition : Definition)

/-- The check stands behind the sorting of the fields, so it sees nothing but records. -/
theorem verdict_closed (widthRule : WidthRule) :
    (definition.verdict catalog ⟨true, widthRule⟩).map some =
      checked ((definition.verdict catalog ⟨false, widthRule⟩).map some) := by
  unfold verdict
  cases catalog.sort definition.fieldNames with
  | error fault => rfl
  | ok fields =>
    have unasked : ¬ definition.LeavesOpen ⟨false, widthRule⟩ := fun leftOpen => nomatch leftOpen.1
    rw [Except.bind, Except.bind, if_neg unasked]
    by_cases fixed : definition.pattern.mask &&& opcodeBits = opcodeBits
    · rw [if_neg fun leftOpen => leftOpen.2 fixed]
      exact (if_pos fixed).symm
    · rw [if_pos ⟨rfl, fixed⟩]
      exact (if_neg fixed).symm

theorem verdict_always32 (closed : Bool) :
    definition.verdict catalog ⟨closed, .always32⟩ =
      (definition.verdict catalog ⟨closed, .byOpcode⟩).map Record.widened := by
  unfold verdict
  cases catalog.sort definition.fieldNames with
  | error fault => rfl
  | ok fields =>
    rw [Except.bind, Except.bind]
    by_cases leftOpen : definition.LeavesOpen ⟨closed, .always32⟩
    · have alsoOpen : definition.LeavesOpen ⟨closed, .byOpcode⟩ := leftOpen
      rw [if_pos leftOpen, if_pos alsoOpen]
      rfl
    · have alsoFixed : ¬ definition.LeavesOpen ⟨closed, .byOpcode⟩ := leftOpen
      rw [if_neg leftOpen, if_neg alsoFixed]
      rfl

end Definition

/-! ### One line -/

section Line

variable {catalog : Catalog} {line : String}

/-- What other rules do to every verdict they do to the outcome of a line, when they leave skipped
lines and faults alone. -/
theorem outcome_of_verdicts {rules others : Rules}
    (change : Except Fault (Option Record) → Except Fault (Option Record))
    (skips : change (.ok none) = .ok none) (faults : ∀ fault, change (.error fault) = .error fault)
    (verdicts : ∀ definition : Definition, (definition.verdict catalog others).map some =
      change ((definition.verdict catalog rules).map some)) :
    (assembleLine catalog others line).outcome =
      change (assembleLine catalog rules line).outcome := by
  by_cases skipped : Skipped (tokens line)
  · rw [outcome_of_skipped catalog _ skipped, outcome_of_skipped catalog _ skipped, skips]
  · rw [outcome_of_kept catalog _ skipped, outcome_of_kept catalog _ skipped]
    cases Definition.parse line with
    | error fault => exact (faults fault).symm
    | ok definition => exact verdicts definition

theorem outcome_closed (catalog : Catalog) (widthRule : WidthRule) (line : String) :
    (assembleLine catalog ⟨true, widthRule⟩ line).outcome =
      checked (assembleLine catalog ⟨false, widthRule⟩ line).outcome :=
  outcome_of_verdicts checked rfl (fun _ => rfl)
    fun definition => definition.verdict_closed catalog widthRule

theorem outcome_always32 (catalog : Catalog) (closed : Bool) (line : String) :
    (assembleLine catalog ⟨closed, .always32⟩ line).outcome =
      (assembleLine catalog ⟨closed, .byOpcode⟩ line).outcome.map
        (Option.map Record.widened) := by
  refine outcome_of_verdicts (·.map (Option.map Record.widened)) rfl (fun _ => rfl)
    fun definition => ?_
  rw [definition.verdict_always32]
  cases definition.verdict catalog ⟨closed, .byOpcode⟩ <;> rfl

/-- No opcode is reported as left open unless the two lowest bits are asked for. -/
theorem outcome_ne_openOpcode (widthRule : WidthRule) (mask : Word) :
    (assembleLine catalog ⟨false, widthRule⟩ line).outcome ≠ .error (.openOpcode mask) := by
  intro failed
  by_cases skipped : Skipped (tokens line)
  · rw [outcome_of_skipped catalog _ skipped] at failed
    cases failed
  · cases split : tokens line with
    | nil => exact skipped (.inl split)
    | cons name parts =>
      have asked := ((outcome_eq_openOpcode_iff skipped split).mp failed).2.2.1
      cases asked

theorem outcome_mixed (catalog : Catalog) (line : String) :
    (assembleLine catalog .mixed line).outcome =
      checked (assembleLine catalog ⟨false, .byOpcode⟩ line).outcome :=
  outcome_closed catalog .byOpcode line

theorem outcome_wide (catalog : Catalog) (line : String) :
    (assembleLine catalog .wide line).outcome =
      (assembleLine catalog ⟨false, .byOpcode⟩ line).outcome.map (Option.map Record.widened) :=
  outcome_always32 catalog false line

theorem wide_of_ok {result : Option Record}
    (sound : (assembleLine catalog .mixed line).outcome = .ok result) :
    (assembleLine catalog .wide line).outcome = .ok (result.map Record.widened) := by
  rw [outcome_mixed] at sound
  rw [outcome_wide, eq_of_checked_eq_ok sound]
  rfl

/-- A line that has a fault keeps it, unless it is an open opcode. -/
theorem wide_of_error {fault : Fault}
    (failed : (assembleLine catalog .mixed line).outcome = .error fault) :
    ((assembleLine catalog .wide line).outcome = .error fault ∧
        ∀ mask, fault ≠ .openOpcode mask) ∨
      ∃ record, fault = .openOpcode record.mask ∧
        (assembleLine catalog .wide line).outcome = .ok (some record) := by
  rw [outcome_mixed] at failed
  rw [outcome_wide]
  rcases eq_of_checked_eq_error failed with unasked | ⟨record, unasked, rfl⟩
  · refine .inl ⟨by rw [unasked]; rfl, fun mask same => ?_⟩
    exact outcome_ne_openOpcode .byOpcode mask (unasked.trans (congrArg _ same))
  · exact .inr ⟨record.widened, rfl, by rw [unasked]; rfl⟩

end Line

/-! ### The lines of a table -/

/-- How lines are read as a table of 32-bit instructions, by how they are read as a table of
mixed widths. -/
inductive Widens (catalog : Catalog) (file : String) (number : Nat) (lines : List String) : Prop
  | sound (mixed : tableFault? catalog .mixed file number lines = none)
      (wide : tableFault? catalog .wide file number lines = none)
      (records : tableRecords catalog .wide lines =
        (tableRecords catalog .mixed lines).map Record.widened)
  | failed (place : TableFault) (mixed : tableFault? catalog .mixed file number lines = some place)
      (wide : tableFault? catalog .wide file number lines = some place)
      (other : ∀ mask, place.fault ≠ .openOpcode mask)
  | opened (place : TableFault) (record : Record)
      (mixed : tableFault? catalog .mixed file number lines = some place)
      (fault : place.fault = .openOpcode record.mask)
      (wide : (assembleLine catalog .wide place.text).outcome = .ok (some record))
      (records : (tableRecords catalog .mixed lines).map Record.widened ++ [record] <+:
        tableRecords catalog .wide lines)

theorem widens (catalog : Catalog) (file : String) (number : Nat) (lines : List String) :
    Widens catalog file number lines := by
  induction lines generalizing number with
  | nil => exact .sound rfl rfl rfl
  | cons line later inductionHypothesis =>
    cases read : (assembleLine catalog .mixed line).outcome with
    | ok result =>
      have wideRead := wide_of_ok read
      have front : (result.map Record.widened).toList = result.toList.map Record.widened := by
        cases result <;> rfl
      cases inductionHypothesis (number + 1) with
      | sound mixed wide records =>
        refine .sound ?_ ?_ ?_
        · rw [tableFault?_of_ok read, mixed]
        · rw [tableFault?_of_ok wideRead, wide]
        · rw [tableRecords_of_ok read, tableRecords_of_ok wideRead, List.map_append, records, front]
      | failed place mixed wide other =>
        refine .failed place ?_ ?_ other
        · rw [tableFault?_of_ok read, mixed]
        · rw [tableFault?_of_ok wideRead, wide]
      | opened place record mixed fault wide records =>
        refine .opened place record ?_ fault wide ?_
        · rw [tableFault?_of_ok read, mixed]
        · rw [tableRecords_of_ok read, tableRecords_of_ok wideRead, List.map_append, front,
            List.append_assoc]
          exact (List.prefix_append_right_inj _).mpr records
    | error fault =>
      have mixed := tableFault?_of_error read file number later
      rcases wide_of_error read with ⟨wideRead, other⟩ | ⟨record, opened, wideRead⟩
      · exact .failed _ mixed (tableFault?_of_error wideRead file number later) other
      · refine .opened _ record mixed opened wideRead ?_
        rw [tableRecords_of_error read, tableRecords_of_ok wideRead]
        exact List.prefix_append _ _

/-! ### Both rules -/

/-- What either rule changes, and what becomes of a table of mixed widths that is read as a table
of 32-bit instructions. A fault that is no open opcode stays where it is; a line whose opcode is
left open brings a record with the mask that was reported, behind the records of the lines before
it. -/
theorem rules_apart (catalog : Catalog) :
    (∀ widthRule line,
      (assembleLine catalog ⟨true, widthRule⟩ line).outcome =
        checked (assembleLine catalog ⟨false, widthRule⟩ line).outcome) ∧
      (∀ closed line,
        (assembleLine catalog ⟨closed, .always32⟩ line).outcome =
          (assembleLine catalog ⟨closed, .byOpcode⟩ line).outcome.map
            (Option.map Record.widened)) ∧
      ∀ file text,
        let mixed := (assembleText catalog .mixed file text).outcome
        let wide := (assembleText catalog .wide file text).outcome
        (∀ records, mixed = .ok records → wide = .ok (records.map Record.widened)) ∧
          (∀ place, mixed = .error place → (∀ mask, place.fault ≠ .openOpcode mask) →
            wide = .error place) ∧
          ∀ place mask, mixed = .error place → place.fault = .openOpcode mask →
            (∀ line ∈ (Text.lines text).take (place.number - 1), ∃ result,
              (assembleLine catalog .mixed line).outcome = .ok result ∧
                (assembleLine catalog .wide line).outcome = .ok (result.map Record.widened)) ∧
              (Text.lines text)[place.number - 1]? = some place.text ∧
              ∃ record, record.mask = mask ∧
                (assembleLine catalog .wide place.text).outcome = .ok (some record) ∧
                (tableRecords catalog .mixed (Text.lines text)).map Record.widened ++ [record] <+:
                  tableRecords catalog .wide (Text.lines text) := by
  refine ⟨outcome_closed catalog, outcome_always32 catalog, fun file text => ?_⟩
  have both := widens catalog file 1 (Text.lines text)
  refine ⟨fun records read => ?_, fun place failed other => ?_, fun place mask failed opened => ?_⟩
  · obtain ⟨sound, rfl⟩ := assembleText_eq_ok_iff.mp read
    cases both with
    | sound _ wide records => exact assembleText_eq_ok_iff.mpr ⟨wide, records⟩
    | failed place mixed _ _ => cases sound.symm.trans mixed
    | opened place record mixed _ _ _ => cases sound.symm.trans mixed
  · have found := assembleText_eq_error_iff.mp failed
    cases both with
    | sound mixed _ _ => cases found.symm.trans mixed
    | failed own mixed wide _ =>
      cases found.symm.trans mixed
      exact assembleText_eq_error_iff.mpr wide
    | opened own record mixed fault _ _ =>
      cases found.symm.trans mixed
      exact absurd fault (other record.mask)
  · have found := assembleText_eq_error_iff.mp failed
    obtain ⟨line, own, stands, _, rfl⟩ := tableFault?_eq_some_iff.mp found
    rw [Nat.add_sub_cancel_left]
    refine ⟨fun line member => ?_, stands, ?_⟩
    · obtain ⟨result, sound⟩ := sound_before_firstFault member
      exact ⟨result, sound, wide_of_ok sound⟩
    · cases both with
      | sound mixed _ _ => cases found.symm.trans mixed
      | failed place mixed _ other =>
        cases found.symm.trans mixed
        exact absurd opened (other mask)
      | opened place record mixed fault wide records =>
        cases found.symm.trans mixed
        exact ⟨record, Fault.openOpcode.inj (fault.symm.trans opened), wide, records⟩

end OpcodeTable
