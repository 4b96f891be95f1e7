/-
This file says exactly what comes of a line. A line that is blank, a comment or a directive
comes to nothing. Of every other line the first token is the name, whatever it looks like, and
one of four things is true of the rest: a token that has to be a fixed part is none, or a token
brings a field outside the catalog, or the rules ask for the two lowest bits and the tokens
leave one of them out, or there is a record. The first of these that holds decides, and the
fault names the leftmost token to which it applies; the order of the tokens settles nothing
else.
-/

import OpcodeTable.Proofs.FieldOrder
import OpcodeTable.Proofs.Outcome
import OpcodeTable.Proofs.Reading

namespace OpcodeTable

open Text

/-! ### The tokens of a definition -/

namespace Part

/-- The token brings a field that the catalog does not list. -/
def Unlisted (catalog : Catalog) (token : String) : Prop :=
  ∃ name, Brings token name ∧ name ∉ catalog

/-- Some token spells a fixed part that covers the bit. -/
def Covered (tokens : List String) (index : Nat) : Prop :=
  ∃ token ∈ tokens, ∃ part, FixedPart.Spells token.toList part ∧ part.range.Covers index

theorem unlisted_eq (catalog : Catalog) :
    Unlisted catalog = fun token => ∃ name, name? token = some name ∧ name ∉ catalog :=
  funext fun token => by simp only [Unlisted, brings_iff]

theorem not_unlisted_low (catalog : Catalog) (base : String) :
    ¬ Unlisted catalog (base ++ "lo") := by
  intro ⟨name, brings, _⟩
  rw [brings_iff, name?, FieldPart.ofToken_low] at brings
  split at brings <;> cases brings

end Part

namespace Definition

variable {line name : String} {parts : List String} {definition : Definition}

theorem covered_iff (split : tokens line = name :: parts)
    (read : parse line = .ok definition) (index : Nat) :
    FixedPart.Covered definition.fixedParts index ↔ Part.Covered parts index := by
  unfold FixedPart.Covered Part.Covered
  simp only [mem_fixedParts_iff split read]
  constructor
  · exact fun ⟨part, ⟨token, member, spelt⟩, covers⟩ => ⟨token, member, part, spelt, covers⟩
  · exact fun ⟨token, member, part, spelt, covers⟩ => ⟨part, ⟨token, member, spelt⟩, covers⟩

theorem getLsbD_mask_iff (split : tokens line = name :: parts)
    (read : parse line = .ok definition) {index : Nat} (bound : index < 32) :
    definition.pattern.mask.getLsbD index = true ↔ Part.Covered parts index :=
  (FixedPart.gathered_bits definition.fixedParts bound).1.trans (covered_iff split read index)

theorem leavesOpen_iff_tokens (split : tokens line = name :: parts)
    (read : parse line = .ok definition) {rules : Rules} :
    definition.LeavesOpen rules ↔
      rules.closedOpcode = true ∧ ∃ index < 2, ¬ Part.Covered parts index := by
  simp only [leavesOpen_iff, covered_iff split read]

/-- The leftmost token that brings an unlisted field is the one that the catalog refuses. -/
theorem sort_eq_unknownField_iff (split : tokens line = name :: parts)
    (read : parse line = .ok definition) (catalog : Catalog) {fault : Fault} :
    catalog.sort definition.fieldNames = .error fault ↔
      ∃ part field, Leftmost (Part.Unlisted catalog) part parts ∧ Part.Brings part field ∧
        fault = .unknownField field := by
  rw [Catalog.sort_eq_error_iff, fieldNames, canonicalNames_fieldParts split read]
  simp only [Leftmost.filterMap_iff, Part.unlisted_eq, Part.brings_iff]
  constructor
  · exact fun ⟨field, ⟨part, leftmost, brought⟩, same⟩ => ⟨part, field, leftmost, brought, same⟩
  · exact fun ⟨part, field, leftmost, brought, same⟩ => ⟨field, ⟨part, leftmost, brought⟩, same⟩

theorem exists_sort_iff (split : tokens line = name :: parts)
    (read : parse line = .ok definition) (catalog : Catalog) :
    (∃ fields, catalog.sort definition.fieldNames = .ok fields) ↔
      ∀ part ∈ parts, ¬ Part.Unlisted catalog part := by
  simp only [Catalog.sort_eq_ok_iff, fieldNames, canonicalNames_fieldParts split read,
    exists_and_left, exists_eq, and_true, List.mem_filterMap, Part.unlisted_eq, not_exists,
    not_and, Decidable.not_not]
  exact ⟨fun listed part member field brought => listed field ⟨part, member, brought⟩,
    fun listed field ⟨part, member, brought⟩ => listed part member field brought⟩

end Definition

/-! ### The four verdicts -/

section Verdict

variable {catalog : Catalog} {rules : Rules} {line name : String} {parts : List String}

theorem outcome_eq_ok_none_iff :
    (assembleLine catalog rules line).outcome = .ok none ↔ Skipped (tokens line) := by
  refine ⟨fun none => ?_, outcome_of_skipped catalog rules⟩
  by_cases skipped : Skipped (tokens line)
  · exact skipped
  · rw [outcome_of_kept catalog rules skipped, map_eq_ok_iff] at none
    obtain ⟨record, _, impossible⟩ := none
    cases impossible

theorem outcome_eq_error_iff (kept : ¬ Skipped (tokens line)) {fault : Fault} :
    (assembleLine catalog rules line).outcome = .error fault ↔
      Definition.parse line = .error fault ∨ ∃ definition,
        Definition.parse line = .ok definition ∧
          definition.verdict catalog rules = .error fault := by
  rw [outcome_of_kept catalog rules kept, map_eq_error_iff, bind_eq_error_iff]

theorem outcome_eq_ok_some_iff (kept : ¬ Skipped (tokens line)) {record : Record} :
    (assembleLine catalog rules line).outcome = .ok (some record) ↔ ∃ definition,
      Definition.parse line = .ok definition ∧ definition.verdict catalog rules = .ok record := by
  simp only [outcome_of_kept catalog rules kept, map_eq_ok_iff, bind_eq_ok_iff, Option.some.injEq,
    exists_eq_right]

theorem outcome_eq_malformed_iff (kept : ¬ Skipped (tokens line))
    (split : tokens line = name :: parts) {part : String} {reason : FixedPartFault} :
    (assembleLine catalog rules line).outcome = .error (.malformed part reason) ↔
      Leftmost Part.Malformed part parts ∧ FixedPart.parse part = .error reason := by
  rw [outcome_eq_error_iff kept, Definition.parse_eq_error_iff split]
  constructor
  · rintro (⟨token, own, leftmost, failed, same⟩ | ⟨definition, read, failed⟩)
    · obtain ⟨rfl, rfl⟩ := Fault.malformed.inj same
      exact ⟨leftmost, failed⟩
    · rcases Definition.verdict_eq_error_iff.mp failed with unsorted | ⟨_, _, same⟩
      · obtain ⟨_, _, _, _, same⟩ :=
          (Definition.sort_eq_unknownField_iff split read catalog).mp unsorted
        cases same
      · cases same
  · exact fun ⟨leftmost, failed⟩ => .inl ⟨part, reason, leftmost, failed, rfl⟩

theorem outcome_eq_unknownField_iff (kept : ¬ Skipped (tokens line))
    (split : tokens line = name :: parts) {field : String} :
    (assembleLine catalog rules line).outcome = .error (.unknownField field) ↔
      (∀ part ∈ parts, ¬ Part.Malformed part) ∧
        ∃ part, Leftmost (Part.Unlisted catalog) part parts ∧ Part.Brings part field := by
  rw [outcome_eq_error_iff kept, ← Definition.exists_parse_iff split]
  constructor
  · rintro (failed | ⟨definition, read, failed⟩)
    · obtain ⟨_, _, _, _, same⟩ := (Definition.parse_eq_error_iff split).mp failed
      cases same
    · rcases Definition.verdict_eq_error_iff.mp failed with unsorted | ⟨_, _, same⟩
      · obtain ⟨part, _, leftmost, brings, same⟩ :=
          (Definition.sort_eq_unknownField_iff split read catalog).mp unsorted
        rw [← Fault.unknownField.inj same] at brings
        exact ⟨⟨definition, read⟩, part, leftmost, brings⟩
      · cases same
  · intro ⟨⟨definition, read⟩, part, leftmost, brings⟩
    exact .inr ⟨definition, read, Definition.verdict_eq_error_iff.mpr (.inl
      ((Definition.sort_eq_unknownField_iff split read catalog).mpr
        ⟨part, field, leftmost, brings, rfl⟩))⟩

theorem outcome_eq_openOpcode_iff (kept : ¬ Skipped (tokens line))
    (split : tokens line = name :: parts) {mask : Word} :
    (assembleLine catalog rules line).outcome = .error (.openOpcode mask) ↔
      (∀ part ∈ parts, ¬ Part.Malformed part) ∧ (∀ part ∈ parts, ¬ Part.Unlisted catalog part) ∧
        rules.closedOpcode = true ∧ (∃ index < 2, ¬ Part.Covered parts index) ∧
          ∀ index < 32, mask.getLsbD index = true ↔ Part.Covered parts index := by
  rw [outcome_eq_error_iff kept, ← Definition.exists_parse_iff split]
  constructor
  · rintro (failed | ⟨definition, read, failed⟩)
    · obtain ⟨_, _, _, _, same⟩ := (Definition.parse_eq_error_iff split).mp failed
      cases same
    · rcases Definition.verdict_eq_error_iff.mp failed with unsorted | ⟨sorted, leftOpen, same⟩
      · obtain ⟨_, _, _, _, same⟩ :=
          (Definition.sort_eq_unknownField_iff split read catalog).mp unsorted
        cases same
      · obtain ⟨closed, missing⟩ := (Definition.leavesOpen_iff_tokens split read).mp leftOpen
        rw [Fault.openOpcode.inj same]
        exact ⟨⟨definition, read⟩, (Definition.exists_sort_iff split read catalog).mp sorted,
          closed, missing, fun _ bound => Definition.getLsbD_mask_iff split read bound⟩
  · intro ⟨⟨definition, read⟩, listed, closed, missing, bits⟩
    have same : mask = definition.pattern.mask :=
      BitVec.eq_of_getLsbD_eq fun index bound => by
        rw [Bool.eq_iff_iff, bits index bound, Definition.getLsbD_mask_iff split read bound]
    refine .inr ⟨definition, read, Definition.verdict_eq_error_iff.mpr (.inr ⟨?_, ?_, ?_⟩)⟩
    · exact (Definition.exists_sort_iff split read catalog).mpr listed
    · exact (Definition.leavesOpen_iff_tokens split read).mpr ⟨closed, missing⟩
    · rw [same]

theorem exists_outcome_eq_ok_some_iff (kept : ¬ Skipped (tokens line))
    (split : tokens line = name :: parts) :
    (∃ record, (assembleLine catalog rules line).outcome = .ok (some record)) ↔
      (∀ part ∈ parts, ¬ Part.Malformed part) ∧ (∀ part ∈ parts, ¬ Part.Unlisted catalog part) ∧
        ¬ (rules.closedOpcode = true ∧ ∃ index < 2, ¬ Part.Covered parts index) := by
  simp only [outcome_eq_ok_some_iff kept, Definition.verdict_eq_ok_iff]
  rw [← Definition.exists_parse_iff split]
  constructor
  · intro ⟨_, definition, read, fields, sorted, closed, _⟩
    exact ⟨⟨definition, read⟩,
      (Definition.exists_sort_iff split read catalog).mp ⟨fields, sorted⟩,
      (not_congr (Definition.leavesOpen_iff_tokens split read)).mp closed⟩
  · intro ⟨⟨definition, read⟩, listed, closed⟩
    obtain ⟨fields, sorted⟩ := (Definition.exists_sort_iff split read catalog).mpr listed
    exact ⟨_, definition, read, fields, sorted,
      (not_congr (Definition.leavesOpen_iff_tokens split read)).mpr closed, rfl⟩

theorem name_of_outcome (kept : ¬ Skipped (tokens line)) (split : tokens line = name :: parts)
    {record : Record} (found : (assembleLine catalog rules line).outcome = .ok (some record)) :
    record.name = name := by
  obtain ⟨definition, read, found⟩ := (outcome_eq_ok_some_iff kept).mp found
  obtain ⟨fields, _, _, rfl⟩ := Definition.verdict_eq_ok_iff.mp found
  exact ((Definition.parse_eq_ok_iff split).mp read).1

end Verdict

/-- What comes of a line, told from its tokens alone. -/
theorem line_verdict (catalog : Catalog) (rules : Rules) (line : String) :
    let outcome := (assembleLine catalog rules line).outcome
    (outcome = .ok none ↔ Skipped (tokens line)) ∧
      ∀ name parts, tokens line = name :: parts → ¬ Skipped (tokens line) →
        ((∃ part reason, outcome = .error (.malformed part reason)) ↔
            ∃ part ∈ parts, Part.Malformed part) ∧
          (∀ part reason, outcome = .error (.malformed part reason) →
            Leftmost Part.Malformed part parts) ∧
          (∀ field, outcome = .error (.unknownField field) ↔
            (∀ part ∈ parts, ¬ Part.Malformed part) ∧
              ∃ part, Leftmost (Part.Unlisted catalog) part parts ∧ Part.Brings part field) ∧
          (∀ base, ¬ Part.Unlisted catalog (base ++ "lo")) ∧
          (∀ mask, outcome = .error (.openOpcode mask) ↔
            (∀ part ∈ parts, ¬ Part.Malformed part) ∧
              (∀ part ∈ parts, ¬ Part.Unlisted catalog part) ∧
              rules.closedOpcode = true ∧ (∃ index < 2, ¬ Part.Covered parts index) ∧
              ∀ index < 32, mask.getLsbD index = true ↔ Part.Covered parts index) ∧
          ((∃ record, outcome = .ok (some record)) ↔
            (∀ part ∈ parts, ¬ Part.Malformed part) ∧
              (∀ part ∈ parts, ¬ Part.Unlisted catalog part) ∧
              ¬ (rules.closedOpcode = true ∧ ∃ index < 2, ¬ Part.Covered parts index)) ∧
          ∀ record, outcome = .ok (some record) → record.name = name := by
  refine ⟨outcome_eq_ok_none_iff, fun name parts split kept => ⟨?_, ?_, ?_, ?_, ?_, ?_, ?_⟩⟩
  · simp only [outcome_eq_malformed_iff kept split, ← Leftmost.exists_iff]
    refine exists_congr fun part => ⟨fun ⟨_, leftmost, _⟩ => leftmost, fun leftmost => ?_⟩
    obtain ⟨_, failed⟩ := Part.exists_parse_error_iff.mpr leftmost.holds
    obtain ⟨_, reason, failed, _⟩ := Part.parse_eq_error_iff.mp failed
    exact ⟨reason, leftmost, failed⟩
  · exact fun part reason failed => ((outcome_eq_malformed_iff kept split).mp failed).1
  · exact fun field => outcome_eq_unknownField_iff kept split
  · exact fun base => Part.not_unlisted_low catalog base
  · exact fun mask => outcome_eq_openOpcode_iff kept split
  · exact exists_outcome_eq_ok_some_iff kept split
  · exact fun record => name_of_outcome kept split

end OpcodeTable
