/-
This file separates what comes of a definition from what is reported on the way. Gathering the
bits and merging the fields cannot fail, so the first two steps of assembling only add warnings;
the outcome is a function of the gathered pattern, the names of the fields and the rules, and
the record is reported last, when there is one. After these equations nothing has to look into
the sequence of steps again.
-/

import OpcodeTable.Proofs.Coverage
import OpcodeTable.Proofs.Sequence
import OpcodeTable.Proofs.Tokens

namespace OpcodeTable

variable {ε : Type}

/-! ### The steps that only warn -/

namespace FixedPart

/-- The parts whose literal has bits that the range has no room for. -/
def oversized (parts : List FixedPart) : List FixedPart :=
  parts.filter fun part => part.kept ≠ part.literal

theorem oversized_cons (part : FixedPart) (rest : List FixedPart) :
    oversized (part :: rest) =
      if part.kept ≠ part.literal then part :: oversized rest else oversized rest := by
  rw [oversized, List.filter_cons]
  simp only [decide_eq_true_eq]
  rfl

theorem compile_eq (part : FixedPart) :
    (part.compile : Traced ε Pattern) =
      ⟨if part.kept ≠ part.literal then [.clipped part] else [], .ok part.pattern⟩ := by
  unfold compile
  by_cases clipped : part.kept ≠ part.literal
  · rw [if_pos clipped, if_pos clipped]
    rfl
  · rw [if_neg clipped, if_neg clipped]
    rfl

theorem compileAll_eq (parts : List FixedPart) :
    (compileAll parts : Traced ε Pattern) =
      ⟨(oversized parts).map .clipped, .ok (gathered parts)⟩ := by
  have general (pattern : Pattern) :
      (parts.foldlM (fun pattern part => do return pattern ∪ (← part.compile)) pattern :
          Traced ε Pattern) =
        ⟨(oversized parts).map .clipped,
          .ok (parts.foldl (fun pattern part => pattern ∪ part.pattern) pattern)⟩ := by
    induction parts generalizing pattern with
    | nil => rfl
    | cons part rest inductionHypothesis =>
      rw [List.foldlM_cons, compile_eq, Traced.mk_ok_bind_pure, Traced.mk_ok_bind,
        inductionHypothesis, oversized_cons, List.foldl_cons]
      by_cases clipped : part.kept ≠ part.literal
      · rw [if_pos clipped, if_pos clipped]
        rfl
      · rw [if_neg clipped, if_neg clipped]
        rfl
  exact general .free

end FixedPart

theorem FieldPart.merge_eq (parts : List FieldPart) :
    (merge parts : Traced ε (List String)) =
      ⟨(orphans parts).map fun part => .orphaned part.base, .ok (canonicalNames parts)⟩ :=
  congrArg (Traced.mk · _) (List.append_nil _)

theorem and_opcodeBits_eq_iff (word : Word) :
    word &&& opcodeBits = opcodeBits ↔ ∀ index < 2, word.getLsbD index = true := by
  have bits (index : Nat) (bound : index < 32) :
      opcodeBits.getLsbD index = decide (index < 2) := by
    have power : opcodeBits = BitVec.ofNat 32 (2 ^ 2 - 1) := rfl
    rw [power, BitVec.getLsbD_ofNat, Nat.testBit_two_pow_sub_one, decide_eq_true bound,
      Bool.true_and]
  constructor
  · intro same index low
    have bit : (word &&& opcodeBits).getLsbD index = opcodeBits.getLsbD index :=
      congrArg (BitVec.getLsbD · index) same
    rwa [BitVec.getLsbD_and, bits index (by omega), decide_eq_true low, Bool.and_true] at bit
  · intro closed
    refine BitVec.eq_of_getLsbD_eq fun index bound => ?_
    rw [BitVec.getLsbD_and, bits index bound]
    by_cases low : index < 2
    · rw [closed index low, Bool.true_and]
    · rw [decide_eq_false low, Bool.and_false]

/-! ### The outcome of a definition -/

namespace Definition

/-- The bits of all fixed parts. -/
def pattern (definition : Definition) : Pattern := FixedPart.gathered definition.fixedParts

/-- The names that the field parts bring to the record, in the order of the line. -/
def fieldNames (definition : Definition) : List String :=
  FieldPart.canonicalNames definition.fieldParts

/-- What is reported once the parts are read, whatever comes of the definition. -/
def warnings (definition : Definition) : List Event :=
  (FixedPart.oversized definition.fixedParts).map .clipped ++
    (FieldPart.orphans definition.fieldParts).map fun part => .orphaned part.base

/-- Whether the rules ask for the two lowest bits and the fixed parts leave one of them out. -/
def LeavesOpen (rules : Rules) (definition : Definition) : Prop :=
  rules.closedOpcode = true ∧ definition.pattern.mask &&& opcodeBits ≠ opcodeBits

instance (rules : Rules) (definition : Definition) : Decidable (definition.LeavesOpen rules) :=
  inferInstanceAs (Decidable (_ ∧ _))

/-- The record that a definition has if its fields, in the order of the catalog, are the given
ones. -/
def record (rules : Rules) (definition : Definition) (fields : List String) : Record :=
  ⟨definition.pattern, definition.name, fields, rules.widthRule.width definition.pattern.value⟩

/-- What comes of a definition. -/
def verdict (catalog : Catalog) (rules : Rules) (definition : Definition) :
    Except Fault Record :=
  (catalog.sort definition.fieldNames).bind fun fields =>
    if definition.LeavesOpen rules then .error (.openOpcode definition.pattern.mask)
    else .ok (definition.record rules fields)

/-- The events of a definition, by what comes of it. -/
def told (definition : Definition) : Except Fault Record → List Event
  | .error _ => definition.warnings
  | .ok record => definition.warnings ++ [.assembled record]

variable (catalog : Catalog) (rules : Rules) (definition : Definition)

theorem assemble_eq :
    definition.assemble catalog rules =
      ⟨definition.told (definition.verdict catalog rules), definition.verdict catalog rules⟩ := by
  unfold assemble
  rw [FixedPart.compileAll_eq, Traced.mk_ok_bind, FieldPart.merge_eq, Traced.mk_ok_bind]
  dsimp only
  rw [← List.append_assoc]
  change Traced.mk (definition.warnings ++ _) _ = _
  unfold verdict fieldNames
  cases catalog.sort (FieldPart.canonicalNames definition.fieldParts) with
  | error fault => exact congrArg (Traced.mk · _) (List.append_nil _)
  | ok fields =>
    rw [Traced.ofExcept_ok_bind, Except.bind]
    by_cases leftOpen : definition.LeavesOpen rules
    · rw [if_pos leftOpen]
      unfold LeavesOpen pattern at leftOpen
      rw [if_pos leftOpen]
      exact congrArg (Traced.mk · _) (List.append_nil _)
    · rw [if_neg leftOpen]
      unfold LeavesOpen pattern at leftOpen
      rw [if_neg leftOpen]
      rfl

variable {catalog rules definition}

/-- The two lowest bits of the mask are set when some part covers the one and some part the
other. -/
theorem leavesOpen_iff :
    definition.LeavesOpen rules ↔ rules.closedOpcode = true ∧
      ∃ index < 2, ¬ FixedPart.Covered definition.fixedParts index := by
  refine and_congr_right fun _ => ?_
  rw [ne_eq, and_opcodeBits_eq_iff, pattern]
  simp only [Classical.not_forall, exists_prop]
  refine exists_congr fun index => and_congr_right fun low => not_congr ?_
  exact (FixedPart.gathered_bits definition.fixedParts (by omega)).1

theorem verdict_eq_ok_iff {record : Record} :
    definition.verdict catalog rules = .ok record ↔
      ∃ fields, catalog.sort definition.fieldNames = .ok fields ∧
        ¬ definition.LeavesOpen rules ∧ record = definition.record rules fields := by
  rw [verdict, bind_eq_ok_iff]
  refine exists_congr fun fields => and_congr_right fun _ => ?_
  by_cases leftOpen : definition.LeavesOpen rules
  · rw [if_pos leftOpen]
    exact iff_of_false (fun impossible => nomatch impossible) fun ⟨closed, _⟩ => closed leftOpen
  · rw [if_neg leftOpen]
    exact ⟨fun same => ⟨leftOpen, (Except.ok.inj same).symm⟩, fun ⟨_, same⟩ => same ▸ rfl⟩

/-- The fields decide first and the opcode second. -/
theorem verdict_eq_error_iff {fault : Fault} :
    definition.verdict catalog rules = .error fault ↔
      catalog.sort definition.fieldNames = .error fault ∨
        (∃ fields, catalog.sort definition.fieldNames = .ok fields) ∧
          definition.LeavesOpen rules ∧ fault = .openOpcode definition.pattern.mask := by
  rw [verdict, bind_eq_error_iff, ← exists_and_right]
  refine or_congr Iff.rfl (exists_congr fun fields => and_congr_right fun _ => ?_)
  by_cases leftOpen : definition.LeavesOpen rules
  · rw [if_pos leftOpen]
    exact ⟨fun same => ⟨leftOpen, (Except.error.inj same).symm⟩, fun ⟨_, same⟩ => same ▸ rfl⟩
  · rw [if_neg leftOpen]
    exact iff_of_false (fun impossible => nomatch impossible) fun ⟨closed, _⟩ => leftOpen closed

/-- A definition has a record when the catalog lists its fields and its opcode is not left open. -/
theorem assemble_eq_ok_iff {record : Record} :
    (definition.assemble catalog rules).outcome = .ok record ↔
      ∃ fields, catalog.sort definition.fieldNames = .ok fields ∧
        ¬ definition.LeavesOpen rules ∧ record = definition.record rules fields := by
  rw [assemble_eq]
  exact verdict_eq_ok_iff

end Definition

/-! ### The outcome of a line -/

section Line

variable (catalog : Catalog) (rules : Rules) {line : String}

theorem assembleLine_of_skipped (skipped : LineKind.ofLine line ≠ .definition) :
    assembleLine catalog rules line = ⟨[.classified (LineKind.ofLine line) line], .ok none⟩ := by
  unfold assembleLine
  cases kind : LineKind.ofLine line with
  | definition => exact absurd kind skipped
  | comment => rfl
  | directive => rfl
  | blank => rfl

theorem assembleLine_of_unread (kind : LineKind.ofLine line = .definition) {fault : Fault}
    (unread : Definition.parse line = .error fault) :
    assembleLine catalog rules line = ⟨[.classified .definition line], .error fault⟩ := by
  unfold assembleLine
  rw [kind, unread]
  rfl

theorem assembleLine_of_read (kind : LineKind.ofLine line = .definition)
    {definition : Definition} (read : Definition.parse line = .ok definition) :
    assembleLine catalog rules line =
      ⟨.classified .definition line :: definition.told (definition.verdict catalog rules),
        (definition.verdict catalog rules).map some⟩ := by
  unfold assembleLine
  rw [kind, read]
  dsimp only
  rw [Traced.ofExcept_ok_bind, definition.assemble_eq]
  cases definition.verdict catalog rules with
  | error fault => rfl
  | ok record => exact congrArg (Traced.mk · _) (congrArg _ (List.append_nil _))

/-- What comes of a line that is not skipped is what comes of its definition. -/
theorem outcome_of_kept (kept : ¬ Skipped (tokens line)) :
    (assembleLine catalog rules line).outcome =
      ((Definition.parse line).bind (·.verdict catalog rules)).map some := by
  have kind := LineKind.ofLine_eq_definition_iff.mpr kept
  cases read : Definition.parse line with
  | error fault =>
    rw [assembleLine_of_unread catalog rules kind read]
    rfl
  | ok definition =>
    rw [assembleLine_of_read catalog rules kind read]
    rfl

theorem outcome_of_skipped (skipped : Skipped (tokens line)) :
    (assembleLine catalog rules line).outcome = .ok none := by
  rw [assembleLine_of_skipped]
  exact fun kind => LineKind.ofLine_eq_definition_iff.mp kind skipped

end Line

end OpcodeTable
