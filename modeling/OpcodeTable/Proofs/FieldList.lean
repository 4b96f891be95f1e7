/-
This file says which fields a record lists. A field part that names no half brings its own
name, the high half of a pair brings the name of the pair, and a low half brings nothing, so
each name stands in the list as often as parts bring it. The catalog settles the order: the
ranks never fall along the list, and no other list has these names as often in this order.

For the definition of a line the parts can be counted among the tokens. A name is listed as
often as it is written, unless it begins with a digit: such a token is a fixed part or no part
at all, so the name is never listed.
-/

import OpcodeTable.Proofs.FieldOrder
import OpcodeTable.Proofs.Outcome
import OpcodeTable.Proofs.Reading

namespace OpcodeTable

open Text

/-! ### The names of the parts -/

theorem FieldPart.count_canonicalNames (parts : List FieldPart) (name : String) :
    (canonicalNames parts).count name =
      parts.countP (fun part => part.half = .whole ∧ part.base = name) +
        parts.countP (fun part => part.half = .high ∧ part.base ++ "hilo" = name) := by
  unfold canonicalNames
  induction parts with
  | nil => rfl
  | cons part rest inductionHypothesis =>
    obtain ⟨base, half⟩ := part
    rw [List.filterMap_cons]
    cases half with
    | whole =>
      simp [canonical?, List.count_cons, List.countP_cons, inductionHypothesis, Nat.add_right_comm]
    | high =>
      simp [canonical?, List.count_cons, List.countP_cons, inductionHypothesis, Nat.add_assoc]
    | low => simp [canonical?, inductionHypothesis]

/-! ### The names of the tokens -/

namespace Part

theorem brings_iff_of_whole {token name : String} (free : startsFixed name = false)
    (noHigh : ∀ base, name ≠ base ++ "hi") (noLow : ∀ base, name ≠ base ++ "lo") :
    Brings token name ↔ token = name := by
  constructor
  · intro brings
    cases brings with
    | whole _ _ _ => rfl
    | @pair base _ =>
      refine absurd ?_ (noLow (base ++ "hi"))
      rw [String.append_assoc]
      rfl
  · rintro rfl
    exact .whole free noHigh noLow

theorem brings_pair_iff {token base : String} :
    Brings token (base ++ "hilo") ↔ startsFixed token = false ∧ token = base ++ "hi" := by
  constructor
  · intro brings
    generalize whole : base ++ "hilo" = name at brings
    cases brings with
    | whole _ _ noLow =>
      refine absurd ?_ (noLow (base ++ "hi"))
      rw [String.append_assoc, ← whole]
      rfl
    | @pair other free =>
      have same : other = base := String.append_left_inj _ |>.mp whole.symm
      subst same
      exact ⟨free, rfl⟩
  · rintro ⟨free, rfl⟩
    exact .pair free

/-- Nothing is brought but plain names and names of pairs. -/
theorem not_brings {token name : String} (noPair : ∀ base, name ≠ base ++ "hilo")
    (marked : startsFixed name = true ∨ (∃ base, name = base ++ "hi") ∨
      ∃ base, name = base ++ "lo") : ¬ Brings token name := by
  intro brings
  cases brings with
  | whole free noHigh noLow =>
    rcases marked with fixed | ⟨base, same⟩ | ⟨base, same⟩
    · rw [free] at fixed
      cases fixed
    · exact noHigh base same
    · exact noLow base same
  | @pair base _ => exact noPair base rfl

/-- A token with a character that no fixed part is written with is malformed if it begins with a
digit. -/
theorem malformed_of_mem {token : String} {c : Char} (starts : startsFixed token = true)
    (member : c ∈ token.toList) (noDigit : hexDigitValue? c = none)
    (noMark : c ∉ ['0', 'x', 'X', 'b', 'B', 'o', 'O', '_', '.', '=']) : Malformed token := by
  refine ⟨starts, fun ⟨part, spelt⟩ => ?_⟩
  simp only [List.mem_cons, List.not_mem_nil, or_false, not_or] at noMark
  have noDecimal : digitValue? 10 c = none := by
    rw [digitValue?, noDigit]
    rfl
  generalize token.toList = text at spelt member
  cases spelt with
  | intro speltRange speltLiteral =>
    rcases List.mem_append.mp member with front | inLiteral
    · rcases List.mem_append.mp front with inRange | equals
      · exact speltRange.not_mem noDecimal (by simp [noMark]) inRange
      · exact absurd (List.mem_singleton.mp equals) (by simp [noMark])
    · exact speltLiteral.not_mem noDigit (by simp [noMark]) (by simp [noMark]) inLiteral

theorem malformed_high {base : String} (starts : startsFixed (base ++ "hi") = true) :
    Malformed (base ++ "hi") := by
  have letter : 'i' ∈ (base ++ "hi").toList := by simp
  exact malformed_of_mem starts letter (by decide) (by decide)

theorem malformed_low {base : String} (starts : startsFixed (base ++ "lo") = true) :
    Malformed (base ++ "lo") := by
  have letter : 'l' ∈ (base ++ "lo").toList := by simp
  exact malformed_of_mem starts letter (by decide) (by decide)

end Part

/-! ### The fields of a record -/

section

variable {catalog : Catalog} {rules : Rules} {definition : Definition} {record : Record}

/-- A record lists the names of its definition, each of which is in the catalog, in the order
of the catalog. -/
theorem Definition.fields_of_assemble
    (assembled : (definition.assemble catalog rules).outcome = .ok record) :
    (∀ name ∈ definition.fieldNames, name ∈ catalog) ∧
      record.fields = catalog.arrange definition.fieldNames := by
  obtain ⟨fields, sorted, _, rfl⟩ := assemble_eq_ok_iff.mp assembled
  exact Catalog.sort_eq_ok_iff.mp sorted

theorem Definition.count_fields
    (assembled : (definition.assemble catalog rules).outcome = .ok record) (name : String) :
    record.fields.count name = definition.fieldNames.count name := by
  obtain ⟨listed, same⟩ := fields_of_assemble assembled
  rw [same, (Catalog.arrange_perm_self listed).count_eq]

/-- The fields are counted among the tokens of the line that was read. -/
theorem Definition.count_fields_tokens {line : String}
    (assembled : (definition.assemble catalog rules).outcome = .ok record)
    (read : parse line = .ok definition) (name : String) :
    record.fields.count name =
      (tokens line).tail.countP fun token => Part.name? token = some name := by
  rw [count_fields assembled, fieldNames]
  cases split : tokens line with
  | nil =>
    rw [parse, split] at read
    rw [← Except.ok.inj read]
    rfl
  | cons first rest =>
    rw [canonicalNames_fieldParts split read, List.count_filterMap]
    exact List.countP_congr fun token _ => by rw [beq_iff_eq, decide_eq_true_eq]

theorem Definition.not_malformed_of_parse {line token : String}
    (read : parse line = .ok definition) (member : token ∈ (tokens line).tail) :
    ¬ Part.Malformed token := by
  cases split : tokens line with
  | nil =>
    rw [split] at member
    cases member
  | cons first rest =>
    rw [split] at member
    exact (exists_parse_iff split).mp ⟨definition, read⟩ token member

end

/-- The fields of a record: how often each name stands among them, counted in the parts of the
definition and in the tokens of its line, and that the catalog leaves no choice of their
order. -/
theorem fields_of_record {catalog : Catalog} {rules : Rules} {definition : Definition}
    {record : Record} (assembled : (definition.assemble catalog rules).outcome = .ok record) :
    (∀ name, record.fields.count name =
        definition.fieldParts.countP (fun part => part.half = .whole ∧ part.base = name) +
          definition.fieldParts.countP
            (fun part => part.half = .high ∧ part.base ++ "hilo" = name)) ∧
      (∀ name ∈ record.fields, name ∈ catalog) ∧
      catalog.Ranked record.fields ∧
      (∀ fields : List String, (∀ name, fields.count name = record.fields.count name) →
        catalog.Ranked fields → fields = record.fields) ∧
      ∀ line, Definition.parse line = .ok definition →
        (∀ name, (∀ base, name ≠ base ++ "hi") → (∀ base, name ≠ base ++ "lo") →
          Part.startsFixed name = false →
          record.fields.count name = (tokens line).tail.count name) ∧
        (∀ base, record.fields.count (base ++ "hilo") =
          (tokens line).tail.count (base ++ "hi")) ∧
        ∀ name, (∀ base, name ≠ base ++ "hilo") →
          (Part.startsFixed name = true ∨ (∃ base, name = base ++ "hi") ∨
            ∃ base, name = base ++ "lo") → record.fields.count name = 0 := by
  have ⟨listed, same⟩ := Definition.fields_of_assemble assembled
  have inCatalog : ∀ name ∈ record.fields, name ∈ catalog := by
    intro name member
    refine listed name (List.count_pos_iff.mp ?_)
    rw [← Definition.count_fields assembled]
    exact List.count_pos_iff.mpr member
  have ranked : catalog.Ranked record.fields := same ▸ Catalog.arrange_ranked _ _
  refine ⟨fun name => ?_, inCatalog, ranked, fun fields counts order => ?_,
    fun line read => ⟨fun name noHigh noLow free => ?_, fun base => ?_,
      fun name noPair marked => ?_⟩⟩
  · rw [Definition.count_fields assembled]
    exact FieldPart.count_canonicalNames _ name
  · exact (Catalog.eq_of_ranked inCatalog (fun name => (counts name).symm) ranked order).symm
  · rw [Definition.count_fields_tokens assembled read]
    refine List.countP_congr fun token _ => ?_
    rw [decide_eq_true_eq, beq_iff_eq, ← Part.brings_iff,
      Part.brings_iff_of_whole free noHigh noLow]
  · rw [Definition.count_fields_tokens assembled read]
    refine List.countP_congr fun token member => ?_
    rw [decide_eq_true_eq, beq_iff_eq, ← Part.brings_iff, Part.brings_pair_iff]
    refine ⟨fun brings => brings.2, ?_⟩
    rintro rfl
    refine ⟨?_, rfl⟩
    rw [← Bool.not_eq_true]
    exact fun starts => Definition.not_malformed_of_parse read member (Part.malformed_high starts)
  · rw [Definition.count_fields_tokens assembled read, List.countP_eq_zero]
    intro token _
    rw [decide_eq_true_eq, ← Part.brings_iff]
    exact Part.not_brings noPair marked

/-- A branch with a pair written low half first and one field written twice. -/
def branch : Definition :=
  ⟨"b", [.field ⟨"rs1", .whole⟩, .field ⟨"bimm12", .low⟩, .field ⟨"rs1", .whole⟩,
    .field ⟨"bimm12", .high⟩, .fixed ⟨.span 6 0 (by decide), 0x63⟩]⟩

theorem fields_of_record_branch :
    (branch.assemble .riscv .mixed).outcome =
        .ok ⟨⟨0x7f, 0x63⟩, "b", ["rs1", "rs1", "bimm12hilo"], .wide⟩ ∧
      Definition.parse "b rs1 bimm12lo rs1 bimm12hi 6..0=0x63" = .ok branch ∧
      ["rs1", "rs1", "bimm12hilo"].count "bimm12hilo" =
        (tokens "b rs1 bimm12lo rs1 bimm12hi 6..0=0x63").tail.count "bimm12hi" ∧
      Catalog.riscv.Ranked ["rs1", "rs1", "bimm12hilo"] := by
  have assembled : (branch.assemble .riscv .mixed).outcome =
    .ok ⟨⟨0x7f, 0x63⟩, "b", ["rs1", "rs1", "bimm12hilo"], .wide⟩ := rfl
  have read : Definition.parse "b rs1 bimm12lo rs1 bimm12hi 6..0=0x63" = .ok branch := rfl
  have ⟨_, _, ranked, _, written⟩ := fields_of_record assembled
  exact ⟨assembled, read, (written _ read).2.1 "bimm12", ranked⟩

/-- A name that begins with a digit is not listed as often as it is written: the token is a
fixed part. -/
theorem fixed_token_not_listed :
    ∃ (catalog : Catalog) (definition : Definition) (record : Record),
      Definition.parse "x 1..0=3" = .ok definition ∧
      (definition.assemble catalog .mixed).outcome = .ok record ∧
      ¬ ∀ name, (∀ base, name ≠ base ++ "hi") → (∀ base, name ≠ base ++ "lo") →
        record.fields.count name = (tokens "x 1..0=3").tail.count name := by
  refine ⟨⟨["1..0=3"], by decide⟩, ⟨"x", [.fixed ⟨.span 1 0 (by decide), 3⟩]⟩,
    ⟨⟨3, 3⟩, "x", [], .wide⟩, rfl, rfl, fun counted => ?_⟩
  have ending (base last : String) (same : "1..0=3" = base ++ last) :
      last.toList <:+ ['1', '.', '.', '0', '=', '3'] :=
    ⟨base.toList, (String.toList_append.symm.trans (congrArg String.toList same).symm)⟩
  have counts := counted "1..0=3" (fun base same => absurd (ending base "hi" same) (by decide))
    fun base same => absurd (ending base "lo" same) (by decide)
  revert counts
  decide

end OpcodeTable
