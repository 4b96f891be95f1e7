/-
This file says that the parts of a definition may stand in any order. Gathering the bits asks
only which fixed parts there are and the catalog puts the fields into an order of its own, so two
lines with the same name and the same parts have the same record. Where parts are faulty the
order still settles which of them is reported, but not what kind of fault the line has: each
kind is about all the parts together, and so is the mask of an opcode that is left open. The
warnings come in another order and stay the same otherwise.

A fixed part may also be repeated, since its bits are gathered only once.
-/

import Mathlib.Data.List.Perm.Basic
import OpcodeTable.Proofs.FieldOrder
import OpcodeTable.Proofs.Outcome
import OpcodeTable.Proofs.Reading

namespace OpcodeTable

/-! ### Outcomes of one kind -/

/-- Either nothing is wrong and the results are the same, or what is wrong is of one kind. An
open opcode is reported with the same mask, while the other two kinds of fault may name different
parts. -/
inductive Alike {α : Type} : Except Fault α → Except Fault α → Prop
  | ok (result : α) : Alike (.ok result) (.ok result)
  | malformed (part other : String) (reason otherReason : FixedPartFault) :
      Alike (.error (.malformed part reason)) (.error (.malformed other otherReason))
  | unknownField (name other : String) :
      Alike (.error (.unknownField name)) (.error (.unknownField other))
  | openOpcode (mask : Word) : Alike (.error (.openOpcode mask)) (.error (.openOpcode mask))

theorem Alike.map {α β : Type} {first second : Except Fault α} (alike : Alike first second)
    (change : α → β) : Alike (first.map change) (second.map change) := by
  cases alike with
  | ok result => exact .ok (change result)
  | malformed part other reason otherReason => exact .malformed part other reason otherReason
  | unknownField name other => exact .unknownField name other
  | openOpcode mask => exact .openOpcode mask

/-! ### Definitions with the same parts -/

theorem FieldPart.orphans_perm {parts others : List FieldPart} (same : parts.Perm others) :
    (orphans parts).Perm (orphans others) := by
  unfold orphans
  simp only [same.mem_iff]
  exact same.filter _

namespace Definition

/-- The definitions have the same name, the same fixed parts, each at least once, and fields of
the same names, each equally often. -/
structure SameParts (first second : Definition) : Prop where
  name : first.name = second.name
  fixedParts : ∀ part, part ∈ first.fixedParts ↔ part ∈ second.fixedParts
  fieldNames : first.fieldNames.Perm second.fieldNames

variable {first second : Definition} {catalog : Catalog} {rules : Rules}

theorem SameParts.pattern (same : first.SameParts second) : first.pattern = second.pattern :=
  FixedPart.gathered_congr same.fixedParts

theorem SameParts.leavesOpen_iff (same : first.SameParts second) :
    first.LeavesOpen rules ↔ second.LeavesOpen rules := by
  unfold LeavesOpen
  rw [same.pattern]

theorem SameParts.record (same : first.SameParts second) (fields : List String) :
    first.record rules fields = second.record rules fields := by
  unfold Definition.record
  rw [same.pattern, same.name]

theorem SameParts.verdict (same : first.SameParts second) :
    Alike (first.verdict catalog rules) (second.verdict catalog rules) := by
  unfold Definition.verdict
  rcases catalog.sort_of_perm same.fieldNames with
    ⟨fields, firstSorted, secondSorted⟩ | ⟨name, other, firstRefused, secondRefused⟩
  · rw [firstSorted, secondSorted, Except.bind, Except.bind]
    by_cases leftOpen : first.LeavesOpen rules
    · rw [if_pos leftOpen, if_pos (same.leavesOpen_iff.mp leftOpen), same.pattern]
      exact .openOpcode _
    · rw [if_neg leftOpen, if_neg (mt same.leavesOpen_iff.mpr leftOpen), same.record]
      exact .ok _
  · rw [firstRefused, secondRefused]
    exact .unknownField name other

/-- The warnings are about single parts and about which parts there are besides. -/
theorem warnings_perm (same : first.parts.Perm second.parts) :
    first.warnings.Perm second.warnings := by
  have fixedParts : first.fixedParts.Perm second.fixedParts := same.filterMap _
  have fieldParts : first.fieldParts.Perm second.fieldParts := same.filterMap _
  exact ((fixedParts.filter _).map _).append ((FieldPart.orphans_perm fieldParts).map _)

end Definition

/-! ### Lines with the same tokens -/

section Lines

variable {first second name : String} {parts others repeated : List String}

/-- A token that has to be a fixed part brings no field. -/
theorem Part.name?_of_startsFixed {token : String} (starts : startsFixed token = true) :
    name? token = none := by
  rw [name?, if_pos starts]

/-- Lines whose tokens are the same but for repeated fixed parts are read as definitions with the
same parts. -/
theorem Definition.sameParts_of_tokens (firstTokens : tokens first = name :: parts)
    (secondTokens : tokens second = name :: others)
    (again : ∀ token ∈ repeated, token ∈ parts ∧ Part.startsFixed token = true)
    (same : others.Perm (parts ++ repeated)) {one other : Definition}
    (firstRead : parse first = .ok one) (secondRead : parse second = .ok other) :
    one.SameParts other where
  name := by
    rw [((parse_eq_ok_iff firstTokens).mp firstRead).1,
      ((parse_eq_ok_iff secondTokens).mp secondRead).1]
  fixedParts part := by
    rw [mem_fixedParts_iff firstTokens firstRead, mem_fixedParts_iff secondTokens secondRead]
    simp only [same.mem_iff, List.mem_append]
    constructor
    · exact fun ⟨token, member, spelt⟩ => ⟨token, .inl member, spelt⟩
    · rintro ⟨token, member | member, spelt⟩
      · exact ⟨token, member, spelt⟩
      · exact ⟨token, (again token member).1, spelt⟩
  fieldNames := by
    have silent : repeated.filterMap Part.name? = [] :=
      List.filterMap_eq_nil_iff.mpr fun token member =>
        Part.name?_of_startsFixed (again token member).2
    have brought := same.filterMap Part.name?
    rw [List.filterMap_append, silent, List.append_nil] at brought
    unfold fieldNames
    rw [canonicalNames_fieldParts firstTokens firstRead,
      canonicalNames_fieldParts secondTokens secondRead]
    exact brought.symm

/-- Such lines are both read, or each has a malformed part. -/
theorem Definition.parse_alike (firstTokens : tokens first = name :: parts)
    (secondTokens : tokens second = name :: others)
    (again : ∀ token ∈ repeated, token ∈ parts ∧ Part.startsFixed token = true)
    (same : others.Perm (parts ++ repeated)) :
    (∃ one other, parse first = .ok one ∧ parse second = .ok other) ∨
      ∃ part other reason otherReason, parse first = .error (.malformed part reason) ∧
        parse second = .error (.malformed other otherReason) := by
  have members (token : String) : token ∈ others ↔ token ∈ parts := by
    rw [same.mem_iff, List.mem_append]
    exact or_iff_left_of_imp fun member => (again token member).1
  have readAlike : (∃ definition, parse first = .ok definition) ↔
      ∃ definition, parse second = .ok definition := by
    rw [exists_parse_iff firstTokens, exists_parse_iff secondTokens]
    simp only [members]
  cases firstRead : parse first with
  | ok one =>
    obtain ⟨other, secondRead⟩ := readAlike.mp ⟨one, firstRead⟩
    exact .inl ⟨one, other, rfl, secondRead⟩
  | error fault =>
    cases secondRead : parse second with
    | ok other =>
      obtain ⟨_, read⟩ := readAlike.mpr ⟨other, secondRead⟩
      cases firstRead.symm.trans read
    | error otherFault =>
      obtain ⟨_, _, _, _, rfl⟩ := (parse_eq_error_iff firstTokens).mp firstRead
      obtain ⟨_, _, _, _, rfl⟩ := (parse_eq_error_iff secondTokens).mp secondRead
      exact .inr ⟨_, _, _, _, rfl, rfl⟩

theorem skipped_iff_of_name (firstTokens : tokens first = name :: parts)
    (secondTokens : tokens second = name :: others) :
    Skipped (tokens first) ↔ Skipped (tokens second) := by
  rw [firstTokens, secondTokens, skipped_cons_iff, skipped_cons_iff]

/-- Whatever comes of such lines, it is of one kind. -/
theorem outcome_alike (catalog : Catalog) (rules : Rules)
    (firstTokens : tokens first = name :: parts) (secondTokens : tokens second = name :: others)
    (again : ∀ token ∈ repeated, token ∈ parts ∧ Part.startsFixed token = true)
    (same : others.Perm (parts ++ repeated)) :
    Alike (assembleLine catalog rules first).outcome
      (assembleLine catalog rules second).outcome := by
  have skippedAlike := skipped_iff_of_name firstTokens secondTokens
  by_cases skipped : Skipped (tokens first)
  · rw [outcome_of_skipped catalog rules skipped,
      outcome_of_skipped catalog rules (skippedAlike.mp skipped)]
    exact .ok none
  · rw [outcome_of_kept catalog rules skipped,
      outcome_of_kept catalog rules (mt skippedAlike.mpr skipped)]
    refine Alike.map ?_ some
    rcases Definition.parse_alike firstTokens secondTokens again same with
      ⟨one, other, firstRead, secondRead⟩ | ⟨part, other, reason, otherReason, refused, alsoRefused⟩
    · rw [firstRead, secondRead]
      exact (Definition.sameParts_of_tokens firstTokens secondTokens again same firstRead
        secondRead).verdict
    · rw [refused, alsoRefused]
      exact .malformed part other reason otherReason

end Lines

/-! ### The warnings of a line -/

/-- What is reported of a line as a warning. -/
def lineWarnings (catalog : Catalog) (rules : Rules) (line : String) : List Event :=
  (assembleLine catalog rules line).events.filter (·.level = .warn)

section Warnings

variable (catalog : Catalog) (rules : Rules) {line : String}

theorem Definition.filter_warnings (definition : Definition) :
    definition.warnings.filter (·.level = .warn) = definition.warnings := by
  refine List.filter_eq_self.mpr fun event member => ?_
  rcases List.mem_append.mp member with clipped | orphaned
  · obtain ⟨part, _, rfl⟩ := List.mem_map.mp clipped
    rfl
  · obtain ⟨part, _, rfl⟩ := List.mem_map.mp orphaned
    rfl

theorem lineWarnings_of_skipped (skipped : Skipped (tokens line)) :
    lineWarnings catalog rules line = [] := by
  rw [lineWarnings, assembleLine_of_skipped catalog rules
    fun kind => LineKind.ofLine_eq_definition_iff.mp kind skipped]
  rfl

/-- A line with a malformed part warns of nothing, and any other definition of all that there is
to warn of, whatever comes of it. -/
theorem lineWarnings_of_kept (kept : ¬ Skipped (tokens line)) :
    lineWarnings catalog rules line =
      match Definition.parse line with
      | .error _ => []
      | .ok definition => definition.warnings := by
  have kind := LineKind.ofLine_eq_definition_iff.mpr kept
  unfold lineWarnings
  cases read : Definition.parse line with
  | error fault =>
    rw [assembleLine_of_unread catalog rules kind read]
    rfl
  | ok definition =>
    rw [assembleLine_of_read catalog rules kind read, List.filter_cons_of_neg Bool.false_ne_true]
    cases definition.verdict catalog rules with
    | error fault => exact definition.filter_warnings
    | ok record =>
      rw [Definition.told, List.filter_append, definition.filter_warnings]
      exact List.append_nil _

theorem lineWarnings_perm {first second name : String} {parts others : List String}
    (firstTokens : tokens first = name :: parts) (secondTokens : tokens second = name :: others)
    (same : parts.Perm others) :
    (lineWarnings catalog rules first).Perm (lineWarnings catalog rules second) := by
  have skippedAlike := skipped_iff_of_name firstTokens secondTokens
  by_cases skipped : Skipped (tokens first)
  · rw [lineWarnings_of_skipped catalog rules skipped,
      lineWarnings_of_skipped catalog rules (skippedAlike.mp skipped)]
  · rw [lineWarnings_of_kept catalog rules skipped,
      lineWarnings_of_kept catalog rules (mt skippedAlike.mpr skipped)]
    have unrepeated : others.Perm (parts ++ []) := (List.append_nil parts).symm ▸ same.symm
    rcases Definition.parse_alike firstTokens secondTokens (List.forall_mem_nil _) unrepeated with
      ⟨one, other, firstRead, secondRead⟩ | ⟨_, _, _, _, refused, alsoRefused⟩
    · rw [firstRead, secondRead]
      refine Definition.warnings_perm ?_
      have read := same.map Part.parse
      rw [((Definition.parse_eq_ok_iff firstTokens).mp firstRead).2,
        ((Definition.parse_eq_ok_iff secondTokens).mp secondRead).2] at read
      exact (List.map_perm_map_iff fun _ _ => Except.ok.inj).mp read
    · rw [refused, alsoRefused]

end Warnings

/-- Two lines with one name. If their parts are the same in another order, what comes of them is
of one kind and they warn of the same. If the second line also repeats fixed parts of the first,
wherever they stand in it, what comes of them is still of one kind. -/
theorem parts_in_any_order (catalog : Catalog) (rules : Rules) {first second name : String}
    {parts others : List String} (firstTokens : tokens first = name :: parts)
    (secondTokens : tokens second = name :: others) :
    (parts.Perm others →
        Alike (assembleLine catalog rules first).outcome
            (assembleLine catalog rules second).outcome ∧
          ((assembleLine catalog rules first).events.filter (·.level = .warn)).Perm
            ((assembleLine catalog rules second).events.filter (·.level = .warn))) ∧
      ∀ repeated : List String,
        (∀ token ∈ repeated, token ∈ parts ∧ Part.startsFixed token = true) →
        others.Perm (parts ++ repeated) →
        Alike (assembleLine catalog rules first).outcome
          (assembleLine catalog rules second).outcome := by
  refine ⟨fun same => ⟨?_, lineWarnings_perm catalog rules firstTokens secondTokens same⟩,
    fun repeated again same =>
      outcome_alike catalog rules firstTokens secondTokens again same⟩
  have unrepeated : others.Perm (parts ++ []) := (List.append_nil parts).symm ▸ same.symm
  exact outcome_alike catalog rules firstTokens secondTokens (List.forall_mem_nil _) unrepeated

/-- A line that warns of two clipped literals and an orphan, the line turned around, and the line
with both fixed parts repeated in front. -/
theorem parts_in_any_order_branch :
    (assembleLine .riscv .mixed "b rs1 bimm12lo 6..0=0x1e3 9=4").outcome =
        .ok (some ⟨⟨0x27f, 0x63⟩, "b", ["rs1"], .wide⟩) ∧
      Alike (assembleLine .riscv .mixed "b rs1 bimm12lo 6..0=0x1e3 9=4").outcome
        (assembleLine .riscv .mixed "b 9=4 6..0=0x1e3 bimm12lo rs1").outcome ∧
      ((assembleLine .riscv .mixed "b rs1 bimm12lo 6..0=0x1e3 9=4").events.filter
          (·.level = .warn)).Perm
        ((assembleLine .riscv .mixed "b 9=4 6..0=0x1e3 bimm12lo rs1").events.filter
          (·.level = .warn)) ∧
      Alike (assembleLine .riscv .mixed "b rs1 bimm12lo 6..0=0x1e3 9=4").outcome
        (assembleLine .riscv .mixed
          "b 9=4 6..0=0x1e3 rs1 bimm12lo 6..0=0x1e3 9=4").outcome := by
  have line : tokens "b rs1 bimm12lo 6..0=0x1e3 9=4" =
      "b" :: ["rs1", "bimm12lo", "6..0=0x1e3", "9=4"] := rfl
  have turned : tokens "b 9=4 6..0=0x1e3 bimm12lo rs1" =
      "b" :: ["9=4", "6..0=0x1e3", "bimm12lo", "rs1"] := rfl
  have doubled : tokens "b 9=4 6..0=0x1e3 rs1 bimm12lo 6..0=0x1e3 9=4" =
      "b" :: (["9=4", "6..0=0x1e3"] ++ ["rs1", "bimm12lo", "6..0=0x1e3", "9=4"]) := rfl
  have order := (parts_in_any_order .riscv .mixed line turned).1
    (List.reverse_perm ["rs1", "bimm12lo", "6..0=0x1e3", "9=4"]).symm
  have repetition := (parts_in_any_order .riscv .mixed line doubled).2
    ["9=4", "6..0=0x1e3"] (by decide) List.perm_append_comm
  exact ⟨rfl, order.1, order.2, repetition⟩

end OpcodeTable
