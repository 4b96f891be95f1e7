/-
This file is about the width of the records that a table emits. In a table of mixed widths every
record fixes the two lowest bits, and its width says to what, so a word that matches it has the
same two bits: the width of a record can be told from any word that matches, and no word matches
records of both widths.

The width is read off these two bits alone. Nothing keeps the parts of a 16-bit record below bit
16, and the numerals of its line, which are filled up to four digits and never cut, have more
digits just when some part reaches higher.
-/

import OpcodeTable.Output.Layout
import OpcodeTable.Proofs.Meaning
import OpcodeTable.Proofs.Stream
import OpcodeTable.Proofs.Verdict

namespace OpcodeTable

/-! ### The definition of an emitted record -/

/-- An emitted record is that of a definition that stands in the text. -/
theorem Emits.definition {catalog : Catalog} {rules : Rules} {text : String} {record : Record}
    (emitted : Emits catalog rules text record) :
    ∃ line ∈ Text.lines text, ∃ definition, Definition.parse line = .ok definition ∧
      definition.verdict catalog rules = .ok record := by
  obtain ⟨line, member, read⟩ := emitted.line
  by_cases skipped : Skipped (tokens line)
  · rw [outcome_of_skipped catalog rules skipped] at read
    cases read
  · exact ⟨line, member, (outcome_eq_ok_some_iff skipped).mp read⟩

/-! ### The two lowest bits -/

theorem WidthRule.bits_byOpcode_iff (value : Word) :
    (WidthRule.byOpcode.width value).bits = 32 ↔ value &&& opcodeBits = opcodeBits := by
  unfold WidthRule.width
  by_cases long : value &&& opcodeBits = opcodeBits
  · rw [if_pos long]
    exact iff_of_true rfl long
  · rw [if_neg long]
    exact iff_of_false (by decide) long

/-- A record of a table of mixed widths fixes the two lowest bits, and its width says whether
both are set. -/
theorem Definition.opcode_of_verdict {catalog : Catalog} {definition : Definition}
    {record : Record} (found : definition.verdict catalog .mixed = .ok record) :
    record.mask &&& opcodeBits = opcodeBits ∧
      (record.width.bits = 32 ↔ record.value &&& opcodeBits = opcodeBits) := by
  obtain ⟨fields, _, closed, rfl⟩ := verdict_eq_ok_iff.mp found
  exact ⟨Decidable.of_not_not fun leftOpen => closed ⟨rfl, leftOpen⟩,
    WidthRule.bits_byOpcode_iff _⟩

/-- A word that matches a pattern has the bits of its value wherever the mask is set. -/
theorem Pattern.Matches.and_eq {pattern : Pattern} {word : Word} (matching : pattern.Matches word)
    {bits : Word} (fixed : pattern.mask &&& bits = bits) : word &&& bits = pattern.value &&& bits :=
  calc
    word &&& bits = word &&& (pattern.mask &&& bits) := by rw [fixed]
    _ = word &&& pattern.mask &&& bits := (BitVec.and_assoc _ _ _).symm
    _ = pattern.value &&& bits := congrArg (· &&& bits) matching

/-- A word that matches a record of a table of mixed widths has its two lowest bits set just when
the record has 32 bits, so it matches no record of the other width, in whatever table. -/
theorem width_of_match {catalog : Catalog} {text : String} {record : Record}
    (emitted : Emits catalog .mixed text record) :
    (∀ word, record.Matches word →
        (record.width.bits = 32 ↔ word &&& opcodeBits = opcodeBits)) ∧
      ∀ otherCatalog otherText other, Emits otherCatalog .mixed otherText other →
        record.width.bits = 32 → other.width.bits = 16 →
        ∀ word, ¬ (record.Matches word ∧ other.Matches word) := by
  have told {catalog : Catalog} {text : String} {record : Record}
      (emitted : Emits catalog .mixed text record) (word : Word)
      (matching : record.Matches word) :
      record.width.bits = 32 ↔ word &&& opcodeBits = opcodeBits := by
    obtain ⟨_, _, _, _, found⟩ := emitted.definition
    obtain ⟨fixed, width⟩ := Definition.opcode_of_verdict found
    rw [matching.and_eq fixed, width]
  refine ⟨told emitted, fun _ _ other otherEmitted long short word ⟨one, two⟩ => ?_⟩
  have alsoLong := (told otherEmitted word two).mpr ((told emitted word one).mp long)
  rw [short] at alsoLong
  cases alsoLong

/-- A table with a load of either width. -/
def loads : String := "lw rd rs1 imm12 14..12=2 6..2=0 1..0=3\nc.lwsp rd_n0 1..0=2 15..13=2\n"

/-- The record of the first line. -/
def longLoad : Record := ⟨⟨0x707f, 0x2003⟩, "lw", ["rd", "rs1", "imm12"], .wide⟩

/-- The record of the second line. -/
def shortLoad : Record := ⟨⟨0xe003, 0x4002⟩, "c.lwsp", ["rd_n0"], .compact⟩

theorem emits_loads : Emits .riscv .mixed loads longLoad ∧ Emits .riscv .mixed loads shortLoad := by
  have answers : ((Cursor.start "" loads).answers .riscv .mixed 2).map (·.outcome) =
    [.ok (some longLoad), .ok (some shortLoad)] := rfl
  exact ⟨⟨"", 2, answers ▸ List.mem_cons_self⟩,
    ⟨"", 2, answers ▸ List.mem_cons_of_mem _ List.mem_cons_self⟩⟩

theorem width_of_match_loads :
    Emits .riscv .mixed loads longLoad ∧ Emits .riscv .mixed loads shortLoad ∧
      ∀ word, ¬ (longLoad.Matches word ∧ shortLoad.Matches word) := by
  have ⟨long, short⟩ := emits_loads
  exact ⟨long, short, (width_of_match long).2 .riscv loads shortLoad short rfl rfl⟩

/-! ### The extent of the bits -/

namespace FixedPart

variable {parts : List FixedPart} {bits : Nat}

/-- The mask is a number of so many bits when all parts stay below that bit. -/
theorem gathered_mask_lt_iff (low : ∀ part ∈ parts, part.range.hi ≤ 31) (bound : bits < 32) :
    (gathered parts).mask.toNat < 2 ^ bits ↔ ∀ part ∈ parts, part.range.hi < bits := by
  rw [BitVec.toNat_lt_iff_getLsbD_eq_false bits bound]
  constructor
  · intro clear part member
    refine Nat.lt_of_not_le fun high => ?_
    have inside : part.range.hi < 32 := Nat.lt_succ_of_le (low part member)
    have covered : Covered parts part.range.hi :=
      ⟨part, member, part.range.lo_le_hi, Nat.le_refl _⟩
    have raised := (gathered_bits parts inside).1.mpr covered
    have cleared := clear (part.range.hi - bits)
    rw [Nat.add_sub_cancel' high, raised] at cleared
    cases cleared
  · intro below place
    rw [← Bool.not_eq_true]
    intro raised
    obtain ⟨part, member, covers⟩ :=
      (gathered_bits parts (BitVec.lt_of_getLsbD raised)).1.mp raised
    have upper := below part member
    have reaches := covers.2
    omega

/-- The value is no wider than the mask. -/
theorem gathered_value_lt (bound : bits < 32)
    (narrow : (gathered parts).mask.toNat < 2 ^ bits) :
    (gathered parts).value.toNat < 2 ^ bits := by
  rw [BitVec.toNat_lt_iff_getLsbD_eq_false bits bound] at narrow ⊢
  intro place
  rw [← Bool.not_eq_true]
  intro raised
  have ⟨mask, value⟩ := gathered_bits parts (BitVec.lt_of_getLsbD raised)
  have fixed := mask.mpr (covered_of_raised (value.mp raised))
  rw [narrow place] at fixed
  cases fixed

end FixedPart

theorem Definition.hi_le_of_parse {line : String} {definition : Definition}
    (read : parse line = .ok definition) :
    ∀ part ∈ definition.fixedParts, part.range.hi ≤ 31 := by
  intro part member
  cases split : tokens line with
  | nil =>
    rw [parse, split] at read
    rw [← Except.ok.inj read] at member
    cases member
  | cons name rest =>
    obtain ⟨token, _, spelt⟩ := (mem_fixedParts_iff split read).mp member
    exact spelt.hi_le

/-! ### The digits of a line -/

/-- A padded numeral has just the digits it was filled up to when the number needs no more. -/
theorem Text.length_paddedHex_eq_iff {digits n : Nat} (some : 0 < digits) :
    (paddedHex digits n).length = digits ↔ n < 16 ^ digits := by
  unfold paddedHex hex
  rw [List.length_leftpad, ← Nat.length_toDigits_le_iff (by decide) some]
  omega

theorem Width.four_mul_hexDigits (width : Width) : 4 * width.hexDigits = width.bits := by
  cases width <;> rfl

/-- The digits with which the line of a record shows its mask or value. -/
def Record.digits (record : Record) (word : Word) : List Char :=
  Text.paddedHex record.width.hexDigits word.toNat

/-- The digits are as many as the width asks for when the word is a number of that width. -/
theorem Record.length_digits_iff (record : Record) (word : Word) :
    (record.digits word).length = record.width.hexDigits ↔
      word.toNat < 2 ^ record.width.bits := by
  have digits : 0 < record.width.hexDigits := by cases record.width <;> decide
  rw [Record.digits, Text.length_paddedHex_eq_iff digits, ← record.width.four_mul_hexDigits,
    Nat.pow_mul]

/-- How the line of an emitted record shows its mask and its value. Those of a 32-bit record have
eight digits each. Those of a 16-bit record are numbers below `2 ^ 16`, shown with four digits
each, just when no fixed part of its definition reaches bit 16. -/
theorem digits_of_emitted {catalog : Catalog} {rules : Rules} {text : String} {record : Record}
    (emitted : Emits catalog rules text record) :
    record.sourceLine =
        "Encoding \x7b name: ".toList ++ Text.QuoteStyle.source.quote record.name.toList
          ++ ", mask: ".toList ++ '0' :: 'x' :: record.digits record.mask
          ++ ", value: ".toList ++ '0' :: 'x' :: record.digits record.value
          ++ ", fields: &[".toList ++ Text.QuoteStyle.source.quoteAll [',', ' '] record.fields
          ++ "] \x7d,".toList ∧
      (record.width.bits = 32 →
        (record.digits record.mask).length = 8 ∧ (record.digits record.value).length = 8) ∧
      (record.width.bits = 16 → ∃ line ∈ Text.lines text, ∃ definition,
        Definition.parse line = .ok definition ∧
          (definition.assemble catalog rules).outcome = .ok record ∧
          ((record.mask.toNat < 2 ^ 16 ∧ record.value.toNat < 2 ^ 16 ∧
              (record.digits record.mask).length = 4 ∧ (record.digits record.value).length = 4) ↔
            ∀ part ∈ definition.fixedParts, part.range.hi < 16)) := by
  have lengths := record.length_digits_iff
  have digits := record.width.four_mul_hexDigits
  refine ⟨rfl, fun long => ?_, fun short => ?_⟩
  · have wide : record.width.hexDigits = 8 := by omega
    rw [wide, long] at lengths
    exact ⟨(lengths _).mpr record.mask.isLt, (lengths _).mpr record.value.isLt⟩
  · have compact : record.width.hexDigits = 4 := by omega
    rw [compact, short] at lengths
    obtain ⟨line, member, definition, read, found⟩ := emitted.definition
    have assembled : (definition.assemble catalog rules).outcome = .ok record := by
      rw [Definition.assemble_eq]
      exact found
    refine ⟨line, member, definition, read, assembled, ?_⟩
    have gatheredParts := Definition.toPattern_of_assemble assembled
    have narrow := FixedPart.gathered_mask_lt_iff (Definition.hi_le_of_parse read)
      (show 16 < 32 by decide)
    rw [lengths, lengths, gatheredParts, narrow]
    constructor
    · exact fun ⟨below, _⟩ => below
    · intro below
      have value := FixedPart.gathered_value_lt (by decide) (narrow.mpr below)
      exact ⟨below, value, below, value⟩

/-- The numerals of both loads have the digits that their widths ask for. -/
theorem digits_of_emitted_loads :
    Emits .riscv .mixed loads longLoad ∧ Emits .riscv .mixed loads shortLoad ∧
      (longLoad.digits longLoad.mask).length = 8 ∧
      (longLoad.digits longLoad.value).length = 8 ∧
      ∃ line ∈ Text.lines loads, ∃ definition, Definition.parse line = .ok definition ∧
        (definition.assemble .riscv .mixed).outcome = .ok shortLoad ∧
        ((shortLoad.mask.toNat < 2 ^ 16 ∧ shortLoad.value.toNat < 2 ^ 16 ∧
            (shortLoad.digits shortLoad.mask).length = 4 ∧
            (shortLoad.digits shortLoad.value).length = 4) ↔
          ∀ part ∈ definition.fixedParts, part.range.hi < 16) := by
  have ⟨long, short⟩ := emits_loads
  have ⟨_, eight, _⟩ := digits_of_emitted long
  have ⟨_, _, four⟩ := digits_of_emitted short
  exact ⟨long, short, (eight rfl).1, (eight rfl).2, four rfl⟩

/-- A 16-bit record with a part that fixes bit 16: neither its mask nor its value is a 16-bit
number, and its line shows them with five digits. -/
theorem compact_beyond_bit_16 :
    ∃ record, Emits .riscv .mixed "c.x 1..0=1 16=1\n" record ∧ record.width.bits = 16 ∧
      ¬ record.mask.toNat < 2 ^ 16 ∧ ¬ record.value.toNat < 2 ^ 16 ∧
      (record.digits record.mask).length = 5 ∧ (record.digits record.value).length = 5 := by
  have answers : ((Cursor.start "" "c.x 1..0=1 16=1\n").answers .riscv .mixed 1).map (·.outcome) =
    [.ok (some ⟨⟨0x10003, 0x10001⟩, "c.x", [], .compact⟩)] := rfl
  exact ⟨⟨⟨0x10003, 0x10001⟩, "c.x", [], .compact⟩, ⟨"", 1, answers ▸ List.mem_cons_self⟩, rfl,
    by decide, by decide, rfl, rfl⟩

end OpcodeTable
