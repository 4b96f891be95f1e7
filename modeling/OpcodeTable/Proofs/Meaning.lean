/-
This file says what a record means for an instruction word. The mask is where some part of the
definition covers a bit and the value is where some part raises one, so the value never leaves
the mask, and a word matches when every covered bit is what the parts that cover it give to it
together.

As long as no two parts contradict each other this is the conjunction of the parts: the words
that match are those in which every part stands at its bits. Parts that contradict each other
are satisfied by no word, while the record still matches its own value. The two readings
therefore agree exactly when the parts do.
-/

import OpcodeTable.Proofs.Outcome

namespace OpcodeTable

namespace FixedPart

/-! ### The words that match the gathered parts -/

theorem covered_of_raised {parts : List FixedPart} {index : Nat} (raised : Raised parts index) :
    Covered parts index :=
  let ⟨part, member, covers, _⟩ := raised
  ⟨part, member, covers⟩

/-- The value lies inside the mask. -/
theorem gathered_value_and_not_mask (parts : List FixedPart) :
    (gathered parts).value &&& ~~~(gathered parts).mask = 0 := by
  refine BitVec.eq_of_getLsbD_eq fun index bound => ?_
  have ⟨mask, value⟩ := gathered_bits parts bound
  have inside := fun raised => mask.mpr (covered_of_raised (value.mp raised))
  simp only [BitVec.getLsbD_and, BitVec.getLsbD_not, bound, decide_true, Bool.true_and,
    BitVec.ofNat_eq_ofNat, BitVec.getLsbD_zero]
  cases raised : (gathered parts).value.getLsbD index with
  | false => rfl
  | true => rw [inside raised]; rfl

/-- A word matches when every covered bit is one if some part raises it and zero if none
does. -/
theorem gathered_matches_iff (parts : List FixedPart) (word : Word) :
    (gathered parts).Matches word ↔ ∀ index < 32, Covered parts index →
      (word.getLsbD index = true ↔ Raised parts index) := by
  constructor
  · intro matching index bound covered
    have ⟨mask, value⟩ := gathered_bits parts bound
    have bit : (word &&& (gathered parts).mask).getLsbD index =
      (gathered parts).value.getLsbD index := congrArg (BitVec.getLsbD · index) matching
    rw [BitVec.getLsbD_and, mask.mpr covered, Bool.and_true] at bit
    rw [bit, value]
  · intro bits
    refine BitVec.eq_of_getLsbD_eq fun index bound => ?_
    have ⟨mask, value⟩ := gathered_bits parts bound
    rw [BitVec.getLsbD_and, Bool.eq_iff_iff, Bool.and_eq_true, mask, value]
    constructor
    · exact fun ⟨raised, covered⟩ => (bits index bound covered).mp raised
    · intro raised
      have covered := covered_of_raised raised
      exact ⟨(bits index bound covered).mpr raised, covered⟩

theorem gathered_matches_value (parts : List FixedPart) :
    (gathered parts).Matches (gathered parts).value :=
  (gathered_matches_iff parts _).mpr fun _ bound _ => (gathered_bits parts bound).2

/-! ### Parts that contradict each other -/

/-- Parts that all hold in one word give no bit two values. -/
theorem agree_of_holds {parts : List FixedPart} {word : Word}
    (holds : ∀ part ∈ parts, part.Holds word) : Agree parts := by
  intro first firstMember second secondMember index firstCovers secondCovers
  rw [← (first.holds_iff word).mp (holds first firstMember) index firstCovers,
    ← (second.holds_iff word).mp (holds second secondMember) index secondCovers]

/-- Where the parts agree, a bit that one of them covers is raised when that part raises it. -/
theorem raised_iff_bitAt {parts : List FixedPart} (agree : Agree parts) {part : FixedPart}
    (member : part ∈ parts) {index : Nat} (covers : part.range.Covers index) :
    Raised parts index ↔ part.bitAt index = true := by
  constructor
  · intro ⟨other, otherMember, otherCovers, raised⟩
    rwa [agree part member other otherMember index covers otherCovers]
  · exact fun raised => ⟨part, member, covers, raised⟩

theorem gathered_matches_iff_holds {parts : List FixedPart}
    (low : ∀ part ∈ parts, part.range.hi ≤ 31) (agree : Agree parts) (word : Word) :
    (gathered parts).Matches word ↔ ∀ part ∈ parts, part.Holds word := by
  rw [gathered_matches_iff]
  constructor
  · intro bits part member
    refine (part.holds_iff word).mpr fun index covers => ?_
    have bound : index < 32 := by
      have := low part member
      have := covers.2
      omega
    rw [Bool.eq_iff_iff, bits index bound ⟨part, member, covers⟩,
      raised_iff_bitAt agree member covers]
  · intro holds index _ ⟨part, member, covers⟩
    rw [(part.holds_iff word).mp (holds part member) index covers,
      raised_iff_bitAt agree member covers]

/-- The words that match are those in which all parts hold, just when no two parts give a bit
different values. -/
theorem matches_iff_holds_iff_agree {parts : List FixedPart}
    (low : ∀ part ∈ parts, part.range.hi ≤ 31) :
    (∀ word, (gathered parts).Matches word ↔ ∀ part ∈ parts, part.Holds word) ↔
      Agree parts :=
  ⟨fun same => agree_of_holds ((same _).mp (gathered_matches_value parts)),
    gathered_matches_iff_holds low⟩

end FixedPart

/-! ### Records -/

theorem Definition.toPattern_of_assemble {catalog : Catalog} {rules : Rules}
    {definition : Definition} {record : Record}
    (assembled : (definition.assemble catalog rules).outcome = .ok record) :
    record.toPattern = FixedPart.gathered definition.fixedParts := by
  obtain ⟨fields, _, _, rfl⟩ := assemble_eq_ok_iff.mp assembled
  rfl

open FixedPart in
/-- The mask and the value of a record bit by bit, and the words that match it. The ranges of
the definition may reach above the word; only the comparison with the parts as a conjunction
asks for ranges inside it. -/
theorem record_bits_and_words {catalog : Catalog} {rules : Rules} {definition : Definition}
    {record : Record} (assembled : (definition.assemble catalog rules).outcome = .ok record) :
    (∀ index < 32, record.mask.getLsbD index = true ↔
        ∃ part ∈ definition.fixedParts, part.range.Covers index) ∧
      (∀ index < 32, record.value.getLsbD index = true ↔
        ∃ part ∈ definition.fixedParts, part.range.Covers index ∧
          part.literal.getLsbD (index - part.range.lo) = true) ∧
      record.value &&& ~~~record.mask = 0 ∧
      (∀ word, record.Matches word ↔
        ∀ index < 32, (∃ part ∈ definition.fixedParts, part.range.Covers index) →
          (word.getLsbD index = true ↔
            ∃ part ∈ definition.fixedParts, part.range.Covers index ∧
              part.literal.getLsbD (index - part.range.lo) = true)) ∧
      record.Matches record.value ∧
      ((∀ part ∈ definition.fixedParts, part.range.hi ≤ 31) →
        ((∀ word, record.Matches word ↔ ∀ part ∈ definition.fixedParts, part.Holds word) ↔
          Agree definition.fixedParts)) ∧
      (¬ Agree definition.fixedParts →
        ∀ word, ¬ ∀ part ∈ definition.fixedParts, part.Holds word) := by
  have gatheredParts := Definition.toPattern_of_assemble assembled
  rw [gatheredParts]
  refine ⟨fun index bound => (gathered_bits _ bound).1,
    fun index bound => (gathered_bits _ bound).2, gathered_value_and_not_mask _,
    gathered_matches_iff _, gathered_matches_value _, matches_iff_holds_iff_agree,
    fun conflict word holds => conflict (agree_of_holds holds)⟩

/-- A definition that raises bit 0 and clears it, with a literal wider than its range. -/
def contested : Definition :=
  ⟨"x", [.fixed ⟨.span 6 2 (by decide), 0x1ff⟩, .field ⟨"rd", .whole⟩,
    .fixed ⟨.span 1 0 (by decide), 3⟩, .fixed ⟨.bit 0, 0⟩]⟩

theorem record_bits_and_words_contested :
    (contested.assemble .riscv .mixed).outcome =
        .ok ⟨⟨0x7f, 0x7f⟩, "x", ["rd"], .wide⟩ ∧
      (⟨0x7f, 0x7f⟩ : Pattern).Matches 0x7f ∧
      ∀ word, ¬ ∀ part ∈ contested.fixedParts, part.Holds word := by
  have assembled : (contested.assemble .riscv .mixed).outcome =
    .ok ⟨⟨0x7f, 0x7f⟩, "x", ["rd"], .wide⟩ := rfl
  have ⟨_, _, _, _, ownValue, _, conflict⟩ := record_bits_and_words assembled
  refine ⟨assembled, ownValue, conflict fun agree => ?_⟩
  have bit := agree ⟨.span 1 0 (by decide), 3⟩ (by decide) ⟨.bit 0, 0⟩ (by decide) 0
    (by decide) (by decide)
  revert bit
  decide

end OpcodeTable
