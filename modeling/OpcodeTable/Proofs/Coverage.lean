/-
This file reads the bits of fixed parts. A part is spoken of bit by bit: the range says which
bits it covers, and the literal, counted from the low end of the range, says what it fixes them
to. The pattern that the 64-bit arithmetic makes of a part has exactly these bits, with none of
them lost above bit 31 of the word and no bit of an oversized literal beside the range.

Parts are gathered by union, so a bit of the mask is set when some part covers it and a bit of
the value when some part raises it. Two parts that disagree about a bit are not told apart from
one part that raises it, and the value of the union is then none that both parts ask for.
-/

import Mathlib.Algebra.Group.Nat.Defs
import OpcodeTable.Assembly

namespace OpcodeTable

/-! ### What a part says about a bit -/

namespace FixedPart

/-- What the part fixes a bit of its range to. -/
def bitAt (part : FixedPart) (index : Nat) : Bool :=
  part.literal.getLsbD (index - part.range.lo)

/-- Whether the part fixes a bit to one. -/
def Raises (part : FixedPart) (index : Nat) : Prop :=
  part.range.Covers index ∧ part.bitAt index = true

/-- Whether the bits of the range, read as a number, are the literal as far as it fits. -/
def Holds (part : FixedPart) (word : Word) : Prop :=
  (word.extractLsb part.range.hi part.range.lo).toNat = part.literal.toNat % 2 ^ part.range.width

instance (part : FixedPart) (word : Word) : Decidable (part.Holds word) :=
  inferInstanceAs (Decidable (_ = _))

/-- Whether some part covers a bit. -/
def Covered (parts : List FixedPart) (index : Nat) : Prop :=
  ∃ part ∈ parts, part.range.Covers index

/-- Whether some part fixes a bit to one. -/
def Raised (parts : List FixedPart) (index : Nat) : Prop :=
  ∃ part ∈ parts, part.Raises index

/-- Whether no two parts fix a bit to different values. -/
def Agree (parts : List FixedPart) : Prop :=
  ∀ first ∈ parts, ∀ second ∈ parts, ∀ index, first.range.Covers index →
    second.range.Covers index → first.bitAt index = second.bitAt index

/-- The pattern of all parts together. -/
def gathered (parts : List FixedPart) : Pattern :=
  parts.foldl (fun pattern part => pattern ∪ part.pattern) .free

theorem holds_iff (part : FixedPart) (word : Word) :
    part.Holds word ↔
      ∀ index, part.range.Covers index → word.getLsbD index = part.bitAt index := by
  have bits : part.Holds word ↔ ∀ place < part.range.width,
      word.getLsbD (part.range.lo + place) = part.literal.getLsbD place := by
    have left (place : Nat) :
        (word.extractLsb part.range.hi part.range.lo).toNat.testBit place =
          (decide (place < part.range.width) && word.getLsbD (part.range.lo + place)) := by
      rw [BitVec.testBit_toNat, BitVec.getLsbD_extractLsb]
      rfl
    have right (place : Nat) :
        (part.literal.toNat % 2 ^ part.range.width).testBit place =
          (decide (place < part.range.width) && part.literal.getLsbD place) := by
      rw [Nat.testBit_mod_two_pow, BitVec.testBit_toNat]
    constructor
    · intro holds place inside
      have same := congrArg (Nat.testBit · place) holds
      simpa only [left, right, inside, decide_true, Bool.true_and] using same
    · intro same
      refine Nat.eq_of_testBit_eq fun place => ?_
      rw [left, right]
      by_cases inside : place < part.range.width
      · rw [same place inside]
      · simp only [inside, decide_false, Bool.false_and]
  have ordered := part.range.lo_le_hi
  refine bits.trans ⟨fun same index covers => ?_, fun same place inside => ?_⟩
  · have place := same (index - part.range.lo) (by unfold BitRange.width; have := covers.2; omega)
    rwa [Nat.add_sub_cancel' covers.1] at place
  · have covers : part.range.Covers (part.range.lo + place) := by
      unfold BitRange.width at inside
      exact ⟨by omega, by omega⟩
    rw [same _ covers, bitAt, Nat.add_sub_cancel_left]

/-! ### The bits of one pattern -/

theorem ones_eq (part : FixedPart) : part.ones = BitVec.ofNat 64 (2 ^ part.range.width - 1) := by
  have power : 1#64 <<< part.range.width = BitVec.ofNat 64 (2 ^ part.range.width) := by
    rw [← BitVec.twoPow_eq]
    exact BitVec.eq_of_toNat_eq (by rw [BitVec.toNat_twoPow, BitVec.toNat_ofNat])
  rw [ones, power]
  exact BitVec.ofNat_sub_ofNat_of_le _ 1 (by decide) Nat.one_le_two_pow

theorem getLsbD_ones (part : FixedPart) (place : Nat) :
    part.ones.getLsbD place = (decide (place < 64) && decide (place < part.range.width)) := by
  rw [ones_eq, BitVec.getLsbD_ofNat, Nat.testBit_two_pow_sub_one]

/-- A bit below 32 is moved up to its place without loss. -/
theorem getLsbD_moved (part : FixedPart) (bits : BitVec 64) {index : Nat} (bound : index < 32) :
    ((bits <<< part.range.lo).setWidth 32).getLsbD index =
      (decide (part.range.lo ≤ index) && bits.getLsbD (index - part.range.lo)) := by
  rw [BitVec.getLsbD_setWidth, BitVec.getLsbD_shiftLeft]
  simp only [bound, show index < 64 by omega, decide_true, Bool.true_and, ← Nat.not_lt,
    decide_not]

theorem getLsbD_mask (part : FixedPart) {index : Nat} (bound : index < 32) :
    part.pattern.mask.getLsbD index = true ↔ part.range.Covers index := by
  have ordered := part.range.lo_le_hi
  show ((part.ones <<< part.range.lo).setWidth 32).getLsbD index = true ↔ _
  rw [getLsbD_moved part _ bound, getLsbD_ones]
  simp only [Bool.and_eq_true, decide_eq_true_eq]
  unfold BitRange.Covers BitRange.width
  omega

theorem getLsbD_value (part : FixedPart) {index : Nat} (bound : index < 32) :
    part.pattern.value.getLsbD index = true ↔ part.Raises index := by
  have mask := part.getLsbD_mask bound
  change ((part.ones <<< part.range.lo).setWidth 32).getLsbD index = true ↔ _ at mask
  rw [getLsbD_moved part _ bound, Bool.and_eq_true] at mask
  show ((part.kept <<< part.range.lo).setWidth 32).getLsbD index = true ↔ _
  rw [getLsbD_moved part _ bound, kept, BitVec.getLsbD_and, Raises, ← mask, bitAt]
  simp only [Bool.and_eq_true]
  exact ⟨fun ⟨above, raised, inside⟩ => ⟨⟨above, inside⟩, raised⟩,
    fun ⟨⟨above, inside⟩, raised⟩ => ⟨above, raised, inside⟩⟩

/-! ### The bits of a union -/

theorem covered_cons (part : FixedPart) (rest : List FixedPart) (index : Nat) :
    Covered (part :: rest) index ↔ part.range.Covers index ∨ Covered rest index := by
  simp only [Covered, List.mem_cons, exists_eq_or_imp]

theorem raised_cons (part : FixedPart) (rest : List FixedPart) (index : Nat) :
    Raised (part :: rest) index ↔ part.Raises index ∨ Raised rest index := by
  simp only [Raised, List.mem_cons, exists_eq_or_imp]

theorem gathered_bits (parts : List FixedPart) {index : Nat} (bound : index < 32) :
    ((gathered parts).mask.getLsbD index = true ↔ Covered parts index) ∧
      ((gathered parts).value.getLsbD index = true ↔ Raised parts index) := by
  -- The parts that are still to come add their bits to those of any pattern before them.
  have general (pattern : Pattern) :
      let sum := parts.foldl (fun pattern part => pattern ∪ part.pattern) pattern
      (sum.mask.getLsbD index = true ↔
          pattern.mask.getLsbD index = true ∨ Covered parts index) ∧
        (sum.value.getLsbD index = true ↔
          pattern.value.getLsbD index = true ∨ Raised parts index) := by
    induction parts generalizing pattern with
    | nil => simp [Covered, Raised]
    | cons part rest inductionHypothesis =>
      have ⟨mask, value⟩ := inductionHypothesis (pattern ∪ part.pattern)
      have unionMask : (pattern ∪ part.pattern).mask = pattern.mask ||| part.pattern.mask := rfl
      have unionValue : (pattern ∪ part.pattern).value = pattern.value ||| part.pattern.value :=
        rfl
      rw [unionMask, BitVec.getLsbD_or, Bool.or_eq_true, getLsbD_mask part bound] at mask
      rw [unionValue, BitVec.getLsbD_or, Bool.or_eq_true, getLsbD_value part bound] at value
      rw [List.foldl_cons, covered_cons, raised_cons, ← or_assoc, ← or_assoc]
      exact ⟨mask, value⟩
  have ⟨mask, value⟩ := general .free
  have free : (Pattern.free).mask.getLsbD index = false ∧
      (Pattern.free).value.getLsbD index = false := ⟨BitVec.getLsbD_zero, BitVec.getLsbD_zero⟩
  rw [free.1, Bool.false_eq_true, false_or] at mask
  rw [free.2, Bool.false_eq_true, false_or] at value
  exact ⟨mask, value⟩

/-- The order of the parts does not matter, nor how often a part is repeated. -/
theorem gathered_congr {first second : List FixedPart}
    (same : ∀ part, part ∈ first ↔ part ∈ second) : gathered first = gathered second := by
  have covered (index : Nat) : Covered first index ↔ Covered second index := by
    simp only [Covered, same]
  have raised (index : Nat) : Raised first index ↔ Raised second index := by
    simp only [Raised, same]
  have mask : (gathered first).mask = (gathered second).mask :=
    BitVec.eq_of_getLsbD_eq fun index bound => by
      rw [Bool.eq_iff_iff, (gathered_bits first bound).1, (gathered_bits second bound).1, covered]
  have value : (gathered first).value = (gathered second).value :=
    BitVec.eq_of_getLsbD_eq fun index bound => by
      rw [Bool.eq_iff_iff, (gathered_bits first bound).2, (gathered_bits second bound).2, raised]
  exact congrArg₂ Pattern.mk mask value

end FixedPart

end OpcodeTable
