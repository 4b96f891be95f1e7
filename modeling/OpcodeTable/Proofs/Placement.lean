/-
This file is about the arithmetic that puts a fixed part in its place. The ends of a range that a
table names lie in the word, so nothing is lost on the way: the range is at most 32 bits wide, both
shifts stay below 64 bits, and what is moved to the low end of the range ends below bit 32 before
it is cut to the word. As numbers the mask is therefore as many ones as the range is wide, moved
up by its low end, and the value is what of the literal the range has room for, moved up as far.

A literal that fits is kept as it is. One that does not is cut, and the cut is reported with the
literal, the range in the form it was read from, and what is kept.
-/

import Mathlib.Data.Nat.Count
import Mathlib.Order.Interval.Finset.Nat
import OpcodeTable.Proofs.FixedParts
import OpcodeTable.Proofs.Meaning

namespace OpcodeTable

open Text

/-! ### Counting the ones of a word -/

/-- The ones of a word are counted place by place. -/
theorem toNat_cpop_eq_count {width : Nat} (bits : BitVec width) :
    bits.cpop.toNat = Nat.count (fun index => bits.getLsbD index = true) width := by
  have general (places : Nat) :
      bits.cpopNatRec places 0 = Nat.count (fun index => bits.getLsbD index = true) places := by
    induction places with
    | zero => rfl
    | succ places inductionHypothesis =>
      rw [BitVec.cpopNatRec_succ, BitVec.cpopNatRec_eq, inductionHypothesis, Nat.count_succ]
      cases bits.getLsbD places <;> rfl
  rw [BitVec.toNat_cpop, general]

/-- Between two bits, both included, stand as many ones as there are places. -/
theorem toNat_cpop_of_interval {width lo hi : Nat} {bits : BitVec width} (inside : hi < width)
    (ones : ∀ index < width, bits.getLsbD index = true ↔ lo ≤ index ∧ index ≤ hi) :
    bits.cpop.toNat = hi + 1 - lo := by
  have interval : (Finset.range width).filter (fun index => bits.getLsbD index = true) =
      Finset.Icc lo hi := by
    ext index
    rw [Finset.mem_filter, Finset.mem_range, Finset.mem_Icc]
    exact ⟨fun ⟨bound, raised⟩ => (ones index bound).mp raised, fun between =>
      have bound : index < width := Nat.lt_of_le_of_lt between.2 inside
      ⟨bound, (ones index bound).mpr between⟩⟩
  rw [toNat_cpop_eq_count, Nat.count_eq_card_filter_range, interval, Nat.card_Icc]

namespace FixedPart

/-! ### Parts that lie in the word -/

section

variable {part : FixedPart} (low : part.range.hi ≤ 31)

include low

theorem lo_add_width_le : part.range.lo + part.range.width ≤ 32 := by
  have ordered := part.range.lo_le_hi
  unfold BitRange.width
  omega

theorem toNat_ones : part.ones.toNat = 2 ^ part.range.width - 1 := by
  have narrow : part.range.width ≤ 64 := by have := lo_add_width_le low; omega
  have power := Nat.pow_le_pow_right (show 0 < 2 by decide) narrow
  have some : 0 < 2 ^ part.range.width := Nat.two_pow_pos _
  rw [ones_eq, BitVec.toNat_ofNat, Nat.mod_eq_of_lt (by omega)]

theorem toNat_kept : part.kept.toNat = part.literal.toNat % 2 ^ part.range.width := by
  rw [kept, BitVec.toNat_and, toNat_ones low, Nat.and_two_pow_sub_one_eq_mod]

/-- What has no more bits than the range is moved to its place without loss, and stays below the
end of the word. -/
theorem moved_lt {n : Nat} (narrow : n < 2 ^ part.range.width) :
    n * 2 ^ part.range.lo < 2 ^ 32 := by
  calc
    n * 2 ^ part.range.lo < 2 ^ part.range.width * 2 ^ part.range.lo :=
      Nat.mul_lt_mul_of_pos_right narrow (Nat.two_pow_pos _)
    _ = 2 ^ (part.range.lo + part.range.width) := by rw [← pow_add, Nat.add_comm]
    _ ≤ 2 ^ 32 := Nat.pow_le_pow_right (by decide) (lo_add_width_le low)

theorem toNat_shiftLeft {bits : BitVec 64} (narrow : bits.toNat < 2 ^ part.range.width) :
    (bits <<< part.range.lo).toNat = bits.toNat * 2 ^ part.range.lo := by
  have bound : bits.toNat * 2 ^ part.range.lo < 2 ^ 64 :=
    Nat.lt_trans (moved_lt low narrow) (by decide)
  rw [BitVec.toNat_shiftLeft, Nat.shiftLeft_eq, Nat.mod_eq_of_lt bound]

theorem toNat_moved {bits : BitVec 64} (narrow : bits.toNat < 2 ^ part.range.width) :
    ((bits <<< part.range.lo).setWidth 32).toNat = (bits <<< part.range.lo).toNat := by
  rw [BitVec.toNat_setWidth, toNat_shiftLeft low narrow, Nat.mod_eq_of_lt (moved_lt low narrow)]

theorem ones_lt : part.ones.toNat < 2 ^ part.range.width := by
  rw [toNat_ones low]
  exact Nat.sub_lt (Nat.two_pow_pos _) Nat.one_pos

theorem kept_lt : part.kept.toNat < 2 ^ part.range.width := by
  rw [toNat_kept low]
  exact Nat.mod_lt _ (Nat.two_pow_pos _)

theorem toNat_value :
    part.pattern.value.toNat =
      part.literal.toNat % 2 ^ part.range.width * 2 ^ part.range.lo := by
  show ((part.kept <<< part.range.lo).setWidth 32).toNat = _
  rw [toNat_moved low (kept_lt low), toNat_shiftLeft low (kept_lt low), toNat_kept low]

/-- Moved back down, the value is what the range has room for. -/
theorem toNat_value_ushiftRight :
    (part.pattern.value >>> part.range.lo).toNat =
      part.literal.toNat % 2 ^ part.range.width := by
  rw [BitVec.toNat_ushiftRight, Nat.shiftRight_eq_div_pow, toNat_value low,
    Nat.mul_div_cancel _ (Nat.two_pow_pos _)]

/-- A literal loses bits just when it is too large for the range. -/
theorem kept_ne_literal_iff :
    part.kept ≠ part.literal ↔ 2 ^ part.range.width ≤ part.literal.toNat := by
  rw [ne_eq, ← BitVec.toNat_inj, toNat_kept low, Nat.mod_eq_iff_lt (Nat.two_pow_pos _).ne',
    Nat.not_lt]

end

/-- The mask of a part in the word has its ones at the range, and no others. -/
theorem getLsbD_mask_iff {part : FixedPart} (low : part.range.hi ≤ 31) (index : Nat) :
    part.pattern.mask.getLsbD index = true ↔ part.range.lo ≤ index ∧ index ≤ part.range.hi := by
  by_cases bound : index < 32
  · exact part.getLsbD_mask bound
  · rw [BitVec.getLsbD_of_ge _ _ (Nat.le_of_not_lt bound)]
    exact iff_of_false Bool.false_ne_true fun covers => by omega

/-- The value of one part lies inside its mask. -/
theorem value_and_not_mask (part : FixedPart) :
    part.pattern.value &&& ~~~part.pattern.mask = 0 := by
  have single := gathered_value_and_not_mask [part]
  have same : gathered [part] = part.pattern :=
    congrArg₂ Pattern.mk BitVec.zero_or BitVec.zero_or
  rwa [same] at single

/-! ### Single bits -/

/-- A token is cut at its equals sign in one way. -/
theorem cut_unique {token front back other rest : String} {part : FixedPart}
    (spelt : Spells token.toList part) (cut : token = front ++ "=" ++ back)
    (again : token = other ++ "=" ++ rest) : front = other ∧ back = rest := by
  have letters {front back : String} (cut : token = front ++ "=" ++ back) :
      token.toList = front.toList ++ '=' :: back.toList := by
    rw [cut, String.toList_append, String.toList_append, List.append_assoc]
    rfl
  have once := spelt.punctuated.equals
  rw [letters cut, List.count_append, List.count_cons_self] at once
  have noFront : '=' ∉ front.toList := List.count_eq_zero.mp (by omega)
  have noBack : '=' ∉ back.toList := List.count_eq_zero.mp (by omega)
  have same := (letters cut).symm.trans (letters again)
  obtain ⟨sameFront, _, sameBack⟩ := (List.append_cons_inj_of_notMem noFront noBack).mp same
  exact ⟨String.toList_inj.mp sameFront, String.toList_inj.mp sameBack⟩

/-- A bit may be written as a range of one bit. -/
theorem parse_doubled {front back : String} {index : Nat} {literal : BitVec 64}
    (read : parse (front ++ "=" ++ back) = .ok ⟨.bit index, literal⟩) :
    parse (front ++ ".." ++ front ++ "=" ++ back) =
      .ok ⟨.span index index (Nat.le_refl index), literal⟩ := by
  obtain ⟨other, rest, cut, speltRange, readLiteral⟩ := parse_eq_ok_iff_cut.mp read
  obtain ⟨rfl, rfl⟩ := cut_unique ((parse_eq_ok_iff _ _).mp read) rfl cut
  have spelt := BitRange.spells_bit_iff.mp speltRange
  exact parse_eq_ok_iff_cut.mpr ⟨front ++ ".." ++ front, back, rfl,
    BitRange.spells_span_iff.mpr ⟨front, front, rfl, spelt, spelt⟩, readLiteral⟩

/-! ### Compiling -/

/-- How a part that a table names is compiled. No step of the arithmetic loses anything, the mask
is the range and the value is the literal as far as the range has room for it; a literal for which
there is not enough room is reported. -/
theorem placement_of_token {token : String} {part : FixedPart} (read : parse token = .ok part) :
    let lo := part.range.lo
    let hi := part.range.hi
    let width := part.range.width
    let mask := part.pattern.mask
    let value := part.pattern.value
    let literal := part.literal.toNat
    let compiled : Traced Fault Pattern := part.compile
    (lo ≤ hi ∧ lo + width = hi + 1 ∧ lo < 64 ∧ width < 64 ∧
        (1#64 <<< width).toNat = 2 ^ width ∧ part.ones.toNat = 2 ^ width - 1 ∧
        (part.ones <<< lo).toNat = part.ones.toNat * 2 ^ lo ∧
        (part.kept <<< lo).toNat = part.kept.toNat * 2 ^ lo ∧
        mask.toNat = (part.ones <<< lo).toNat ∧ value.toNat = (part.kept <<< lo).toNat) ∧
      ((∀ index, mask.getLsbD index = true ↔ lo ≤ index ∧ index ≤ hi) ∧
        mask.cpop.toNat = hi - lo + 1) ∧
      ((value >>> lo).toNat = literal % 2 ^ width ∧ value &&& ~~~mask = 0 ∧
        (literal < 2 ^ width → (value >>> lo).toNat = literal)) ∧
      (∀ index front back, part.range = .bit index → token = front ++ "=" ++ back →
        ∃ other, parse (front ++ ".." ++ front ++ "=" ++ back) = .ok other ∧
          other.range = .span index index (Nat.le_refl index) ∧ other.literal = part.literal ∧
          other.pattern = part.pattern) ∧
      compiled.outcome = .ok part.pattern ∧
      compiled.events = (if 2 ^ width ≤ literal then [.clipped part] else []) ∧
      (Event.clipped part).level = .warn ∧
      (Event.clipped part).message =
        "value 0x".toList ++ hex literal ++ " does not fit in bits ".toList ++ part.range.text ++
          ", keeping 0x".toList ++ hex (literal % 2 ^ width) ∧
      BitRange.parse part.range.text = .ok part.range := by
  intro lo hi width mask value literal compiled
  have low : hi ≤ 31 := ((parse_eq_ok_iff token part).mp read).hi_le
  have ordered : lo ≤ hi := part.range.lo_le_hi
  have room : lo + width ≤ 32 := lo_add_width_le low
  have sum : lo + width = hi + 1 := by show lo + (hi - lo + 1) = hi + 1; omega
  have some : 0 < width := Nat.succ_pos _
  have moved : (value >>> lo).toNat = literal % 2 ^ width := toNat_value_ushiftRight low
  refine ⟨⟨ordered, sum, by omega, by omega, ?_, toNat_ones low, toNat_shiftLeft low (ones_lt low),
    toNat_shiftLeft low (kept_lt low), toNat_moved low (ones_lt low),
    toNat_moved low (kept_lt low)⟩, ⟨getLsbD_mask_iff low, ?_⟩,
    ⟨moved, part.value_and_not_mask, fun fits => by rw [moved, Nat.mod_eq_of_lt fits]⟩,
    fun index front back single cut => ?_, ?_, ?_, rfl, ?_, ?_⟩
  · have bound : 2 ^ width < 2 ^ 64 := Nat.pow_lt_pow_right (by decide) (by omega)
    have one : (1#64).toNat = 1 := rfl
    rw [BitVec.toNat_shiftLeft, Nat.shiftLeft_eq, one, Nat.one_mul, Nat.mod_eq_of_lt bound]
  · rw [toNat_cpop_of_interval (Nat.lt_succ_of_le low) fun index _ => getLsbD_mask_iff low index]
    exact Nat.succ_sub ordered
  · obtain ⟨range, own⟩ := part
    subst cut
    cases single
    exact ⟨_, parse_doubled read, rfl, rfl, rfl⟩
  · rw [show compiled = _ from compile_eq part]
  · rw [show compiled = _ from compile_eq part]
    simp only [kept_ne_literal_iff low]
    rfl
  · rw [← toNat_kept low]
    rfl
  · exact (BitRange.parse_eq_ok_iff _ _).mpr (BitRange.spells_text low)

/-- The two highest bits, with a literal of three bits. -/
def crowded : FixedPart := ⟨.span 31 30 (by decide), 7⟩

/-- The highest bit of the literal is lost and the other two stand at the end of the word. -/
theorem placement_of_token_crowded :
    parse "31..30=0b1_11" = .ok crowded ∧
      crowded.pattern = ⟨0xc0000000, 0xc0000000⟩ ∧
      crowded.pattern.mask.cpop.toNat = 2 ∧ (crowded.pattern.value >>> 30).toNat = 3 ∧
      (crowded.compile : Traced Fault Pattern).events = [.clipped crowded] ∧
      (Event.clipped crowded).message =
        "value 0x7 does not fit in bits 31..30, keeping 0x3".toList := by
  have read : parse "31..30=0b1_11" = .ok crowded := rfl
  have ⟨_, ⟨_, ones⟩, ⟨moved, _⟩, _, _, events, _, message, _⟩ := placement_of_token read
  exact ⟨read, rfl, ones, moved, events.trans (if_pos (by decide)), message⟩

end FixedPart

end OpcodeTable
