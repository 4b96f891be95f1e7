/-
This file says which tokens are fixed parts. An index is a run of ASCII digits, of any length and
with any zeros in front, and counts by its value; a range is one index or two with two dots
between them, the higher one first; and a fixed part is a range, an equals sign and a literal. This
is said of the characters of the token, without the reader.

The reader cuts at the first equals sign and at the first two dots. Since an index has digits
alone and a literal has neither mark, an accepted token has one equals sign and either no dot or
two, and so it can be cut in one way only. A token that cannot be cut so is refused, and the fault
names the whole of it.
-/

import OpcodeTable.Proofs.Literals
import OpcodeTable.Proofs.Reading

namespace OpcodeTable

open Text

/-! ### Indexes -/

namespace Text

theorem isDigitOf_ten_iff {c : Char} {worth : Nat} :
    IsDigitOf 10 c worth ↔ c.isDigit = true ∧ c.toNat - '0'.toNat = worth := by
  have digits : ∀ worth < 10, worth.digitChar.toUpper = worth.digitChar ∧
      worth.digitChar.isDigit = true ∧ worth.digitChar.toNat - '0'.toNat = worth := by decide
  have worths : ∀ n < 10, Char.ofNat ('0'.toNat + n) = n.digitChar := by decide
  constructor
  · rintro ⟨small, spelt⟩
    have ⟨caseless, digit⟩ := digits worth small
    rw [caseless, or_self] at spelt
    exact spelt ▸ digit
  · rintro ⟨digit, rfl⟩
    have ⟨low, high⟩ := Char.isDigit_iff_toNat.mp digit
    have small : c.toNat - '0'.toNat < 10 :=
      Nat.sub_lt_left_of_lt_add low (Nat.lt_succ_of_le high)
    have same := worths _ small
    rw [Nat.add_sub_cancel' low, Char.ofNat_toNat] at same
    exact ⟨small, .inl same⟩

/-- A decimal numeral is a run of ASCII digits, each valued by its place. -/
theorem numeral_ten_iff {text : List Char} {n : Nat} :
    Numeral 10 text n ↔ (∀ c ∈ text, c.isDigit = true) ∧
      n = Nat.ofDigits 10 (text.map fun c => c.toNat - '0'.toNat).reverse := by
  have split (worths : List Nat) : List.Forall₂ (IsDigitOf 10) text worths ↔
      (∀ c ∈ text, c.isDigit = true) ∧ (text.map fun c => c.toNat - '0'.toNat) = worths := by
    have pointwise : IsDigitOf 10 = fun c worth => c.isDigit = true ∧ c.toNat - '0'.toNat = worth :=
      funext fun _ => funext fun _ => propext isDigitOf_ten_iff
    rw [pointwise, List.forall₂_and_left, ← List.forall₂_map_left_iff, List.forall₂_eq_eq_eq]
  simp only [numeral_iff (show 10 ≤ 16 by decide), split, and_assoc, exists_and_left,
    exists_eq_left']

theorem eq_append_of_toList {text : String} {front mark back : List Char}
    (whole : text.toList = front ++ mark ++ back) :
    text = String.ofList front ++ String.ofList mark ++ String.ofList back := by
  rw [← String.ofList_append, ← String.ofList_append, ← whole, String.ofList_toList]

end Text

namespace BitRange

/-- The text is a run of ASCII digits that stands for the index of a bit of the word. -/
structure IsIndex (text : String) (index : Nat) : Prop where
  nonempty : text ≠ ""
  digits : ∀ c ∈ text.toList, c.isDigit = true
  value : index = Nat.ofDigits 10 (text.toList.map fun c => c.toNat - '0'.toNat).reverse
  bound : index ≤ 31

theorem isIndex_iff {text : String} {index : Nat} :
    IsIndex text index ↔ SpellsIndex text.toList index := by
  constructor
  · rintro ⟨nonempty, digits, value, bound⟩
    exact ⟨mt String.toList_eq_nil_iff.mp nonempty, numeral_ten_iff.mpr ⟨digits, value⟩, bound⟩
  · rintro ⟨nonempty, numeral, bound⟩
    have ⟨digits, value⟩ := numeral_ten_iff.mp numeral
    exact ⟨mt String.toList_eq_nil_iff.mpr nonempty, digits, value, bound⟩

theorem spells_bit_iff {text : String} {index : Nat} :
    Spells text.toList (.bit index) ↔ IsIndex text index := by
  rw [isIndex_iff]
  constructor
  · intro spelt
    generalize text.toList = characters at spelt
    cases spelt with
    | bit spelt => exact spelt
  · exact .bit

theorem spells_span_iff {text : String} {hi lo : Nat} {ordered : lo ≤ hi} :
    Spells text.toList (.span hi lo ordered) ↔ ∃ upper lower, text = upper ++ ".." ++ lower ∧
      IsIndex upper hi ∧ IsIndex lower lo := by
  simp only [isIndex_iff]
  constructor
  · intro spelt
    generalize whole : text.toList = characters at spelt
    cases spelt with
    | @span upper lower _ _ spelt speltLow _ =>
      refine ⟨String.ofList upper, String.ofList lower, eq_append_of_toList whole, ?_, ?_⟩
      · rwa [String.toList_ofList]
      · rwa [String.toList_ofList]
  · rintro ⟨upper, lower, rfl, spelt, speltLow⟩
    rw [String.toList_append, String.toList_append]
    exact .span spelt speltLow ordered

end BitRange

/-! ### The characters of a fixed part -/

namespace Literal

theorem Spells.lt_of_mem {text : List Char} {n : Nat} (spelt : Spells text n) {c : Char}
    (member : c ∈ text) : c.toNat < 128 := by
  by_contra outside
  have marks : ∀ c ∈ ['0', 'x', 'X', 'b', 'B', 'o', 'O'], c.toNat < 128 :=
    forall_mem_of_all rfl
  refine spelt.not_mem ?_ (fun mark => outside (marks c mark)) ?_ member
  · cases digit : hexDigitValue? c with
    | none => rfl
    | some worth => exact absurd (toNat_lt_of_hexDigitValue? digit) outside
  · rintro rfl
    exact outside (by decide)

end Literal

namespace BitRange

/-- How many dots the range is written with. -/
def dots : BitRange → Nat
  | .bit _ => 0
  | .span _ _ _ => 2

theorem Spells.mem {text : List Char} {range : BitRange} (spelt : Spells text range) {c : Char}
    (member : c ∈ text) : c.isDigit = true ∨ c = '.' := by
  by_contra other
  rw [not_or] at other
  refine spelt.not_mem ?_ other.2 member
  cases digit : digitValue? 10 c with
  | none => rfl
  | some worth => exact absurd (isDigit_of_digitValue? digit) other.1

theorem Spells.count_dot {text : List Char} {range : BitRange} (spelt : Spells text range) :
    text.count '.' = range.dots := by
  have none {digits : List Char} {index : Nat} (spelt : SpellsIndex digits index) :
      digits.count '.' = 0 := List.count_eq_zero.mpr (spelt.not_mem (by decide))
  cases spelt with
  | bit spelt => exact none spelt
  | span spelt speltLow _ =>
    rw [List.count_append, List.count_append, none spelt, none speltLow]
    rfl

end BitRange

namespace FixedPart

theorem parse_eq_ok_iff_cut {token : String} {part : FixedPart} :
    parse token = .ok part ↔ ∃ front back, token = front ++ "=" ++ back ∧
      BitRange.Spells front.toList part.range ∧ Literal.parse back = .ok part.literal := by
  simp only [parse_eq_ok_iff, Literal.parse_eq_ok_iff]
  constructor
  · intro spelt
    generalize whole : token.toList = characters at spelt
    cases spelt with
    | @intro left right _ _ speltRange speltLiteral =>
      refine ⟨String.ofList left, String.ofList right, eq_append_of_toList whole, ?_, ?_⟩
      · rwa [String.toList_ofList]
      · rwa [String.toList_ofList]
  · rintro ⟨front, back, rfl, speltRange, speltLiteral⟩
    rw [String.toList_append, String.toList_append]
    exact .intro speltRange speltLiteral

/-- What the characters of an accepted token look like. -/
structure Punctuated (token : List Char) (part : FixedPart) : Prop where
  equals : token.count '=' = 1
  dots : token.count '.' = part.range.dots
  front : ∀ c ∈ token.takeWhile (· ≠ '='), c.isDigit = true ∨ c = '.'
  unsigned : ∀ c ∈ ['+', '-'], c ∉ token
  ascii : ∀ c ∈ token, c.toNat < 128

theorem Spells.punctuated {text : List Char} {part : FixedPart} (spelt : Spells text part) :
    Punctuated text part := by
  cases spelt with
  | @intro left right range literal speltRange speltLiteral =>
    have front : ∀ c ∈ ['=', '+', '-'], c ∉ left := by
      have foreign : ∀ c ∈ ['=', '+', '-'], ¬ (c.isDigit = true ∨ c = '.') :=
        forall_mem_of_all rfl
      exact fun c mark member => foreign c mark (speltRange.mem member)
    have back : ∀ c ∈ ['.', '=', '+', '-'], c ∉ right := by
      have foreign : ∀ c ∈ ['.', '=', '+', '-'], hexDigitValue? c = none ∧
          c ∉ ['0', 'x', 'X', 'b', 'B', 'o', 'O'] ∧ c ≠ '_' := forall_mem_of_all rfl
      intro c mark
      have ⟨noDigit, noMark, noUnderscore⟩ := foreign c mark
      exact speltLiteral.not_mem noDigit noMark noUnderscore
    refine ⟨?_, ?_, fun c member => ?_, fun c sign member => ?_, fun c member => ?_⟩
    · rw [List.count_append, List.count_append, List.count_eq_zero.mpr (front '=' (by decide)),
        List.count_eq_zero.mpr (back '=' (by decide))]
      rfl
    · rw [List.count_append, List.count_append, speltRange.count_dot,
        List.count_eq_zero.mpr (back '.' (by decide))]
      rfl
    · have before : ∀ c ∈ left, decide (c ≠ '=') = true := fun c inside =>
        decide_eq_true (ne_of_mem_of_not_mem inside (front '=' (by decide)))
      rw [List.append_assoc, List.takeWhile_append_of_pos before] at member
      exact speltRange.mem (by simpa using member)
    · rcases List.mem_append.mp member with inFront | inBack
      · rcases List.mem_append.mp inFront with inLeft | equals
        · exact front c (List.mem_cons_of_mem _ sign) inLeft
        · rw [List.mem_singleton.mp equals] at sign
          exact absurd sign (by decide)
      · exact back c (List.mem_cons_of_mem _ (List.mem_cons_of_mem _ sign)) inBack
    · rcases List.mem_append.mp member with inFront | inBack
      · rcases List.mem_append.mp inFront with inLeft | equals
        · rcases speltRange.mem inLeft with digit | rfl
          · exact Nat.lt_of_le_of_lt (Char.isDigit_iff_toNat.mp digit).2 (by decide)
          · decide
        · rw [List.mem_singleton.mp equals]
          decide
      · exact speltLiteral.lt_of_mem inBack

/-! ### The notation of fixed parts -/

/-- Which tokens are fixed parts, and what they are read as. Whatever is accepted lies in the word,
and a token that is refused is named whole. -/
theorem fixedPart_notation (token : String) :
    let read := (parse token).mapError (Fault.malformed token)
    ((∃ part, read = .ok part) ↔ ∃ front back, token = front ++ "=" ++ back ∧
        (∃ literal, Literal.parse back = .ok literal) ∧
        ((∃ index, BitRange.IsIndex front index) ∨ ∃ upper lower hi lo,
          front = upper ++ ".." ++ lower ∧ BitRange.IsIndex upper hi ∧
            BitRange.IsIndex lower lo ∧ lo ≤ hi)) ∧
      (∀ index literal, read = .ok ⟨.bit index, literal⟩ ↔ ∃ front back,
        token = front ++ "=" ++ back ∧ BitRange.IsIndex front index ∧
          Literal.parse back = .ok literal) ∧
      (∀ hi lo ordered literal, read = .ok ⟨.span hi lo ordered, literal⟩ ↔
        ∃ upper lower back, token = upper ++ ".." ++ lower ++ "=" ++ back ∧
          BitRange.IsIndex upper hi ∧ BitRange.IsIndex lower lo ∧
          Literal.parse back = .ok literal) ∧
      (∀ part, read = .ok part → Punctuated token.toList part ∧ 1 ≤ part.range.width ∧
        part.range.width ≤ 32 ∧ part.range.lo + part.range.width ≤ 32) ∧
      (∀ fault, read = .error fault → ∃ reason, fault = .malformed token reason) ∧
      (Part.startsFixed token = true → Part.parse token = read.map .fixed) := by
  intro read
  have accepted (part : FixedPart) : read = .ok part ↔ ∃ front back, token = front ++ "=" ++ back ∧
      BitRange.Spells front.toList part.range ∧ Literal.parse back = .ok part.literal :=
    mapError_eq_ok_iff.trans parse_eq_ok_iff_cut
  refine ⟨?_, fun index literal => ?_, fun hi lo ordered literal => ?_, fun part sound => ?_,
    fun fault failed => ?_, fun starts => ?_⟩
  · simp only [accepted]
    constructor
    · rintro ⟨⟨range, literal⟩, front, back, whole, speltRange, readLiteral⟩
      refine ⟨front, back, whole, ⟨literal, readLiteral⟩, ?_⟩
      cases range with
      | bit index => exact .inl ⟨index, BitRange.spells_bit_iff.mp speltRange⟩
      | span hi lo ordered =>
        obtain ⟨upper, lower, same, spelt, speltLow⟩ := BitRange.spells_span_iff.mp speltRange
        exact .inr ⟨upper, lower, hi, lo, same, spelt, speltLow, ordered⟩
    · rintro ⟨front, back, whole, ⟨literal, readLiteral⟩, ⟨index, spelt⟩ |
        ⟨upper, lower, hi, lo, same, spelt, speltLow, ordered⟩⟩
      · exact ⟨⟨.bit index, literal⟩, front, back, whole, BitRange.spells_bit_iff.mpr spelt,
          readLiteral⟩
      · exact ⟨⟨.span hi lo ordered, literal⟩, front, back, whole,
          BitRange.spells_span_iff.mpr ⟨upper, lower, same, spelt, speltLow⟩, readLiteral⟩
  · simp only [accepted, BitRange.spells_bit_iff]
  · simp only [accepted, BitRange.spells_span_iff]
    constructor
    · rintro ⟨_, back, rfl, ⟨upper, lower, rfl, spelt, speltLow⟩, readLiteral⟩
      exact ⟨upper, lower, back, rfl, spelt, speltLow, readLiteral⟩
    · rintro ⟨upper, lower, back, rfl, spelt, speltLow, readLiteral⟩
      exact ⟨_, back, rfl, ⟨upper, lower, rfl, spelt, speltLow⟩, readLiteral⟩
  · have spelt := (parse_eq_ok_iff token part).mp (mapError_eq_ok_iff.mp sound)
    have high := spelt.hi_le
    have ordered := part.range.lo_le_hi
    unfold BitRange.width
    exact ⟨spelt.punctuated, by omega, by omega, by omega⟩
  · obtain ⟨reason, _, same⟩ := mapError_eq_error_iff.mp failed
    exact ⟨reason, same⟩
  · rw [Part.parse_of_startsFixed starts]
    show _ = ((parse token).mapError _).map _
    cases parse token <;> rfl

end FixedPart

end OpcodeTable
