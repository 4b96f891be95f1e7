/-
This file sets the notation of fixed parts beside its reader. The notation is given by what
spells what: a run of digits spells its positional value, a literal is a run of digits with the
mark of its base in front and underscores inside, a range is one index or two with two dots
between them, and a fixed part is a range and a literal with an equals sign between them.

The reader cuts at the first equals sign and at the first two dots, and it tells a literal from
a base mark by its first two characters. Each cut finds the place that the notation means,
since no index holds a dot or an equals sign and no decimal literal of more than one digit
begins with a zero. Reading therefore succeeds on exactly the texts of the notation, with the
value that they spell.
-/

import OpcodeTable.FixedPart
import OpcodeTable.Proofs.Sequence

namespace OpcodeTable

/-! ### Runs of digits -/

namespace Text

/-- The text is a run of digits of the base, and the number is its value. -/
inductive Numeral (base : Nat) : List Char → Nat → Prop
  | empty : Numeral base [] 0
  | digit {text : List Char} {n d : Nat} {c : Char} (digits : Numeral base text n)
      (last : digitValue? base c = some d) : Numeral base (text ++ [c]) (base * n + d)

theorem Numeral.digitValue?_of_mem {base n : Nat} {text : List Char}
    (numeral : Numeral base text n) {c : Char} (member : c ∈ text) :
    ∃ d, digitValue? base c = some d := by
  induction numeral with
  | empty => cases member
  | digit _ last inductionHypothesis =>
    rcases List.mem_append.mp member with before | here
    · exact inductionHypothesis before
    · rw [List.mem_singleton.mp here]
      exact ⟨_, last⟩

/-- A decimal digit is an ASCII digit. -/
theorem isDigit_of_digitValue? {c : Char} {d : Nat} (digit : digitValue? 10 c = some d) :
    c.isDigit = true := by
  have letter (n : Nat) : (some (n + 10)).filter (· < 10) = none := by
    rw [Option.filter_some, if_neg]
    exact fun small => absurd (of_decide_eq_true small) (by omega)
  unfold digitValue? hexDigitValue? at digit
  split at digit
  · next inside =>
    rw [Bool.and_eq_true, decide_eq_true_eq, decide_eq_true_eq] at inside
    unfold Char.isDigit
    rw [Bool.and_eq_true, decide_eq_true_eq, decide_eq_true_eq]
    exact inside
  · split at digit
    · rw [letter] at digit
      cases digit
    · split at digit
      · rw [letter] at digit
        cases digit
      · cases digit

theorem appendDigits?_append (base n : Nat) (first second : List Char) :
    appendDigits? base n (first ++ second) =
      (appendDigits? base n first).bind fun m => appendDigits? base m second := by
  induction first generalizing n with
  | nil => rfl
  | cons c rest inductionHypothesis =>
    rw [List.cons_append, appendDigits?, appendDigits?]
    cases digitValue? base c with
    | none => rfl
    | some digit => exact inductionHypothesis _

theorem digitsValue?_eq_some_iff {base n : Nat} {text : List Char} :
    digitsValue? base text = some n ↔ Numeral base text n := by
  constructor
  · -- What is read so far spells the number so far, and each further digit keeps this.
    have general : ∀ (text front : List Char) (m : Nat), Numeral base front m →
        appendDigits? base m text = some n → Numeral base (front ++ text) n := by
      intro text
      induction text with
      | nil =>
        intro front m spelt read
        rw [List.append_nil]
        exact Option.some.inj read ▸ spelt
      | cons c rest inductionHypothesis =>
        intro front m spelt read
        rw [appendDigits?] at read
        obtain ⟨d, last, read⟩ := Option.bind_eq_some_iff.mp read
        have whole := inductionHypothesis (front ++ [c]) _ (spelt.digit last) read
        rwa [List.append_assoc] at whole
    exact general text [] 0 .empty
  · intro spelt
    induction spelt with
    | empty => rfl
    | digit _ last inductionHypothesis =>
      rw [digitsValue?] at inductionHypothesis ⊢
      rw [appendDigits?_append, inductionHypothesis, Option.bind_some, appendDigits?, last]
      rfl

end Text

open Text

/-! ### Literals -/

namespace Literal

/-- The mark that stands in front of the digits of a base. -/
inductive BaseMark : List Char → Nat → Prop
  | decimal : BaseMark [] 10
  | hex : BaseMark ['0', 'x'] 16
  | capitalHex : BaseMark ['0', 'X'] 16
  | binary : BaseMark ['0', 'b'] 2
  | capitalBinary : BaseMark ['0', 'B'] 2
  | octal : BaseMark ['0', 'o'] 8
  | capitalOctal : BaseMark ['0', 'O'] 8

/-- The digits of a literal: underscores stand between digits only, and a decimal literal
begins with a zero only if it is zero itself. -/
structure Digits (base : Nat) (digits : List Char) (n : Nat) : Prop where
  nonempty : digits ≠ []
  head : digits.head? ≠ some '_'
  last : digits.getLast? ≠ some '_'
  zero : base = 10 → digits.head? = some '0' → digits = ['0']
  value : Numeral base (digits.filter (· ≠ '_')) n

/-- The text is a literal, and the number is its value. -/
inductive Spells : List Char → Nat → Prop
  | intro {mark digits : List Char} {base n : Nat} (named : BaseMark mark base)
      (spelt : Digits base digits n) : Spells (mark ++ digits) n

theorem BaseMark.mem {mark : List Char} {base : Nat} (named : BaseMark mark base) :
    ∀ c ∈ mark, c ∈ ['0', 'x', 'X', 'b', 'B', 'o', 'O'] := by
  cases named <;> simp

/-- Apart from digits a literal holds the characters of base marks and underscores only. -/
theorem Spells.not_mem {text : List Char} {n : Nat} (spelt : Spells text n) {c : Char}
    (noDigit : hexDigitValue? c = none) (noMark : c ∉ ['0', 'x', 'X', 'b', 'B', 'o', 'O'])
    (noUnderscore : c ≠ '_') : c ∉ text := by
  cases spelt with
  | intro named spelt =>
    intro member
    rcases List.mem_append.mp member with inMark | inDigits
    · exact noMark (named.mem c inMark)
    · obtain ⟨d, digit⟩ := spelt.value.digitValue?_of_mem
        (List.mem_filter.mpr ⟨inDigits, decide_eq_true noUnderscore⟩)
      rw [digitValue?, noDigit] at digit
      cases digit

theorem baseMark_of_radix {text digits : List Char} {base : Nat}
    (cut : radix text = (base, digits)) :
    ∃ mark, BaseMark mark base ∧ text = mark ++ digits := by
  unfold radix at cut
  split at cut <;> obtain ⟨rfl, rfl⟩ := Prod.mk.inj cut
  · exact ⟨_, .hex, rfl⟩
  · exact ⟨_, .capitalHex, rfl⟩
  · exact ⟨_, .binary, rfl⟩
  · exact ⟨_, .capitalBinary, rfl⟩
  · exact ⟨_, .octal, rfl⟩
  · exact ⟨_, .capitalOctal, rfl⟩
  · exact ⟨_, .decimal, rfl⟩

/-- A decimal literal is never taken for one with a base mark. -/
theorem radix_append {mark digits : List Char} {base : Nat} (named : BaseMark mark base)
    (zero : base = 10 → digits.head? = some '0' → digits = ['0']) :
    radix (mark ++ digits) = (base, digits) := by
  cases named with
  | decimal =>
    rw [List.nil_append]
    unfold radix
    split
    iterate 6 exact nomatch zero rfl rfl
    rfl
  | hex => rfl
  | capitalHex => rfl
  | binary => rfl
  | capitalBinary => rfl
  | octal => rfl
  | capitalOctal => rfl

theorem wellEnclosed_iff (digits : List Char) :
    wellEnclosed digits = true ↔
      digits ≠ [] ∧ digits.head? ≠ some '_' ∧ digits.getLast? ≠ some '_' := by
  unfold wellEnclosed
  rw [Bool.and_eq_true, Bool.and_eq_true, decide_eq_true_eq, decide_eq_true_eq, and_assoc]
  refine and_congr_left fun ⟨head, _⟩ => ?_
  cases digits with
  | nil => exact ⟨fun any => (nomatch any), fun nonempty => absurd rfl nonempty⟩
  | cons c rest =>
    refine ⟨fun _ => List.cons_ne_nil c rest, fun _ => ?_⟩
    rw [List.any_cons, Bool.or_eq_true]
    exact Or.inl (decide_eq_true fun same => head (congrArg some same))

/-- A digit stands behind the zero of a decimal literal unless nothing does. -/
theorem hasLeadingZero_filter {digits : List Char} (enclosed : wellEnclosed digits = true) :
    hasLeadingZero (digits.filter (· ≠ '_')) = false ↔
      (digits.head? = some '0' → digits = ['0']) := by
  have ⟨nonempty, head, last⟩ := (wellEnclosed_iff digits).mp enclosed
  cases digits with
  | nil => exact absurd rfl nonempty
  | cons c rest =>
    have letter : c ≠ '_' := fun same => head (congrArg some same)
    rw [List.filter_cons, if_pos (decide_eq_true letter), List.head?_cons]
    by_cases zero : c = '0'
    · subst zero
      cases rest with
      | nil => exact iff_of_true rfl fun _ => rfl
      | cons next later =>
        have final : (next :: later).getLast (List.cons_ne_nil next later) ≠ '_' := by
          rwa [List.getLast?_cons_cons, List.getLast?_eq_some_getLast
            (List.cons_ne_nil next later), ne_eq, Option.some.injEq] at last
        have kept : (next :: later).getLast (List.cons_ne_nil next later) ∈
            (next :: later).filter (· ≠ '_') :=
          List.mem_filter.mpr ⟨List.getLast_mem _, decide_eq_true final⟩
        refine iff_of_false ?_ fun alone => nomatch alone rfl
        cases filtered : (next :: later).filter (· ≠ '_') with
        | nil =>
          rw [filtered] at kept
          cases kept
        | cons _ _ => exact fun none => nomatch none
    · refine iff_of_true ?_ fun same => absurd (Option.some.inj same) zero
      unfold hasLeadingZero
      split
      · next same => exact absurd (List.cons.inj same).1 zero
      · rfl

/-- The checks of the reader, one by one, are the notation of digits. -/
theorem digits_iff (base : Nat) (digits : List Char) (n : Nat) :
    Digits base digits n ↔ wellEnclosed digits = true ∧
      (base = 10 && hasLeadingZero (digits.filter (· ≠ '_'))) = false ∧
        digitsValue? base (digits.filter (· ≠ '_')) = some n := by
  constructor
  · intro spelt
    have enclosed := (wellEnclosed_iff digits).mpr ⟨spelt.nonempty, spelt.head, spelt.last⟩
    refine ⟨enclosed, ?_, digitsValue?_eq_some_iff.mpr spelt.value⟩
    rw [Bool.and_eq_false_imp]
    intro decimal
    exact (hasLeadingZero_filter enclosed).mpr (spelt.zero (of_decide_eq_true decimal))
  · intro ⟨enclosed, unambiguous, read⟩
    have ⟨nonempty, head, last⟩ := (wellEnclosed_iff digits).mp enclosed
    refine ⟨nonempty, head, last, fun decimal => ?_, digitsValue?_eq_some_iff.mp read⟩
    exact (hasLeadingZero_filter enclosed).mp
      (Bool.and_eq_false_imp.mp unambiguous (decide_eq_true decimal))

/-- Reading accepts exactly the literals below 2 ^ 64, each with its value. -/
theorem parse_eq_ok_iff (text : String) (value : BitVec 64) :
    parse text = .ok value ↔ Spells text.toList value.toNat := by
  constructor
  · intro read
    cases cut : radix text.toList with
    | mk base digits =>
    obtain ⟨mark, named, whole⟩ := baseMark_of_radix cut
    rw [parse, cut] at read
    dsimp only at read
    split at read
    · cases read
    · next enclosed =>
      split at read
      · cases read
      · next unambiguous =>
        split at read
        · cases read
        · next n found =>
          split at read
          · next bound =>
            have same : value.toNat = n := by
              rw [← Except.ok.inj read, BitVec.toNat_ofNat, Nat.mod_eq_of_lt bound]
            rw [whole, same]
            exact .intro named ((digits_iff base digits n).mpr
              ⟨by simpa using enclosed, by simpa using unambiguous, found⟩)
          · cases read
  · intro spelt
    generalize whole : text.toList = characters at spelt
    generalize number : value.toNat = n at spelt
    cases spelt with
    | @intro mark digits base n named spelt =>
    have ⟨enclosed, unambiguous, read⟩ := (digits_iff base digits n).mp spelt
    subst number
    rw [parse, whole, radix_append named spelt.zero]
    dsimp only
    rw [enclosed, unambiguous, read]
    simp only [Bool.not_true, Bool.false_eq_true, if_false, value.isLt, if_true,
      BitVec.ofNat_toNat, BitVec.setWidth_eq]

end Literal

/-! ### Ranges -/

namespace BitRange

/-- The text is a run of digits, and the number is its value and the index of a bit that a table
may fix. -/
structure SpellsIndex (text : List Char) (index : Nat) : Prop where
  nonempty : text ≠ []
  value : Numeral 10 text index
  bound : index ≤ maxIndex

/-- The text is a range. -/
inductive Spells : List Char → BitRange → Prop
  | bit {text : List Char} {index : Nat} (spelt : SpellsIndex text index) :
      Spells text (.bit index)
  | span {upper lower : List Char} {hi lo : Nat} (spelt : SpellsIndex upper hi)
      (speltLow : SpellsIndex lower lo) (ordered : lo ≤ hi) :
      Spells (upper ++ ['.', '.'] ++ lower) (.span hi lo ordered)

theorem SpellsIndex.head {text : List Char} {index : Nat} (spelt : SpellsIndex text index) :
    ∃ c tail, text = c :: tail ∧ c.isDigit = true := by
  cases text with
  | nil => exact absurd rfl spelt.nonempty
  | cons c tail =>
    obtain ⟨d, digit⟩ := spelt.value.digitValue?_of_mem List.mem_cons_self
    exact ⟨c, tail, rfl, isDigit_of_digitValue? digit⟩

theorem Spells.head {text : List Char} {range : BitRange} (spelt : Spells text range) :
    ∃ c tail, text = c :: tail ∧ c.isDigit = true := by
  cases spelt with
  | bit spelt => exact spelt.head
  | span spelt _ _ =>
    obtain ⟨c, tail, rfl, digit⟩ := spelt.head
    exact ⟨c, _, rfl, digit⟩

theorem SpellsIndex.not_mem {text : List Char} {index : Nat} (spelt : SpellsIndex text index)
    {c : Char} (noDigit : digitValue? 10 c = none) : c ∉ text := by
  intro member
  obtain ⟨d, digit⟩ := spelt.value.digitValue?_of_mem member
  rw [noDigit] at digit
  cases digit

theorem Spells.not_mem {text : List Char} {range : BitRange} (spelt : Spells text range)
    {c : Char} (noDigit : digitValue? 10 c = none) (noDot : c ≠ '.') : c ∉ text := by
  cases spelt with
  | bit spelt => exact spelt.not_mem noDigit
  | span spelt speltLow _ =>
    intro member
    rcases List.mem_append.mp member with front | low
    · rcases List.mem_append.mp front with high | dots
      · exact spelt.not_mem noDigit high
      · exact noDot (List.eq_of_mem_replicate (n := 2) dots)
    · exact speltLow.not_mem noDigit low

theorem parseIndex_eq_ok_iff (text : List Char) (index : Nat) :
    parseIndex text = .ok index ↔ SpellsIndex text index := by
  constructor
  · intro read
    rw [parseIndex] at read
    split at read
    · cases read
    · next n found =>
      split at read
      · cases read
      · next checked =>
        split at read
        · cases read
        · next low =>
          rw [← Except.ok.inj read]
          refine ⟨fun empty => checked ?_, digitsValue?_eq_some_iff.mp found, Nat.le_of_not_lt low⟩
          rw [empty]
          rfl
  · intro ⟨nonempty, value, bound⟩
    rw [parseIndex, digitsValue?_eq_some_iff.mpr value]
    have small : ¬ UInt32.size ≤ index := by
      unfold maxIndex at bound
      unfold UInt32.size
      omega
    have some : text.isEmpty = false := by simpa using nonempty
    simp only [some, small, decide_false, Bool.or_false, Bool.false_eq_true, if_false,
      Nat.not_lt.mpr bound]

/-- Reading accepts exactly the ranges of the notation. -/
theorem parse_eq_ok_iff (text : List Char) (range : BitRange) :
    parse text = .ok range ↔ Spells text range := by
  constructor
  · intro read
    rw [parse] at read
    cases cut : splitFirst? ['.', '.'] text with
    | none =>
      rw [cut] at read
      obtain ⟨index, found, rfl⟩ := map_eq_ok_iff.mp read
      exact .bit ((parseIndex_eq_ok_iff text index).mp found)
    | some parts =>
      obtain ⟨upper, lower⟩ := parts
      rw [cut] at read
      obtain ⟨hi, foundHi, read⟩ := bind_eq_ok_iff.mp read
      obtain ⟨lo, foundLo, read⟩ := bind_eq_ok_iff.mp read
      split at read
      · next ordered =>
        rw [← Except.ok.inj read, eq_append_of_splitFirst? cut]
        exact .span ((parseIndex_eq_ok_iff upper hi).mp foundHi)
          ((parseIndex_eq_ok_iff lower lo).mp foundLo) ordered
      · cases read
  · intro spelt
    cases spelt with
    | bit spelt =>
      rw [parse, splitFirst?_eq_none (spelt.not_mem (by decide)) ['.']]
      dsimp only
      rw [(parseIndex_eq_ok_iff _ _).mpr spelt]
      rfl
    | span spelt speltLow ordered =>
      rw [parse, splitFirst?_append (spelt.not_mem (by decide)) ['.'] _]
      dsimp only
      rw [(parseIndex_eq_ok_iff _ _).mpr spelt, (parseIndex_eq_ok_iff _ _).mpr speltLow]
      exact dif_pos ordered

end BitRange

/-! ### Fixed parts -/

namespace FixedPart

/-- The text is a fixed part: a range, an equals sign and a literal. -/
inductive Spells : List Char → FixedPart → Prop
  | intro {left right : List Char} {range : BitRange} {literal : BitVec 64}
      (speltRange : BitRange.Spells left range)
      (speltLiteral : Literal.Spells right literal.toNat) :
      Spells (left ++ ['='] ++ right) ⟨range, literal⟩

/-- No fixed part of the notation reaches above the word. -/
theorem Spells.hi_le {text : List Char} {part : FixedPart} (spelt : Spells text part) :
    part.range.hi ≤ 31 := by
  cases spelt with
  | intro speltRange _ =>
    cases speltRange with
    | bit spelt => exact spelt.bound
    | span spelt _ _ => exact spelt.bound

/-- Reading accepts exactly the fixed parts of the notation. -/
theorem parse_eq_ok_iff (token : String) (part : FixedPart) :
    parse token = .ok part ↔ Spells token.toList part := by
  constructor
  · intro read
    rw [parse] at read
    cases cut : splitFirst? ['='] token.toList with
    | none =>
      rw [cut] at read
      cases read
    | some parts =>
      obtain ⟨left, right⟩ := parts
      rw [cut] at read
      obtain ⟨range, foundRange, read⟩ := bind_eq_ok_iff.mp read
      obtain ⟨literal, foundLiteral, read⟩ := bind_eq_ok_iff.mp read
      have speltRange :=
        (BitRange.parse_eq_ok_iff left range).mp (mapError_eq_ok_iff.mp foundRange)
      have speltLiteral :=
        (Literal.parse_eq_ok_iff _ literal).mp (mapError_eq_ok_iff.mp foundLiteral)
      rw [String.toList_ofList] at speltLiteral
      rw [← Except.ok.inj read, eq_append_of_splitFirst? cut]
      exact .intro speltRange speltLiteral
  · intro spelt
    generalize whole : token.toList = text at spelt
    cases spelt with
    | @intro left right range literal speltRange speltLiteral =>
    have speltText : Literal.Spells (String.ofList right).toList literal.toNat := by
      rwa [String.toList_ofList]
    rw [parse, whole, splitFirst?_append (speltRange.not_mem (by decide) (by decide)) [] right]
    dsimp only
    rw [(BitRange.parse_eq_ok_iff left range).mpr speltRange,
      (Literal.parse_eq_ok_iff _ literal).mpr speltText]
    rfl

end FixedPart

end OpcodeTable
