/-
This file reads numbers back from the numerals that the program writes. A numeral is written
digit by digit from the number, and each digit is worth what it was written for, so the numeral
spells the number in any base up to sixteen; zeros put in front of it change nothing. A numeral
begins with a zero only if the number is zero, and that is why a decimal numeral is a literal,
where a leading zero is refused.

From this each text that a fixed part is printed as spells that part, whatever its literal.
-/

import OpcodeTable.Proofs.Grammar

namespace OpcodeTable

namespace Text

/-! ### Runs of characters -/

theorem forall_mem_of_all {seen : Char → Prop} [DecidablePred seen] {text : List Char}
    (all : text.all (decide <| seen ·) = true) : ∀ c ∈ text, seen c :=
  fun c member => of_decide_eq_true (List.all_eq_true.mp all c member)

/-! ### Digits -/

theorem digitValue?_digitChar {base d : Nat} (known : base ≤ 16) (small : d < base) :
    digitValue? base d.digitChar = some d := by
  have worth : ∀ d < 16, hexDigitValue? (Nat.digitChar d) = some d := by decide
  rw [digitValue?, worth d (Nat.lt_of_lt_of_le small known), Option.filter_some,
    if_pos (decide_eq_true small)]

theorem digitValue?_zero {base : Nat} (some : 0 < base) : digitValue? base '0' = .some 0 := by
  have worth : hexDigitValue? '0' = .some 0 := by decide
  rw [digitValue?, worth, Option.filter_some, if_pos (decide_eq_true some)]

/-- Below the space there are no digits. -/
theorem visible_of_digitValue? {c : Char} {d : Nat} (digit : digitValue? 16 c = some d) :
    0x20 ≤ c.toNat := by
  have none : ∀ n < 0x20, digitValue? 16 (Char.ofNat n) = .none := by decide
  refine Nat.le_of_not_lt fun small => ?_
  have noDigit := none c.toNat small
  rw [Char.ofNat_toNat, digit] at noDigit
  cases noDigit

/-! ### Numerals -/

theorem Numeral.unique {base n m : Nat} {text : List Char} (numeral : Numeral base text n)
    (other : Numeral base text m) : n = m := by
  rw [← digitsValue?_eq_some_iff] at numeral other
  exact Option.some.inj (numeral.symm.trans other)

/-- The numeral of a number spells it. -/
theorem numeral_toDigits {base : Nat} (several : 1 < base) (known : base ≤ 16) (n : Nat) :
    Numeral base (Nat.toDigits base n) n := by
  induction n using Nat.strongRecOn with
  | ind n inductionHypothesis =>
  by_cases small : n < base
  · rw [Nat.toDigits_of_lt_base small]
    have digit := Numeral.empty.digit (digitValue?_digitChar known small)
    rwa [Nat.mul_zero, Nat.zero_add] at digit
  · have large := Nat.le_of_not_lt small
    rw [Nat.toDigits_of_base_le several large]
    have front := inductionHypothesis (n / base)
      (Nat.div_lt_self (Nat.lt_of_lt_of_le (Nat.zero_lt_of_lt several) large) several)
    have whole := front.digit
      (digitValue?_digitChar known (Nat.mod_lt n (Nat.zero_lt_of_lt several)))
    rwa [Nat.div_add_mod] at whole

theorem Numeral.zeros_append {base n : Nat} {text : List Char} (some : 0 < base)
    (numeral : Numeral base text n) (zeros : Nat) :
    Numeral base (List.replicate zeros '0' ++ text) n := by
  rw [← digitsValue?_eq_some_iff] at numeral ⊢
  induction zeros with
  | zero => exact numeral
  | succ zeros inductionHypothesis =>
    rw [List.replicate_succ, List.cons_append, digitsValue?, appendDigits?,
      digitValue?_zero some]
    exact inductionHypothesis

theorem numeral_decimal (n : Nat) : Numeral 10 (decimal n) n :=
  numeral_toDigits (by decide) (by decide) n

theorem numeral_hex (n : Nat) : Numeral 16 (hex n) n :=
  numeral_toDigits (by decide) (by decide) n

/-- Zeros in front of a hexadecimal numeral change nothing. -/
theorem numeral_paddedHex (digits n : Nat) : Numeral 16 (paddedHex digits n) n :=
  (numeral_hex n).zeros_append (by decide) _

theorem head_toDigits {base n : Nat} (several : 1 < base)
    (zero : (Nat.toDigits base n).head? = some '0') : n = 0 := by
  induction n using Nat.strongRecOn with
  | ind n inductionHypothesis =>
  by_cases small : n < base
  · rw [Nat.toDigits_of_lt_base small] at zero
    exact Nat.digitChar_eq_zero.mp (Option.some.inj zero)
  · have large := Nat.le_of_not_lt small
    obtain ⟨first, later, front⟩ :=
      List.exists_cons_of_ne_nil (Nat.toDigits_ne_nil : Nat.toDigits base (n / base) ≠ [])
    rw [Nat.toDigits_of_base_le several large, front, List.cons_append, List.head?_cons] at zero
    have quotient := inductionHypothesis (n / base)
      (Nat.div_lt_self (Nat.lt_of_lt_of_le (Nat.zero_lt_of_lt several) large) several)
      (front ▸ zero)
    exact absurd ((Nat.div_eq_zero_iff_lt (Nat.zero_lt_of_lt several)).mp quotient) small

theorem isDigit_of_mem_decimal {n : Nat} {c : Char} (member : c ∈ decimal n) :
    c.isDigit = true :=
  Nat.isDigit_of_mem_toDigits (by decide) (by decide) member

end Text

open Text

/-! ### Literals -/

namespace Literal

/-- A run of digits without underscores is that of a literal, with no zero in front if the base
is ten. -/
theorem Digits.of_numeral {base n : Nat} {digits : List Char} (nonempty : digits ≠ [])
    (numeral : Numeral base digits n)
    (zero : base = 10 → digits.head? = some '0' → digits = ['0']) : Digits base digits n := by
  have plain : '_' ∉ digits := by
    intro member
    obtain ⟨d, digit⟩ := numeral.digitValue?_of_mem member
    cases digit
  refine ⟨nonempty, fun first => plain (List.mem_of_mem_head? first),
    fun last => plain (List.mem_of_getLast? last), zero, ?_⟩
  have all : digits.filter (· ≠ '_') = digits :=
    List.filter_eq_self.mpr fun c member => decide_eq_true fun same => plain (same ▸ member)
  rwa [all]

/-- A text stands for one literal at most. -/
theorem Spells.unique {text : List Char} {n m : Nat} (spelt : Spells text n)
    (other : Spells text m) : n = m := by
  generalize whole : text = sameText at other
  obtain ⟨named, digits⟩ := spelt
  obtain ⟨namedOther, digitsOther⟩ := other
  have cut := radix_append named digits.zero
  rw [whole, radix_append namedOther digitsOther.zero] at cut
  obtain ⟨rfl, rfl⟩ := Prod.mk.inj cut
  exact digits.value.unique digitsOther.value

theorem spells_decimal (n : Nat) : Spells (decimal n) n := by
  refine .intro .decimal (.of_numeral Nat.toDigits_ne_nil
    (numeral_decimal n) fun _ zero => ?_)
  have none : n = 0 := head_toDigits (by decide) zero
  subst none
  rfl

theorem spells_paddedHex (digits n : Nat) : Spells ('0' :: 'x' :: paddedHex digits n) n := by
  have nonempty : paddedHex digits n ≠ [] :=
    List.append_ne_nil_of_right_ne_nil _ Nat.toDigits_ne_nil
  exact .intro .hex (.of_numeral nonempty (numeral_paddedHex digits n)
    fun impossible => nomatch impossible)

end Literal

/-! ### Fixed parts -/

namespace BitRange

theorem spellsIndex_decimal {index : Nat} (bound : index ≤ maxIndex) :
    SpellsIndex (decimal index) index :=
  ⟨Nat.toDigits_ne_nil, numeral_decimal index, bound⟩

theorem spells_text {range : BitRange} (bound : range.hi ≤ maxIndex) :
    Spells range.text range := by
  cases range with
  | bit index => exact .bit (spellsIndex_decimal bound)
  | span hi lo ordered =>
    exact .span (spellsIndex_decimal bound)
      (spellsIndex_decimal (Nat.le_trans ordered bound)) ordered

theorem mem_text {range : BitRange} {c : Char} (member : c ∈ range.text) :
    c.isDigit = true ∨ c = '.' := by
  cases range with
  | bit index => exact .inl (isDigit_of_mem_decimal member)
  | span hi lo ordered =>
    rcases List.mem_append.mp member with front | low
    · rcases List.mem_append.mp front with high | dots
      · exact .inl (isDigit_of_mem_decimal high)
      · exact .inr (List.eq_of_mem_replicate (n := 2) dots)
    · exact .inl (isDigit_of_mem_decimal low)

end BitRange

namespace FixedPart

/-- A fixed part is read back from its text if its range lies in the word. -/
theorem spells_text {part : FixedPart} (bound : part.range.hi ≤ BitRange.maxIndex) :
    Spells part.text part := by
  have whole := Spells.intro (BitRange.spells_text bound)
    (Literal.spells_decimal part.literal.toNat)
  rwa [List.append_assoc] at whole

theorem mem_text {part : FixedPart} {c : Char} (member : c ∈ part.text) :
    c.isDigit = true ∨ c = '.' ∨ c = '=' := by
  rcases List.mem_append.mp member with inRange | behind
  · exact (BitRange.mem_text inRange).imp_right .inl
  · rcases List.mem_cons.mp behind with equals | inLiteral
    · exact .inr (.inr equals)
    · exact .inl (isDigit_of_mem_decimal inLiteral)

end FixedPart

end OpcodeTable
