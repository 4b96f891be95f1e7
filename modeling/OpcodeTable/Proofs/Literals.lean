/-
This file says exactly what comes of a text that is read as a literal. A digit is told by its
character and a run of digits by its positional value, so what a literal spells is said here
without the reader: its base mark, its digits and underscores, and the number they stand for.

Of every text one of four things is true. It spells a number that 64 bits hold, and is read as
that number; it spells a larger one; it is no literal because it begins with a zero, as a number in
base eight might; or it is no literal for another reason. The reader makes its checks one after
the other, and underscores are dropped before the last two of them, so the work is to see that
each check refuses the texts of its kind and no others. Each kind has wording of its own, and the
wording shows the whole text.
-/

import Mathlib.Data.List.Forall2
import Mathlib.Data.Nat.Digits.Defs
import OpcodeTable.Proofs.Numerals

namespace OpcodeTable

/-! ### What digits are worth -/

namespace Text

/-- The character is a digit of the base, in either case, and worth the number. -/
def IsDigitOf (base : Nat) (c : Char) (worth : Nat) : Prop :=
  worth < base ∧ (c = worth.digitChar ∨ c = worth.digitChar.toUpper)

/-- A digit is below the first character that is not ASCII. -/
theorem toNat_lt_of_hexDigitValue? {c : Char} {worth : Nat}
    (digit : hexDigitValue? c = some worth) : c.toNat < 128 := by
  have bound (high : Char) (small : high.toNat < 128) (below : c ≤ high) : c.toNat < 128 :=
    Nat.lt_of_le_of_lt (UInt32.le_iff_toNat_le.mp below) small
  unfold hexDigitValue? at digit
  simp only [Bool.and_eq_true, decide_eq_true_eq] at digit
  split at digit
  · next inside => exact bound '9' (by decide) inside.2
  · split at digit
    · next inside => exact bound 'f' (by decide) inside.2
    · split at digit
      · next inside => exact bound 'F' (by decide) inside.2
      · cases digit

theorem digitValue?_eq_some_iff {base : Nat} (known : base ≤ 16) {c : Char} {worth : Nat} :
    digitValue? base c = some worth ↔ IsDigitOf base c worth := by
  have ascii : ∀ n < 128, ∀ worth ∈ hexDigitValue? (Char.ofNat n),
      Char.ofNat n = worth.digitChar ∨ Char.ofNat n = worth.digitChar.toUpper := by decide
  have both : ∀ worth < 16, hexDigitValue? worth.digitChar = some worth ∧
      hexDigitValue? worth.digitChar.toUpper = some worth := by decide
  rw [digitValue?, Option.filter_eq_some_iff, decide_eq_true_eq, and_comm]
  refine and_congr_right fun small => ⟨fun digit => ?_, ?_⟩
  · have spelt := ascii c.toNat (toNat_lt_of_hexDigitValue? digit) worth
    rw [Char.ofNat_toNat] at spelt
    exact spelt digit
  · obtain ⟨lower, upper⟩ := both worth (Nat.lt_of_lt_of_le small known)
    rintro (rfl | rfl)
    · exact lower
    · exact upper

/-- What follows a number is read as the digits that it is worth. -/
theorem appendDigits?_eq_some_iff {base : Nat} (known : base ≤ 16) {text : List Char}
    {before n : Nat} :
    appendDigits? base before text = some n ↔ ∃ worths, List.Forall₂ (IsDigitOf base) text worths ∧
      n = worths.foldl (fun sum worth => worth + base * sum) before := by
  induction text generalizing before with
  | nil => simp only [appendDigits?, Option.some.injEq, List.forall₂_nil_left_iff, exists_eq_left,
      List.foldl_nil, eq_comm]
  | cons c rest inductionHypothesis =>
    simp only [appendDigits?, Option.bind_eq_some_iff, digitValue?_eq_some_iff known,
      inductionHypothesis, List.forall₂_cons_left_iff]
    constructor
    · rintro ⟨worth, digit, worths, digits, rfl⟩
      exact ⟨worth :: worths, ⟨worth, worths, digit, digits, rfl⟩, by rw [Nat.add_comm]; rfl⟩
    · rintro ⟨_, ⟨worth, worths, digit, digits, rfl⟩, rfl⟩
      exact ⟨worth, digit, worths, digits, by rw [Nat.add_comm]; rfl⟩

/-- A numeral is a run of digits, and what it spells is their positional value. -/
theorem numeral_iff {base : Nat} (known : base ≤ 16) {text : List Char} {n : Nat} :
    Numeral base text n ↔ ∃ worths, List.Forall₂ (IsDigitOf base) text worths ∧
      n = Nat.ofDigits base worths.reverse := by
  simp only [← digitsValue?_eq_some_iff, digitsValue?, appendDigits?_eq_some_iff known,
    Nat.ofDigits_eq_foldr, List.foldr_reverse, Nat.cast_id]

end Text

open Text

namespace Literal

/-! ### What a literal spells -/

/-- The mark and the digits of a literal are where the reader cuts. -/
theorem spells_iff {text digits : List Char} {base n : Nat} (cut : radix text = (base, digits)) :
    Spells text n ↔ Digits base digits n := by
  constructor
  · intro spelt
    generalize same : text = whole at spelt
    cases spelt with
    | intro named spelt =>
      rw [same, radix_append named spelt.zero] at cut
      obtain ⟨rfl, rfl⟩ := Prod.mk.inj cut
      exact spelt
  · intro spelt
    obtain ⟨mark, named, rfl⟩ := baseMark_of_radix cut
    exact .intro named spelt

theorem BaseMark.le_sixteen {mark : List Char} {base : Nat} (named : BaseMark mark base) :
    base ≤ 16 := by
  cases named <;> decide

/-- The number of a literal is the positional value of its digits. -/
theorem spells_iff_ofDigits {text : List Char} {n : Nat} :
    Spells text n ↔ ∃ mark base digits worths, BaseMark mark base ∧ text = mark ++ digits ∧
      digits ≠ [] ∧ digits.head? ≠ some '_' ∧ digits.getLast? ≠ some '_' ∧
      (base = 10 → digits.head? = some '0' → digits = ['0']) ∧
      List.Forall₂ (IsDigitOf base) (digits.filter (· ≠ '_')) worths ∧
      n = Nat.ofDigits base worths.reverse := by
  constructor
  · rintro ⟨named, nonempty, head, last, zero, value⟩
    obtain ⟨worths, digits, same⟩ := (numeral_iff named.le_sixteen).mp value
    exact ⟨_, _, _, worths, named, rfl, nonempty, head, last, zero, digits, same⟩
  · rintro ⟨mark, base, digits, worths, named, rfl, nonempty, head, last, zero, spelt, same⟩
    have value := (numeral_iff named.le_sixteen).mpr ⟨worths, spelt, same⟩
    exact .intro named ⟨nonempty, head, last, zero, value⟩

/-! ### Zeros in front -/

/-- The text has no base mark and begins with a zero, and yet it is not zero: behind the zero
stands more than underscores. -/
structure ZeroLed (text : List Char) : Prop where
  unmarked : ∀ mark base, BaseMark mark base → mark <+: text → mark = []
  head : text.head? = some '0'
  last : text.getLast? ≠ some '_'
  further : ∃ c ∈ text.tail, c ≠ '_'

theorem radix_of_unmarked {text : List Char}
    (unmarked : ∀ mark base, BaseMark mark base → mark <+: text → mark = []) :
    radix text = (10, text) := by
  cases cut : radix text with
  | mk base digits =>
    obtain ⟨mark, named, rfl⟩ := baseMark_of_radix cut
    have none := unmarked mark base named (List.prefix_append mark digits)
    subst none
    cases named
    rfl

theorem unmarked_of_radix {text digits : List Char} (cut : radix text = (10, digits))
    (mark : List Char) (base : Nat) (named : BaseMark mark base) (front : mark <+: text) :
    mark = [] := by
  obtain ⟨rest, rfl⟩ := front
  cases named with
  | decimal => rfl
  | hex | capitalHex | binary | capitalBinary | octal | capitalOctal => cases cut

/-- The checks that refuse a text for the zero in front are those of the notation. -/
theorem zeroLed_iff {text digits : List Char} {base : Nat} (cut : radix text = (base, digits)) :
    ZeroLed text ↔ wellEnclosed digits = true ∧
      (base = 10 && hasLeadingZero (digits.filter (· ≠ '_'))) = true := by
  rw [Bool.and_eq_true, decide_eq_true_eq]
  constructor
  · intro ⟨unmarked, head, last, c, member, letter⟩
    obtain ⟨rfl, rfl⟩ := Prod.mk.inj (cut.symm.trans (radix_of_unmarked unmarked))
    obtain ⟨rest, rfl⟩ := List.head?_eq_some_iff.mp head
    have enclosed : wellEnclosed ('0' :: rest) = true :=
      (wellEnclosed_iff _).mpr ⟨List.cons_ne_nil _ _, by simp, last⟩
    refine ⟨enclosed, rfl, ?_⟩
    rw [← Bool.not_eq_false, hasLeadingZero_filter enclosed]
    intro alone
    rw [(List.cons.inj (alone head)).2] at member
    cases member
  · rintro ⟨enclosed, rfl, led⟩
    have unmarked := unmarked_of_radix cut
    obtain ⟨-, rfl⟩ := Prod.mk.inj (cut.symm.trans (radix_of_unmarked unmarked))
    have ⟨nonempty, _, last⟩ := (wellEnclosed_iff digits).mp enclosed
    rw [← Bool.not_eq_false, hasLeadingZero_filter enclosed, Classical.not_imp] at led
    obtain ⟨head, more⟩ := led
    obtain ⟨rest, rfl⟩ := List.head?_eq_some_iff.mp head
    have some : rest ≠ [] := fun none => more (by rw [none])
    refine ⟨unmarked, head, last, rest.getLast some, List.getLast_mem some, fun same => last ?_⟩
    rw [List.getLast?_eq_some_getLast nonempty, List.getLast_cons some, same]

/-! ### What is refused -/

/-- Why a text is refused: the number that it spells is too large, or it spells none. -/
inductive Refuses (text : String) : LiteralFault → Prop
  | tooLarge {n : Nat} (spelt : Spells text.toList n) (large : UInt64.size ≤ n) :
      Refuses text (.tooLarge text)
  | leadingZero (led : ZeroLed text.toList) : Refuses text (.leadingZero text)
  | malformed (unspelt : ∀ n, ¬ Spells text.toList n) (unled : ¬ ZeroLed text.toList) :
      Refuses text (.malformed text)

/-- A text that is refused for its zero spells nothing. -/
theorem ZeroLed.not_spells {text : List Char} (led : ZeroLed text) (n : Nat) : ¬ Spells text n := by
  cases cut : radix text with
  | mk base digits =>
    rw [spells_iff cut, digits_iff]
    rintro ⟨_, unambiguous, _⟩
    rw [zeroLed_iff cut, unambiguous] at led
    exact Bool.false_ne_true led.2

theorem Refuses.unique {text : String} {fault other : LiteralFault} (refused : Refuses text fault)
    (otherwise : Refuses text other) : fault = other := by
  cases refused with
  | tooLarge spelt _ =>
    cases otherwise with
    | tooLarge _ _ => rfl
    | leadingZero led => exact absurd spelt (led.not_spells _)
    | malformed unspelt _ => exact absurd spelt (unspelt _)
  | leadingZero led =>
    cases otherwise with
    | tooLarge spelt _ => exact absurd spelt (led.not_spells _)
    | leadingZero _ => rfl
    | malformed _ unled => exact absurd led unled
  | malformed unspelt unled =>
    cases otherwise with
    | tooLarge spelt _ => exact absurd spelt (unspelt _)
    | leadingZero led => exact absurd led unled
    | malformed _ _ => rfl

theorem Refuses.not_ok {text : String} {fault : LiteralFault} (refused : Refuses text fault)
    (value : BitVec 64) : parse text ≠ .ok value := by
  rw [ne_eq, parse_eq_ok_iff]
  intro spelt
  cases refused with
  | tooLarge other large =>
    rw [← spelt.unique other] at large
    exact Nat.not_lt.mpr large value.isLt
  | leadingZero led => exact led.not_spells _ spelt
  | malformed unspelt _ => exact unspelt _ spelt

theorem refuses_of_parse {text : String} {fault : LiteralFault}
    (failed : parse text = .error fault) : Refuses text fault := by
  cases cut : radix text.toList with
  | mk base digits =>
  have spells (n : Nat) := (spells_iff cut).trans (digits_iff base digits n)
  rw [parse, cut] at failed
  dsimp only at failed
  split at failed
  · next loose =>
    rw [Bool.not_eq_true'] at loose
    rw [← Except.error.inj failed]
    refine .malformed (fun n spelt => ?_) fun led => ?_
    · exact Bool.false_ne_true (loose.symm.trans ((spells n).mp spelt).1)
    · exact Bool.false_ne_true (loose.symm.trans ((zeroLed_iff cut).mp led).1)
  · next enclosed =>
    rw [Bool.not_eq_true', Bool.not_eq_false] at enclosed
    split at failed
    · next led =>
      rw [← Except.error.inj failed]
      exact .leadingZero ((zeroLed_iff cut).mpr ⟨enclosed, led⟩)
    · next unambiguous =>
      split at failed
      · next unread =>
        rw [← Except.error.inj failed]
        refine .malformed (fun n spelt => ?_) fun led => ?_
        · cases unread.symm.trans ((spells n).mp spelt).2.2
        · exact unambiguous ((zeroLed_iff cut).mp led).2
      · next n found =>
        split at failed
        · cases failed
        · next large =>
          rw [← Except.error.inj failed]
          exact .tooLarge
            ((spells n).mpr ⟨enclosed, Bool.eq_false_iff.mpr unambiguous, found⟩)
            (Nat.le_of_not_lt large)

/-- Reading fails as the notation says, and what the notation refuses is not read. -/
theorem parse_eq_error_iff {text : String} {fault : LiteralFault} :
    parse text = .error fault ↔ Refuses text fault := by
  refine ⟨refuses_of_parse, fun refused => ?_⟩
  cases read : parse text with
  | ok value => exact absurd read (refused.not_ok value)
  | error other => rw [(refuses_of_parse read).unique refused]

theorem exists_parse_iff {text : String} {n : Nat} :
    (∃ value, parse text = .ok value ∧ value.toNat = n) ↔
      Spells text.toList n ∧ n < UInt64.size := by
  simp only [parse_eq_ok_iff]
  constructor
  · rintro ⟨value, spelt, rfl⟩
    exact ⟨spelt, value.isLt⟩
  · rintro ⟨spelt, small⟩
    have held : (BitVec.ofNat 64 n).toNat = n := Nat.mod_eq_of_lt small
    exact ⟨BitVec.ofNat 64 n, held.symm ▸ spelt, held⟩

end Literal

/-! ### Wording -/

namespace LiteralFault

/-- What is said of a number that 64 bits cannot hold. -/
def tooLargeEnding : String := "number too large to fit in target type"

theorem toList_malformed (text : String) :
    (malformed text).message.toList =
      "invalid number '".toList ++ text.toList ++ "'".toList := by
  change ("invalid number '" ++ text ++ "'").toList = _
  rw [String.toList_append, String.toList_append]

theorem toList_leadingZero (text : String) :
    (leadingZero text).message.toList =
      "leading zero in decimal number '".toList ++ text.toList ++ "'".toList := by
  change ("leading zero in decimal number '" ++ text ++ "'").toList = _
  rw [String.toList_append, String.toList_append]

theorem toList_tooLarge (text : String) :
    (tooLarge text).message.toList =
      "invalid number '".toList ++ text.toList ++ "': ".toList ++ tooLargeEnding.toList := by
  change ("invalid number '" ++ text ++ "': number too large to fit in target type").toList = _
  rw [String.toList_append, String.toList_append, List.append_assoc _ "': ".toList]
  rfl

/-- The wording of a number that is too large is the only one that does not end in a quote. -/
theorem message_ends_iff {fault : LiteralFault} :
    tooLargeEnding.toList <:+ fault.message.toList ↔ ∃ text, fault = .tooLarge text := by
  have quoted {front : List Char} (ends : tooLargeEnding.toList <:+ front ++ "'".toList) :
      False := by
    obtain ⟨before, whole⟩ := ends
    have last := congrArg List.getLast? whole
    rw [List.getLast?_append_of_ne_nil _ (by decide), List.getLast?_append_of_ne_nil _ (by decide)]
      at last
    exact absurd last (by decide)
  constructor
  · intro ends
    cases fault with
    | malformed text =>
      rw [toList_malformed] at ends
      exact (quoted ends).elim
    | leadingZero text =>
      rw [toList_leadingZero] at ends
      exact (quoted ends).elim
    | tooLarge text => exact ⟨text, rfl⟩
  · rintro ⟨text, rfl⟩
    rw [toList_tooLarge]
    exact List.suffix_append _ _

/-- Faults that are worded alike are the same. -/
theorem message_inj {fault other : LiteralFault} (same : fault.message = other.message) :
    fault = other := by
  have letters := congrArg String.toList same
  have alike : (∃ text, fault = .tooLarge text) ↔ ∃ text, other = .tooLarge text := by
    rw [← message_ends_iff, ← message_ends_iff, same]
  have apart (front back rest more : List Char) :
      "invalid number '".toList ++ front ++ back ≠
        "leading zero in decimal number '".toList ++ rest ++ more :=
    fun whole => absurd (congrArg List.head? whole) (by simp)
  cases fault with
  | malformed text =>
    cases other with
    | malformed otherText =>
      rw [toList_malformed, toList_malformed, List.append_cancel_right_eq,
        List.append_cancel_left_eq, String.toList_inj] at letters
      rw [letters]
    | leadingZero otherText =>
      rw [toList_malformed, toList_leadingZero] at letters
      exact absurd letters (apart _ _ _ _)
    | tooLarge otherText => exact nomatch alike.mpr ⟨otherText, rfl⟩
  | leadingZero text =>
    cases other with
    | malformed otherText =>
      rw [toList_malformed, toList_leadingZero] at letters
      exact absurd letters.symm (apart _ _ _ _)
    | leadingZero otherText =>
      rw [toList_leadingZero, toList_leadingZero, List.append_cancel_right_eq,
        List.append_cancel_left_eq, String.toList_inj] at letters
      rw [letters]
    | tooLarge otherText => exact nomatch alike.mpr ⟨otherText, rfl⟩
  | tooLarge text =>
    obtain ⟨otherText, rfl⟩ := alike.mp ⟨text, rfl⟩
    rw [toList_tooLarge, toList_tooLarge, List.append_cancel_right_eq, List.append_cancel_right_eq,
      List.append_cancel_left_eq, String.toList_inj] at letters
    rw [letters]

end LiteralFault

/-! ### The verdict on a text -/

namespace Literal

/-- A text is refused in the wording of a fault just when it has that fault. -/
theorem worded_iff (text : String) (fault : LiteralFault) :
    (∃ own, parse text = .error own ∧ own.message = fault.message) ↔ Refuses text fault := by
  rw [← parse_eq_error_iff]
  constructor
  · rintro ⟨own, failed, same⟩
    rwa [← LiteralFault.message_inj same]
  · exact fun failed => ⟨fault, failed, rfl⟩

/-- What comes of a text that is read as a literal. It is read as the number that it spells if 64
bits can hold that number, and otherwise the wording of the refusal tells which texts it is one
of. -/
theorem literal_verdict (text : String) :
    let limit := 2 ^ 64 - 1
    let refusedAs (message : String) :=
      ∃ fault, parse text = .error fault ∧ fault.message = message
    let tooLarge := "invalid number '" ++ text ++ "': number too large to fit in target type"
    let leadingZero := "leading zero in decimal number '" ++ text ++ "'"
    let malformed := "invalid number '" ++ text ++ "'"
    (∀ n, Spells text.toList n ↔ ∃ mark base digits worths, BaseMark mark base ∧
        text.toList = mark ++ digits ∧ digits ≠ [] ∧ digits.head? ≠ some '_' ∧
        digits.getLast? ≠ some '_' ∧ (base = 10 → digits.head? = some '0' → digits = ['0']) ∧
        List.Forall₂ (IsDigitOf base) (digits.filter (· ≠ '_')) worths ∧
        n = Nat.ofDigits base worths.reverse) ∧
      (∀ n, (∃ value, parse text = .ok value ∧ value.toNat = n) ↔
        Spells text.toList n ∧ n ≤ limit) ∧
      ((∃ fault, parse text = .error fault ∧
          "number too large to fit in target type".toList <:+ fault.message.toList) ↔
        ∃ n, Spells text.toList n ∧ limit < n) ∧
      (refusedAs leadingZero ↔ ZeroLed text.toList) ∧
      (refusedAs malformed ↔ (∀ n, ¬ Spells text.toList n) ∧ ¬ ZeroLed text.toList) ∧
      ∀ fault, parse text = .error fault →
        fault.message ∈ [tooLarge, leadingZero, malformed] := by
  intro limit refusedAs tooLarge leadingZero malformed
  have above (n : Nat) : limit < n ↔ UInt64.size ≤ n := Nat.lt_iff_add_one_le
  have below (n : Nat) : n ≤ limit ↔ n < UInt64.size := Nat.lt_add_one_iff.symm
  refine ⟨fun n => spells_iff_ofDigits, fun n => ?_, ?_, ?_, ?_, fun fault failed => ?_⟩
  · rw [exists_parse_iff, below]
  · simp only [parse_eq_error_iff, above]
    constructor
    · rintro ⟨fault, refused, ends⟩
      obtain ⟨other, rfl⟩ := LiteralFault.message_ends_iff.mp ends
      cases refused with
      | tooLarge spelt large => exact ⟨_, spelt, large⟩
    · rintro ⟨n, spelt, large⟩
      exact ⟨_, .tooLarge spelt large, LiteralFault.message_ends_iff.mpr ⟨text, rfl⟩⟩
  · refine (worded_iff text (.leadingZero text)).trans ⟨fun refused => ?_, .leadingZero⟩
    cases refused with
    | leadingZero led => exact led
  · refine (worded_iff text (.malformed text)).trans
      ⟨fun refused => ?_, fun ⟨unspelt, unled⟩ => .malformed unspelt unled⟩
    cases refused with
    | malformed unspelt unled => exact ⟨unspelt, unled⟩
  · cases parse_eq_error_iff.mp failed with
    | tooLarge _ _ => exact List.mem_cons_self
    | leadingZero _ => exact List.mem_cons_of_mem _ List.mem_cons_self
    | malformed _ _ => exact List.mem_cons_of_mem _ (List.mem_cons_of_mem _ List.mem_cons_self)

-- The zero in front is found before the letter that is no digit.
example : parse "0z" = .error (.leadingZero "0z") := rfl

end Literal

end OpcodeTable
