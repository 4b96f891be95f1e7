/-
This file holds the grammar of JSON texts as RFC 8259 gives it, and shows that it reads no text
in two ways. A production is a relation between a text, the value that it begins with, and how
it goes on. Space may stand around every value and every mark, a number may have a sign, a
fraction and an exponent, and a string may spell any character by its number, those above U+FFFF
by two surrogates.

All productions but two end where their own characters say so. Space and numbers end where the
text goes on differently, and since a value is followed by space, a comma or a closing bracket,
none of which can stand in a number, it is settled how far they reach. With that, two readings
of one text are compared production by production.
-/

import Mathlib.Algebra.Field.Rat
import OpcodeTable.Proofs.Quotation

namespace OpcodeTable

open Text

/-- The values that JSON texts stand for. The members of an object keep their order. -/
inductive Json where
  | null
  | bool (value : Bool)
  | number (value : Rat)
  | string (value : String)
  | array (items : List Json)
  | object (members : List (String × Json))

namespace Json

/-! ### Strings -/

/-- Four hexadecimal digits with the given value. -/
structure FourDigits (digits : List Char) (n : Nat) : Prop where
  four : digits.length = 4
  value : Numeral 16 digits n

/-- The text begins with the number of a character: four digits that are no surrogate, or a high
and a low surrogate. -/
inductive CodePoint : List Char → Char → List Char → Prop
  | single {digits rest : List Char} {c : Char} (spelt : FourDigits digits c.toNat) :
      CodePoint (digits ++ rest) c rest
  | pair {first second rest : List Char} {high low : Nat} {c : Char}
      (speltHigh : FourDigits first high) (isHigh : 0xD800 ≤ high ∧ high ≤ 0xDBFF)
      (speltLow : FourDigits second low) (isLow : 0xDC00 ≤ low ∧ low ≤ 0xDFFF)
      (joined : c.toNat = 0x10000 + 0x400 * (high - 0xD800) + (low - 0xDC00)) :
      CodePoint (first ++ '\\' :: 'u' :: (second ++ rest)) c rest

theorem FourDigits.unique {digits other rest behind : List Char} {n m : Nat}
    (spelt : FourDigits digits n) (speltOther : FourDigits other m)
    (same : digits ++ rest = other ++ behind) : n = m ∧ rest = behind := by
  obtain ⟨rfl, rest⟩ := List.append_inj same (spelt.four.trans speltOther.four.symm)
  exact ⟨spelt.value.unique speltOther.value, rest⟩

/-- No character is a surrogate. -/
theorem not_surrogate (c : Char) : ¬ (0xD800 ≤ c.toNat ∧ c.toNat ≤ 0xDBFF) := by
  rintro ⟨low, high⟩
  have valid : c.toNat < 0xD800 ∨ 0xDFFF < c.toNat ∧ c.toNat < 0x110000 := c.valid
  omega

theorem CodePoint.unique {text rest behind : List Char} {c d : Char}
    (spelt : CodePoint text c rest) (other : CodePoint text d behind) : c = d ∧ rest = behind := by
  generalize whole : text = sameText at other
  cases spelt with
  | single spelt =>
    cases other with
    | single speltOther =>
      obtain ⟨number, rfl⟩ := spelt.unique speltOther whole
      exact ⟨Char.toNat_inj.mp number, rfl⟩
    | pair speltHigh isHigh _ _ _ =>
      obtain ⟨rfl, _⟩ := spelt.unique speltHigh whole
      exact absurd isHigh (not_surrogate c)
  | pair speltHigh isHigh speltLow _ joined =>
    cases other with
    | single speltOther =>
      obtain ⟨rfl, _⟩ := speltHigh.unique speltOther whole
      exact absurd isHigh (not_surrogate d)
    | pair speltOther _ speltLowOther _ joinedOther =>
      obtain ⟨rfl, behindHigh⟩ := speltHigh.unique speltOther whole
      have behindMark := (List.cons.inj (List.cons.inj behindHigh).2).2
      obtain ⟨rfl, rfl⟩ := speltLow.unique speltLowOther behindMark
      exact ⟨Char.toNat_inj.mp (joined.trans joinedOther.symm), rfl⟩

/-- How strings are read. -/
def strings : Notation where
  Bare c := 0x20 ≤ c.toNat ∧ c ≠ '"' ∧ c ≠ '\\'
  letters := [('"', '"'), ('\\', '\\'), ('/', '/'), ('b', '\x08'), ('f', '\x0c'), ('n', '\n'),
    ('r', '\r'), ('t', '\t')]
  Number := CodePoint
  bare_ne := fun allowed => allowed.2
  letter_ne := by decide
  letter_unique := by decide
  number_unique := CodePoint.unique

/-! ### Numbers -/

/-- The characters that numbers are made of. -/
def isNumeric (c : Char) : Bool :=
  c.isDigit || c = '+' || c = '-' || c = '.' || c = 'e' || c = 'E'

/-- A run of digits. -/
structure Digits (text : List Char) (n : Nat) : Prop where
  nonempty : text ≠ []
  value : Numeral 10 text n

/-- The part in front of the point has no leading zero. -/
structure Whole (text : List Char) (n : Nat) : Prop extends Digits text n where
  zero : text.head? = some '0' → text = ['0']

/-- What may stand in front of a number. -/
def signs : List (List Char × Int) := [([], 1), (['-'], -1)]

/-- What may stand in front of an exponent. -/
def exponentSigns : List (List Char × Int) := (['+'], 1) :: signs

/-- The text is the point and the digits behind it, or empty. -/
inductive Fraction : List Char → Rat → Prop
  | none : Fraction [] 0
  | some {digits : List Char} {n : Nat} (spelt : Digits digits n) :
      Fraction ('.' :: digits) (n / 10 ^ digits.length)

/-- The text is the exponent of a number, or empty, and the value is the power of ten that it
stands for. -/
inductive Exponent : List Char → Rat → Prop
  | none : Exponent [] 1
  | some {mark : Char} {sign digits : List Char} {factor : Int} {n : Nat}
      (marked : mark = 'e' ∨ mark = 'E') (signed : (sign, factor) ∈ exponentSigns)
      (spelt : Digits digits n) : Exponent (mark :: (sign ++ digits)) (10 ^ (factor * n))

/-- The text is a number. -/
inductive Number : List Char → Rat → Prop
  | intro {sign whole fraction exponent : List Char} {factor : Int} {part scale : Rat} {n : Nat}
      (signed : (sign, factor) ∈ signs) (spelt : Whole whole n)
      (fractional : Fraction fraction part) (scaled : Exponent exponent scale) :
      Number (sign ++ (whole ++ (fraction ++ exponent))) (factor * (n + part) * scale)

theorem Digits.isDigit_of_mem {text : List Char} {n : Nat} (spelt : Digits text n) {c : Char}
    (member : c ∈ text) : c.isDigit = true := by
  obtain ⟨d, digit⟩ := spelt.value.digitValue?_of_mem member
  exact isDigit_of_digitValue? digit

theorem Digits.unique {text other rest behind : List Char} {n m : Nat} (spelt : Digits text n)
    (speltOther : Digits other m) (ends : Ends Char.isDigit rest)
    (endsOther : Ends Char.isDigit behind) (same : text ++ rest = other ++ behind) :
    n = m ∧ rest = behind := by
  obtain ⟨rfl, rest⟩ := run_unique (fun _ => spelt.isDigit_of_mem)
    (fun _ => speltOther.isDigit_of_mem) ends endsOther same
  exact ⟨spelt.value.unique speltOther.value, rest⟩

/-- A sign ends where the digits begin. -/
theorem Digits.ends_sign {text : List Char} {n : Nat} (spelt : Digits text n)
    (rest : List Char) : Ends (fun c => !c.isDigit) (text ++ rest) := by
  intro c first
  obtain ⟨head, tail, rfl⟩ := List.exists_cons_of_ne_nil spelt.nonempty
  rw [← Option.some.inj first]
  dsimp only
  rw [spelt.isDigit_of_mem List.mem_cons_self]
  rfl

/-- A sign is told by the digits behind it. -/
theorem sign_unique {sign other text behind : List Char} {factor factorOther : Int}
    (signed : (sign, factor) ∈ exponentSigns) (signedOther : (other, factorOther) ∈ exponentSigns)
    (ends : Ends (fun c => !c.isDigit) text) (endsOther : Ends (fun c => !c.isDigit) behind)
    (same : sign ++ text = other ++ behind) : factor = factorOther ∧ text = behind := by
  have noDigit : ∀ pair ∈ exponentSigns, pair.1.all (!·.isDigit) = true := by decide
  obtain ⟨rfl, rest⟩ := run_unique (List.all_eq_true.mp (noDigit _ signed))
    (List.all_eq_true.mp (noDigit _ signedOther)) ends endsOther same
  have apart : (exponentSigns.map Prod.fst).Nodup := by decide
  exact ⟨congrArg Prod.snd (List.inj_on_of_nodup_map apart signed signedOther rfl), rest⟩

theorem Exponent.unique {text : List Char} {scale scaleOther : Rat}
    (scaled : Exponent text scale) (other : Exponent text scaleOther) : scale = scaleOther := by
  generalize whole : text = sameText at other
  cases scaled with
  | none =>
    cases other with
    | none => rfl
    | some _ _ _ => cases whole
  | some _ signed spelt =>
    cases other with
    | none => cases whole
    | some _ signedOther speltOther =>
      have behind := (List.cons.inj whole).2
      have ends := spelt.ends_sign []
      have endsOther := speltOther.ends_sign []
      rw [List.append_nil] at ends endsOther
      obtain ⟨rfl, rfl⟩ := sign_unique signed signedOther ends endsOther behind
      rw [spelt.value.unique speltOther.value]

/-- The characters that the part of a number in front of its exponent is made of. -/
def isDecimal (c : Char) : Bool := c.isDigit || c = '.'

theorem Exponent.ends {text : List Char} {scale : Rat} (scaled : Exponent text scale) :
    Ends isDecimal text := by
  intro c first
  cases scaled with
  | none => cases first
  | some marked _ _ =>
    rw [← Option.some.inj first]
    rcases marked with rfl | rfl <;> rfl

theorem isDecimal_of_isDigit (c : Char) (digit : c.isDigit = true) : isDecimal c = true := by
  rw [isDecimal, digit, Bool.true_or]

theorem Fraction.ends {fraction text : List Char} {part : Rat}
    (fractional : Fraction fraction part) (ends : Ends isDecimal text) :
    Ends Char.isDigit (fraction ++ text) := by
  cases fractional with
  | none => exact ends.mono isDecimal_of_isDigit
  | some _ =>
    intro c first
    rw [← Option.some.inj first]
    rfl

theorem Fraction.unique {fraction other text behind : List Char} {part partOther : Rat}
    (fractional : Fraction fraction part) (fractionalOther : Fraction other partOther)
    (ends : Ends isDecimal text) (endsOther : Ends isDecimal behind)
    (same : fraction ++ text = other ++ behind) : part = partOther ∧ text = behind := by
  cases fractional with
  | none =>
    cases fractionalOther with
    | none => exact ⟨rfl, same⟩
    | some _ =>
      rw [List.nil_append] at same
      exact absurd (ends '.' (same ▸ rfl)) (by decide)
  | some spelt =>
    cases fractionalOther with
    | none =>
      rw [List.nil_append] at same
      exact absurd (endsOther '.' (same ▸ rfl)) (by decide)
    | some speltOther =>
      have digits := run_unique (fun _ => spelt.isDigit_of_mem) (fun _ => speltOther.isDigit_of_mem)
        (ends.mono isDecimal_of_isDigit) (endsOther.mono isDecimal_of_isDigit)
        (List.cons.inj same).2
      obtain ⟨rfl, rest⟩ := digits
      rw [spelt.value.unique speltOther.value]
      exact ⟨rfl, rest⟩

/-- A text stands for one number at most. -/
theorem Number.unique {text : List Char} {value other : Rat} (number : Number text value)
    (numberOther : Number text other) : value = other := by
  generalize whole : text = sameText at numberOther
  obtain ⟨signed, spelt, fractional, scaled⟩ := number
  obtain ⟨signedOther, speltOther, fractionalOther, scaledOther⟩ := numberOther
  obtain ⟨rfl, behindSign⟩ := sign_unique (List.mem_cons_of_mem _ signed)
    (List.mem_cons_of_mem _ signedOther) (spelt.ends_sign _) (speltOther.ends_sign _) whole
  obtain ⟨rfl, behindWhole⟩ := spelt.toDigits.unique speltOther.toDigits
    (fractional.ends scaled.ends) (fractionalOther.ends scaledOther.ends) behindSign
  obtain ⟨rfl, rfl⟩ := fractional.unique fractionalOther scaled.ends scaledOther.ends behindWhole
  rw [scaled.unique scaledOther]

theorem Number.isNumeric_of_mem {text : List Char} {value : Rat} (number : Number text value)
    {c : Char} (member : c ∈ text) : isNumeric c = true := by
  have ofDigit {c : Char} (digit : c.isDigit = true) : isNumeric c = true := by
    simp only [isNumeric, digit, Bool.true_or]
  have ofSign : ∀ pair ∈ exponentSigns, pair.1.all isNumeric = true := by decide
  obtain ⟨signed, spelt, fractional, scaled⟩ := number
  rcases List.mem_append.mp member with inSign | behindSign
  · exact List.all_eq_true.mp (ofSign _ (List.mem_cons_of_mem _ signed)) c inSign
  rcases List.mem_append.mp behindSign with inWhole | behindWhole
  · exact ofDigit (spelt.isDigit_of_mem inWhole)
  rcases List.mem_append.mp behindWhole with inFraction | inExponent
  · cases fractional with
    | none => cases inFraction
    | some spelt =>
      rcases List.mem_cons.mp inFraction with rfl | digit
      · rfl
      · exact ofDigit (spelt.isDigit_of_mem digit)
  · cases scaled with
    | none => cases inExponent
    | some marked signed spelt =>
      rcases List.mem_cons.mp inExponent with rfl | behindMark
      · rcases marked with rfl | rfl <;> rfl
      · rcases List.mem_append.mp behindMark with inSign | digit
        · exact List.all_eq_true.mp (ofSign _ signed) c inSign
        · exact ofDigit (spelt.isDigit_of_mem digit)

/-- A number begins with its sign or a digit. -/
theorem Number.head {text : List Char} {value : Rat} (number : Number text value) :
    ∃ c rest, text = c :: rest ∧ (c = '-' ∨ c.isDigit = true) := by
  obtain ⟨signed, spelt, _, _⟩ := number
  obtain ⟨first, rest, rfl⟩ := List.exists_cons_of_ne_nil spelt.nonempty
  rcases List.mem_cons.mp signed with plain | minus
  · obtain ⟨rfl, _⟩ := Prod.mk.inj plain
    exact ⟨first, _, rfl, .inr (spelt.isDigit_of_mem List.mem_cons_self)⟩
  · obtain ⟨rfl, _⟩ := Prod.mk.inj (List.mem_singleton.mp minus)
    exact ⟨'-', _, rfl, .inl rfl⟩

/-! ### Values -/

/-- The characters that space is made of. -/
def isBlank (c : Char) : Bool := c = ' ' || c = '\t' || c = '\n' || c = '\r'

/-- The text begins with any number of blanks. -/
inductive Space : List Char → List Char → Prop
  | none {rest : List Char} : Space rest rest
  | more {c : Char} {text rest : List Char} (blank : isBlank c = true)
      (later : Space text rest) : Space (c :: text) rest

mutual

/-- The text begins with a value. -/
inductive Value : List Char → Json → List Char → Prop
  | null {rest : List Char} : Value ('n' :: 'u' :: 'l' :: 'l' :: rest) .null rest
  | truth {rest : List Char} : Value ('t' :: 'r' :: 'u' :: 'e' :: rest) (.bool true) rest
  | falsity {rest : List Char} :
      Value ('f' :: 'a' :: 'l' :: 's' :: 'e' :: rest) (.bool false) rest
  | number {text digits rest : List Char} {value : Rat} (spelt : Number digits value)
      (whole : text = digits ++ rest) : Value text (.number value) rest
  | string {text characters rest : List Char} (spelt : Spelt strings text characters rest) :
      Value ('"' :: text) (.string (String.ofList characters)) rest
  | emptyArray {text rest : List Char} (space : Space text (']' :: rest)) :
      Value ('[' :: text) (.array []) rest
  | array {text rest : List Char} {items : List Json} (listed : Items text items rest) :
      Value ('[' :: text) (.array items) rest
  | emptyObject {text rest : List Char} (space : Space text ('\x7d' :: rest)) :
      Value ('\x7b' :: text) (.object []) rest
  | object {text rest : List Char} {members : List (String × Json)}
      (listed : Members text members rest) : Value ('\x7b' :: text) (.object members) rest

/-- The text begins with the values of an array, up to the closing bracket. -/
inductive Items : List Char → List Json → List Char → Prop
  | last {text rest : List Char} {item : Json} (element : Element text item (']' :: rest)) :
      Items text [item] rest
  | more {text later rest : List Char} {item : Json} {items : List Json}
      (element : Element text item (',' :: later)) (listed : Items later items rest) :
      Items text (item :: items) rest

/-- The text begins with a value and the space around it. -/
inductive Element : List Char → Json → List Char → Prop
  | intro {text start stop rest : List Char} {value : Json} (before : Space text start)
      (read : Value start value stop) (behind : Space stop rest) : Element text value rest

/-- The text begins with the members of an object, up to the closing bracket. -/
inductive Members : List Char → List (String × Json) → List Char → Prop
  | last {text rest : List Char} {member : String × Json}
      (read : Member text member ('\x7d' :: rest)) : Members text [member] rest
  | more {text later rest : List Char} {member : String × Json} {members : List (String × Json)}
      (read : Member text member (',' :: later)) (listed : Members later members rest) :
      Members text (member :: members) rest

/-- The text begins with a name, a colon and a value, and the space around them. -/
inductive Member : List Char → String × Json → List Char → Prop
  | intro {text start stop later rest characters : List Char} {value : Json}
      (before : Space text start) (name : Quoted strings start characters stop)
      (colon : Space stop (':' :: later)) (element : Element later value rest) :
      Member text (String.ofList characters, value) rest

end

/-! ### One reading -/

theorem Space.unique {text rest behind : List Char} (space : Space text rest)
    (other : Space text behind) (ends : Ends isBlank rest) (endsOther : Ends isBlank behind) :
    rest = behind := by
  induction space with
  | none =>
    cases other with
    | none => rfl
    | more blank _ => exact absurd (ends _ rfl) (by rw [blank]; decide)
  | more blank _ inductionHypothesis =>
    cases other with
    | none => exact absurd (endsOther _ rfl) (by rw [blank]; decide)
    | more _ later => exact inductionHypothesis later ends

/-- The text is at its end or begins with a mark that closes a value. -/
def Closes (text : List Char) : Prop := ∀ c ∈ text.head?, c = ',' ∨ c = ']' ∨ c = '\x7d'

theorem Closes.comma (rest : List Char) : Closes (',' :: rest) :=
  fun _ first => .inl (Option.some.inj first).symm

theorem Closes.bracket (rest : List Char) : Closes (']' :: rest) :=
  fun _ first => .inr (.inl (Option.some.inj first).symm)

theorem Closes.brace (rest : List Char) : Closes ('\x7d' :: rest) :=
  fun _ first => .inr (.inr (Option.some.inj first).symm)

theorem Closes.ends {text : List Char} (closes : Closes text) : Ends isBlank text := by
  intro c first
  rcases closes c first with rfl | rfl | rfl <;> rfl

/-- No blank and no closing mark stands in a number. -/
theorem Space.ends {text rest : List Char} (space : Space text rest) (closes : Closes rest) :
    Ends isNumeric text := by
  intro c first
  cases space with
  | none => rcases closes c first with rfl | rfl | rfl <;> rfl
  | more blank _ =>
    obtain rfl := Option.some.inj first
    unfold isBlank at blank
    simp only [Bool.or_eq_true, decide_eq_true_eq] at blank
    rcases blank with ((rfl | rfl) | rfl) | rfl <;> rfl

/-- The characters that values begin with. -/
def startsValue (c : Char) : Bool :=
  c.isDigit || c ∈ ['-', 'n', 't', 'f', '"', '[', '\x7b']

theorem Value.head {text rest : List Char} {value : Json} (read : Value text value rest) :
    ∃ c behind, text = c :: behind ∧ startsValue c = true := by
  cases read with
  | number spelt whole =>
    obtain ⟨c, later, rfl, begins⟩ := spelt.head
    refine ⟨c, _, whole, ?_⟩
    rcases begins with rfl | digit
    · rfl
    · rw [startsValue, digit, Bool.true_or]
  | _ => exact ⟨_, _, rfl, rfl⟩

theorem Value.ends {text rest : List Char} {value : Json} (read : Value text value rest) :
    Ends isBlank text := by
  obtain ⟨first, behind, rfl, begins⟩ := read.head
  refine .cons (Bool.eq_false_iff.mpr fun blank => ?_) behind
  unfold isBlank at blank
  simp only [Bool.or_eq_true, decide_eq_true_eq] at blank
  rcases blank with ((rfl | rfl) | rfl) | rfl <;> cases begins

/-- What stands behind the space in front of an element begins a value. -/
theorem Element.startsValue {text rest behind : List Char} {value : Json} {c : Char}
    (element : Element text value rest) (space : Space text (c :: behind))
    (solid : isBlank c = false) : startsValue c = true := by
  obtain ⟨before, read, _⟩ := element
  obtain rfl := before.unique space read.ends (.cons solid behind)
  obtain ⟨first, _, same, begins⟩ := read.head
  rw [(List.cons.inj same).1]
  exact begins

theorem Items.startsValue {text rest behind : List Char} {items : List Json} {c : Char}
    (listed : Items text items rest) (space : Space text (c :: behind))
    (solid : isBlank c = false) : Json.startsValue c = true := by
  cases listed with
  | last element => exact element.startsValue space solid
  | more element _ => exact element.startsValue space solid

theorem Member.startsName {text rest behind : List Char} {member : String × Json} {c : Char}
    (read : Member text member rest) (space : Space text (c :: behind))
    (solid : isBlank c = false) : c = '"' := by
  obtain ⟨before, name, _, _⟩ := read
  obtain ⟨spelt⟩ := name
  have same := before.unique space (.cons rfl _) (.cons solid behind)
  exact (List.cons.inj same).1.symm

theorem Members.startsName {text rest behind : List Char} {members : List (String × Json)}
    {c : Char} (listed : Members text members rest) (space : Space text (c :: behind))
    (solid : isBlank c = false) : c = '"' := by
  cases listed with
  | last read => exact read.startsName space solid
  | more read _ => exact read.startsName space solid

/-- Where a number may begin nothing but a number does, and it is settled where it ends. -/
theorem Number.only {digits text rest behind : List Char} {value : Rat} {other : Json}
    (number : Number digits value) (whole : text = digits ++ rest)
    (read : Value text other behind) (ends : Ends isNumeric rest)
    (endsOther : Ends isNumeric behind) : .number value = other ∧ rest = behind := by
  have first {c : Char} {later : List Char} (same : c :: later = digits ++ rest) :
      c = '-' ∨ c.isDigit = true := by
    obtain ⟨d, tail, rfl, begins⟩ := number.head
    rwa [(List.cons.inj same).1]
  cases read with
  | number numberOther wholeOther =>
    obtain ⟨rfl, rfl⟩ := run_unique (fun _ => number.isNumeric_of_mem)
      (fun _ => numberOther.isNumeric_of_mem) ends endsOther (whole.symm.trans wholeOther)
    exact ⟨congrArg _ (number.unique numberOther), rfl⟩
  | _ => exact absurd (first whole) (by decide)

-- The recursion is on the first of the two readings. Numbers are compared before all else, since
-- no first character tells them apart; the other productions differ in theirs.
mutual

theorem Value.unique {text rest behind : List Char} {value other : Json} :
    Value text value rest → Value text other behind → Ends isNumeric rest →
      Ends isNumeric behind → value = other ∧ rest = behind
  | .number spelt whole, second, ends, endsOther => spelt.only whole second ends endsOther
  | first, .number spelt whole, ends, endsOther =>
    (spelt.only whole first endsOther ends).imp Eq.symm Eq.symm
  | .null, .null, _, _ => ⟨rfl, rfl⟩
  | .truth, .truth, _, _ => ⟨rfl, rfl⟩
  | .falsity, .falsity, _, _ => ⟨rfl, rfl⟩
  | .string spelt, .string speltOther, _, _ => by
    obtain ⟨rfl, rfl⟩ := spelt.unique speltOther
    exact ⟨rfl, rfl⟩
  | .emptyArray space, .emptyArray spaceOther, _, _ => by
    have same := space.unique spaceOther (.cons rfl _) (.cons rfl _)
    exact ⟨rfl, (List.cons.inj same).2⟩
  | .emptyArray space, .array listed, _, _ => nomatch listed.startsValue space rfl
  | .array listed, .emptyArray space, _, _ => nomatch listed.startsValue space rfl
  | .array listed, .array listedOther, _, _ => by
    obtain ⟨rfl, rfl⟩ := Items.unique listed listedOther
    exact ⟨rfl, rfl⟩
  | .emptyObject space, .emptyObject spaceOther, _, _ => by
    have same := space.unique spaceOther (.cons rfl _) (.cons rfl _)
    exact ⟨rfl, (List.cons.inj same).2⟩
  | .emptyObject space, .object listed, _, _ => nomatch listed.startsName space rfl
  | .object listed, .emptyObject space, _, _ => nomatch listed.startsName space rfl
  | .object listed, .object listedOther, _, _ => by
    obtain ⟨rfl, rfl⟩ := Members.unique listed listedOther
    exact ⟨rfl, rfl⟩
termination_by structural first => first

theorem Items.unique {text rest behind : List Char} {items others : List Json} :
    Items text items rest → Items text others behind → items = others ∧ rest = behind
  | .last element, .last elementOther => by
    obtain ⟨rfl, same⟩ := Element.unique element elementOther (.bracket _) (.bracket _)
    exact ⟨rfl, (List.cons.inj same).2⟩
  | .last element, .more elementOther _ => by
    obtain ⟨_, same⟩ := Element.unique element elementOther (.bracket _) (.comma _)
    exact nomatch (List.cons.inj same).1
  | .more element _, .last elementOther => by
    obtain ⟨_, same⟩ := Element.unique element elementOther (.comma _) (.bracket _)
    exact nomatch (List.cons.inj same).1
  | .more element listed, .more elementOther listedOther => by
    obtain ⟨rfl, same⟩ := Element.unique element elementOther (.comma _) (.comma _)
    obtain rfl := (List.cons.inj same).2
    obtain ⟨rfl, rfl⟩ := Items.unique listed listedOther
    exact ⟨rfl, rfl⟩
termination_by structural first => first

theorem Element.unique {text rest behind : List Char} {value other : Json} :
    Element text value rest → Element text other behind → Closes rest → Closes behind →
      value = other ∧ rest = behind
  | .intro before read after, .intro beforeOther readOther afterOther, closes, closesOther => by
    obtain rfl := before.unique beforeOther read.ends readOther.ends
    obtain ⟨rfl, rfl⟩ := Value.unique read readOther (after.ends closes)
      (afterOther.ends closesOther)
    exact ⟨rfl, after.unique afterOther closes.ends closesOther.ends⟩
termination_by structural first => first

theorem Members.unique {text rest behind : List Char} {members others : List (String × Json)} :
    Members text members rest → Members text others behind → members = others ∧ rest = behind
  | .last read, .last readOther => by
    obtain ⟨rfl, same⟩ := Member.unique read readOther (.brace _) (.brace _)
    exact ⟨rfl, (List.cons.inj same).2⟩
  | .last read, .more readOther _ => by
    obtain ⟨_, same⟩ := Member.unique read readOther (.brace _) (.comma _)
    exact nomatch (List.cons.inj same).1
  | .more read _, .last readOther => by
    obtain ⟨_, same⟩ := Member.unique read readOther (.comma _) (.brace _)
    exact nomatch (List.cons.inj same).1
  | .more read listed, .more readOther listedOther => by
    obtain ⟨rfl, same⟩ := Member.unique read readOther (.comma _) (.comma _)
    obtain rfl := (List.cons.inj same).2
    obtain ⟨rfl, rfl⟩ := Members.unique listed listedOther
    exact ⟨rfl, rfl⟩
termination_by structural first => first

theorem Member.unique {text rest behind : List Char} {member other : String × Json} :
    Member text member rest → Member text other behind → Closes rest → Closes behind →
      member = other ∧ rest = behind
  | .intro before name colon element, .intro beforeOther nameOther colonOther elementOther,
      closes, closesOther => by
    obtain ⟨spelt⟩ := name
    obtain ⟨speltOther⟩ := nameOther
    have begun := before.unique beforeOther (.cons rfl _) (.cons rfl _)
    obtain rfl := (List.cons.inj begun).2
    obtain ⟨rfl, rfl⟩ := spelt.unique speltOther
    have behindColon := colon.unique colonOther (.cons rfl _) (.cons rfl _)
    obtain rfl := (List.cons.inj behindColon).2
    obtain ⟨rfl, rfl⟩ := Element.unique element elementOther closes closesOther
    exact ⟨rfl, rfl⟩
termination_by structural first => first

end

/-- The whole text stands for the value. -/
def Reads (text : List Char) (value : Json) : Prop := Element text value []

/-- A text stands for one value at most. -/
theorem Reads.unique {text : List Char} {value other : Json} (reads : Reads text value)
    (readsOther : Reads text other) : value = other :=
  (Element.unique reads readsOther (fun _ impossible => nomatch impossible)
    fun _ impossible => nomatch impossible).1

end Json

end OpcodeTable
