/-
This file reads struct literals back. Between the fixed texts of such a line stand a quoted name,
two numerals and a list of quoted names. A quoted name is read up to its closing quote whatever it
holds, a numeral ends at the comma behind it, and the list ends at its bracket, so a line is read
in one way only; what is read are the name, the two numbers and the fields of the record.

Which characters are written by their number is left open, so nothing here depends on which of
them count as hidden. The width is not printed. It shows in the number of digits at most, and
these may agree for records of both widths; but records that are emitted under the same rules have
the width that the rules give their value, so the line tells such records apart too.
-/

import OpcodeTable.Proofs.RecordWidth
import OpcodeTable.Proofs.Quotation
import OpcodeTable.Proofs.Writing

namespace OpcodeTable

open Text

/-! ### Quoted names -/

namespace Text

/-- The text begins with the number of a character, up to six hexadecimal digits in braces. -/
inductive BracedNumber : List Char → Char → List Char → Prop
  | intro {digits rest : List Char} {c : Char} (some : digits ≠ []) (few : digits.length ≤ 6)
      (value : Numeral 16 digits c.toNat) :
      BracedNumber ('\x7b' :: (digits ++ '\x7d' :: rest)) c rest

theorem BracedNumber.unique {text rest behind : List Char} {c d : Char}
    (number : BracedNumber text c rest) (other : BracedNumber text d behind) :
    c = d ∧ rest = behind := by
  have digit {n : Nat} {digits : List Char} (value : Numeral 16 digits n) :
      ∀ c ∈ digits, (digitValue? 16 c).isSome = true := fun c member =>
    Option.isSome_iff_exists.mpr (value.digitValue?_of_mem member)
  generalize whole : text = sameText at other
  obtain ⟨_, _, value⟩ := number
  obtain ⟨_, _, valueOther⟩ := other
  obtain ⟨rfl, closed⟩ := run_unique (digit value) (digit valueOther) (.cons rfl _)
    (.cons rfl _) (List.cons.inj whole).2
  exact ⟨Char.toNat_inj.mp (value.unique valueOther), (List.cons.inj closed).2⟩

/-- How the string literals of source code are read. -/
def sourceStrings : Notation where
  Bare c := c ≠ '"' ∧ c ≠ '\\' ∧ c ≠ '\r'
  letters := [('"', '"'), ('\\', '\\'), ('0', '\x00'), ('t', '\t'), ('n', '\n'), ('r', '\r')]
  Number := BracedNumber
  bare_ne := fun ⟨quote, backslash, _⟩ => ⟨quote, backslash⟩
  letter_ne := by decide
  letter_unique := by decide
  number_unique := BracedNumber.unique

namespace QuoteStyle

/-- The style of source code in which the given characters are hidden. -/
def sourceWith (hidden : Char → Bool) : QuoteStyle := { source with byNumber := hidden }

variable (hidden : Char → Bool)

/-- String literals are read as they were written, whatever characters are hidden. -/
theorem sourceWith_fits : (sourceWith hidden).Fits sourceStrings where
  letter := (by decide : ∀ pair ∈ source.letters, (pair.2, pair.1) ∈ sourceStrings.letters)
  number c _ := by
    have valid : c.toNat < 0xD800 ∨ 0xDFFF < c.toNat ∧ c.toNat < 0x110000 := c.valid
    have few : (hex c.toNat).length ≤ 6 :=
      (Nat.length_toDigits_le_iff (by decide) (by decide)).mpr (by omega)
    refine ⟨'\x7b' :: (hex c.toNat ++ ['\x7d']), rfl, fun rest => ?_⟩
    have number : BracedNumber ('\x7b' :: (hex c.toNat ++ '\x7d' :: rest)) c rest :=
      .intro Nat.toDigits_ne_nil few (numeral_hex c.toNat)
    have behind : '\x7b' :: (hex c.toNat ++ ['\x7d']) ++ rest =
        '\x7b' :: (hex c.toNat ++ '\x7d' :: rest) := by
      rw [List.cons_append, List.append_assoc, List.singleton_append]
    rwa [behind]
  bare c unlisted _ := by
    refine ⟨?_, ?_, ?_⟩ <;> rintro rfl <;> cases unlisted

theorem sourceWith_shows : (sourceWith hidden).Shows (· ≠ '\n') where
  quote := by decide
  backslash := by decide
  letter := (by decide : ∀ pair ∈ source.letters, pair.2 ≠ '\n')
  number n c member := by
    rintro rfl
    rcases List.mem_append.mp member with front | last
    · rcases List.mem_append.mp front with mark | digit
      · revert mark
        decide
      · obtain ⟨d, value⟩ := (numeral_hex n).digitValue?_of_mem digit
        cases value
    · revert last
      decide
  bare c unlisted _ := by
    rintro rfl
    cases unlisted

end QuoteStyle

end Text

/-! ### Struct literals -/

/-- What a struct literal says: all of a record but its width. -/
structure StructLiteral where
  name : String
  mask : Nat
  value : Nat
  fields : List String
  deriving DecidableEq, Repr

namespace StructLiteral

/-- The text begins with the names of a list behind the first of them, up to the closing
bracket. -/
inductive MoreNames : List Char → List String → List Char → Prop
  | none {rest : List Char} : MoreNames (']' :: rest) [] rest
  | more {text characters later rest : List Char} {names : List String}
      (quoted : Quoted sourceStrings text characters later)
      (others : MoreNames later names rest) :
      MoreNames (',' :: ' ' :: text) (String.ofList characters :: names) rest

/-- The text begins with the names of a list, up to the closing bracket. -/
inductive Names : List Char → List String → List Char → Prop
  | none {rest : List Char} : Names (']' :: rest) [] rest
  | some {text characters later rest : List Char} {names : List String}
      (quoted : Quoted sourceStrings text characters later)
      (others : MoreNames later names rest) :
      Names text (String.ofList characters :: names) rest

/-- The text is a struct literal. -/
inductive Spells : List Char → StructLiteral → Prop
  | intro {text characters mask value list : List Char} {m v : Nat} {fields : List String}
      (name : Quoted sourceStrings text characters
        (", mask: ".toList ++ (mask ++ (", value: ".toList ++ (value ++
          (", fields: &[".toList ++ list))))))
      (speltMask : Literal.Spells mask m) (speltValue : Literal.Spells value v)
      (names : Names list fields " \x7d,".toList) :
      Spells ("Encoding \x7b name: ".toList ++ text) ⟨String.ofList characters, m, v, fields⟩

theorem MoreNames.unique {text rest behind : List Char} {names others : List String}
    (listed : MoreNames text names rest) (other : MoreNames text others behind) :
    names = others ∧ rest = behind := by
  induction listed generalizing others with
  | none =>
    cases other with
    | none => exact ⟨rfl, rfl⟩
  | more quoted _ inductionHypothesis =>
    cases other with
    | more quotedOther later =>
      obtain ⟨rfl, rfl⟩ := quoted.unique quotedOther
      obtain ⟨rfl, rfl⟩ := inductionHypothesis later
      exact ⟨rfl, rfl⟩

theorem Names.cons {text later rest : List Char} {name : String} {names : List String}
    (quoted : Quoted sourceStrings text name.toList later)
    (others : MoreNames later names rest) : Names text (name :: names) rest := by
  have listed := Names.some quoted others
  rwa [String.ofList_toList] at listed

theorem Names.behind {text rest : List Char} {name : String} {names : List String}
    (listed : Names text (name :: names) rest) :
    MoreNames (',' :: ' ' :: text) (name :: names) rest := by
  cases listed with
  | some quoted others => exact .more quoted others

/-- Quoted names with a comma and a space between them are a list. -/
theorem names_quoteAll (hidden : Char → Bool) (names : List String) (rest : List Char) :
    Names ((QuoteStyle.sourceWith hidden).quoteAll [',', ' '] names ++ ']' :: rest) names rest := by
  cases names with
  | nil => exact .none
  | cons name names =>
    have fits := QuoteStyle.sourceWith_fits hidden
    induction names generalizing name with
    | nil =>
      rw [QuoteStyle.quoteAll_singleton]
      exact .cons (fits.quote name.toList _) .none
    | cons next names inductionHypothesis =>
      rw [QuoteStyle.quoteAll_cons_cons, List.append_assoc]
      exact .cons (fits.quote name.toList _) (inductionHypothesis next).behind

theorem Names.unique {text rest behind : List Char} {names others : List String}
    (listed : Names text names rest) (other : Names text others behind) :
    names = others ∧ rest = behind := by
  cases listed with
  | none =>
    cases other with
    | none => exact ⟨rfl, rfl⟩
    | some quoted _ => exact nomatch quoted
  | some quoted later =>
    cases other with
    | none => exact nomatch quoted
    | some quotedOther laterOther =>
      obtain ⟨rfl, rfl⟩ := quoted.unique quotedOther
      obtain ⟨rfl, rfl⟩ := later.unique laterOther
      exact ⟨rfl, rfl⟩

/-- A literal ends at the comma that the text behind it begins with. -/
theorem literal_unique {text other mark rest behind : List Char} {n m : Nat}
    (comma : mark.head? = some ',') (spelt : Literal.Spells text n)
    (speltOther : Literal.Spells other m)
    (same : text ++ (mark ++ rest) = other ++ (mark ++ behind)) : n = m ∧ rest = behind := by
  obtain ⟨tail, rfl⟩ : ∃ tail, mark = ',' :: tail := List.head?_eq_some_iff.mp comma
  have noComma {text : List Char} {n : Nat} (spelt : Literal.Spells text n) :
      ∀ c ∈ text, decide (c ≠ ',') = true := by
    intro c member
    refine decide_eq_true ?_
    rintro rfl
    exact spelt.not_mem (by decide) (by decide) (by decide) member
  obtain ⟨rfl, behindComma⟩ := run_unique (noComma spelt) (noComma speltOther) (.cons rfl _)
    (.cons rfl _) same
  exact ⟨spelt.unique speltOther, List.append_cancel_left (List.cons.inj behindComma).2⟩

/-- A text is one struct literal at most. -/
theorem Spells.unique {text : List Char} {literal other : StructLiteral}
    (spelt : Spells text literal) (speltOther : Spells text other) : literal = other := by
  generalize whole : text = sameText at speltOther
  obtain ⟨name, mask, value, names⟩ := spelt
  obtain ⟨nameOther, maskOther, valueOther, namesOther⟩ := speltOther
  obtain rfl := List.append_cancel_left whole
  obtain ⟨rfl, behindName⟩ := name.unique nameOther
  obtain ⟨rfl, behindMask⟩ := literal_unique rfl mask maskOther
    (List.append_cancel_left behindName)
  obtain ⟨rfl, rfl⟩ := literal_unique rfl value valueOther behindMask
  obtain ⟨rfl, _⟩ := names.unique namesOther
  rfl

end StructLiteral

/-! ### Lines -/

namespace Record

/-- The record as a struct literal when the given characters are hidden. -/
def sourceLineWith (hidden : Char → Bool) (record : Record) : List Char :=
  let style := QuoteStyle.sourceWith hidden
  "Encoding \x7b name: ".toList ++ style.quote record.name.toList
    ++ ", mask: ".toList ++ '0' :: 'x' :: record.digits record.mask
    ++ ", value: ".toList ++ '0' :: 'x' :: record.digits record.value
    ++ ", fields: &[".toList ++ style.quoteAll [',', ' '] record.fields
    ++ "] \x7d,".toList

theorem sourceLine_eq (record : Record) : record.sourceLine = record.sourceLineWith isHidden := rfl

/-- What the line of a record says. -/
def literal (record : Record) : StructLiteral :=
  ⟨record.name, record.mask.toNat, record.value.toNat, record.fields⟩

theorem spells_sourceLineWith (hidden : Char → Bool) (record : Record) :
    StructLiteral.Spells (record.sourceLineWith hidden) record.literal := by
  have name := (QuoteStyle.sourceWith_fits hidden).quote record.name.toList
  have spelt := StructLiteral.Spells.intro (name _)
    (Literal.spells_paddedHex record.width.hexDigits record.mask.toNat)
    (Literal.spells_paddedHex record.width.hexDigits record.value.toNat)
    (StructLiteral.names_quoteAll hidden record.fields _)
  rw [String.ofList_toList] at spelt
  unfold sourceLineWith
  simp only [List.append_assoc]
  exact spelt

theorem single_sourceLineWith (hidden : Char → Bool) (record : Record) :
    ∀ c ∈ record.sourceLineWith hidden, c ≠ '\n' := by
  have shows := QuoteStyle.sourceWith_shows hidden
  have number (word : Word) : ∀ c ∈ '0' :: 'x' :: record.digits word, c ≠ '\n' := by
    rintro c member rfl
    exact (Literal.spells_paddedHex record.width.hexDigits word.toNat).not_mem (by decide)
      (by decide) (by decide) member
  unfold sourceLineWith
  simp only [List.forall_mem_append, and_assoc]
  exact ⟨forall_mem_of_all rfl, fun _ => shows.mem_quote, forall_mem_of_all rfl, number _,
    forall_mem_of_all rfl, number _, forall_mem_of_all rfl,
    fun _ => shows.mem_quoteAll (forall_mem_of_all rfl), forall_mem_of_all rfl⟩

/-- A mask or a value is read back from its digits. They are its numeral, filled up to as many
digits as the width asks for and never cut. -/
theorem digits_spec (record : Record) (word : Word) :
    Literal.parse (String.ofList ('0' :: 'x' :: record.digits word)) = .ok (word.setWidth 64) ∧
      hex word.toNat <:+ record.digits word ∧
      (record.digits word).length = max record.width.hexDigits (hex word.toNat).length := by
  refine ⟨(Literal.parse_eq_ok_iff _ _).mpr ?_, List.leftpad_suffix .., List.length_leftpad ..⟩
  rw [String.toList_ofList, BitVec.toNat_setWidth_of_le (by decide)]
  exact Literal.spells_paddedHex _ _

/-- The line determines everything but the width, whatever characters are hidden in it. -/
theorem eq_of_sourceLineWith_eq {hidden hiddenOther : Char → Bool} {record other : Record}
    (same : record.sourceLineWith hidden = other.sourceLineWith hiddenOther) :
    record.name = other.name ∧ record.mask = other.mask ∧ record.value = other.value ∧
      record.fields = other.fields := by
  have spelt := record.spells_sourceLineWith hidden
  rw [same] at spelt
  have literals := spelt.unique (other.spells_sourceLineWith hiddenOther)
  simp only [literal, StructLiteral.mk.injEq, BitVec.toNat_inj] at literals
  exact literals

theorem eq_of_width_eq {record other : Record} (width : record.width = other.width)
    (rest : record.name = other.name ∧ record.mask = other.mask ∧ record.value = other.value ∧
      record.fields = other.fields) : record = other := by
  obtain ⟨⟨mask, value⟩, name, fields, _⟩ := record
  obtain ⟨⟨maskOther, valueOther⟩, nameOther, fieldsOther, _⟩ := other
  obtain ⟨rfl, rfl, rfl, rfl⟩ := rest
  obtain rfl := width
  rfl

end Record

/-- The width of an emitted record is the one that the rules give its value. -/
theorem Emits.width_eq {catalog : Catalog} {rules : Rules} {text : String} {record : Record}
    (emitted : Emits catalog rules text record) :
    record.width = rules.widthRule.width record.value := by
  obtain ⟨_, _, definition, _, found⟩ := emitted.definition
  obtain ⟨fields, _, _, rfl⟩ := Definition.verdict_eq_ok_iff.mp found
  rfl

/-- The output in struct literals is a text with one line for each record, in their order, and
each line is the struct literal with the name, the numbers and the fields of its record and no
other. The digits of the numbers are filled up and never cut. So records with the same line agree
in all but the width, and are the same if they agree in the width or are emitted under the same
rules. Apart from the first statement, this holds whatever characters are hidden. -/
theorem source_output :
    (∀ records, decodeUtf8? (Layout.source.output records) =
        some (String.ofList (closedLines (records.map (Record.sourceLineWith isHidden))))) ∧
      (∀ hidden (records : List Record),
        (closedLines (records.map (Record.sourceLineWith hidden))).splitOn '\n' =
          records.map (Record.sourceLineWith hidden) ++ [[]]) ∧
      (∀ hidden (record : Record) literal,
        StructLiteral.Spells (record.sourceLineWith hidden) literal ↔ literal = record.literal) ∧
      (∀ (record : Record) word,
        Literal.parse (String.ofList ('0' :: 'x' :: record.digits word)) =
            .ok (word.setWidth 64) ∧
          hex word.toNat <:+ record.digits word ∧
          (record.digits word).length = max record.width.hexDigits (hex word.toNat).length) ∧
      ∀ hidden hiddenOther (record other : Record),
        record.sourceLineWith hidden = other.sourceLineWith hiddenOther →
          (record.name = other.name ∧ record.mask = other.mask ∧ record.value = other.value ∧
            record.fields = other.fields) ∧
          (record.width = other.width → record = other) ∧
          ∀ catalog catalogOther rules text textOther, Emits catalog rules text record →
            Emits catalogOther rules textOther other → record = other := by
  have lines : Layout.source.line = Record.sourceLineWith isHidden := funext Record.sourceLine_eq
  refine ⟨fun records => ?_, fun hidden records => ?_,
    fun hidden record literal => ⟨fun spelt => ?_, fun same => ?_⟩, Record.digits_spec,
    fun hidden hiddenOther record other same => ?_⟩
  · rw [← lines]
    exact Layout.source.decodeUtf8?_output records
  · refine splitOn_closedLines fun line member newline => ?_
    obtain ⟨record, _, rfl⟩ := List.mem_map.mp member
    exact record.single_sourceLineWith hidden '\n' newline rfl
  · exact spelt.unique (record.spells_sourceLineWith hidden)
  · exact same ▸ record.spells_sourceLineWith hidden
  · have told := Record.eq_of_sourceLineWith_eq same
    refine ⟨told, fun width => Record.eq_of_width_eq width told,
      fun _ _ rules _ _ emitted emittedOther => Record.eq_of_width_eq ?_ told⟩
    rw [emitted.width_eq, emittedOther.width_eq, told.2.2.1]

/-- Two records that differ in the width alone may have the same line. -/
example : (Record.mk ⟨0x10000003, 0x10000003⟩ "nop" [] .compact).sourceLine =
    (Record.mk ⟨0x10000003, 0x10000003⟩ "nop" [] .wide).sourceLine := rfl

end OpcodeTable
