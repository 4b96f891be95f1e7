/-
This file is about writing definitions down and reading them again. A definition is printed as
its name and the texts of its parts, with space of any kind and length in front of each part. Not
every definition can be printed so that it is read back: a name or a field must be one word, a
field must not begin as a fixed part does, and a field of its own must not end as the half of one
does. A definition that keeps to this is well formed.

Cutting a printed line into its words gives the name and the texts of the parts, since the gaps
are space and the texts hold none, and each of these texts is read as the part that it was
printed from. So printing can be undone for every well-formed definition. Whatever is read from a
line is well formed in turn, hence these are exactly the definitions that a table can say.
-/

import OpcodeTable.Proofs.Layout
import OpcodeTable.Proofs.Numerals
import OpcodeTable.Proofs.Outcome
import OpcodeTable.Proofs.Reading
import OpcodeTable.Proofs.RecordWidth

namespace OpcodeTable

open Text

/-! ### Digits -/

namespace Text

theorem isSpace_of_isDigit {c : Char} (digit : c.isDigit = true) : isSpace c = false := by
  have low : 48 ≤ c.toNat := (Char.isDigit_iff_toNat.mp digit).1
  have high : c.toNat ≤ 57 := (Char.isDigit_iff_toNat.mp digit).2
  have outside : ∀ n < 10, inRanges (48 + n) spaceRanges = false := by decide
  have found := outside (c.toNat - 48) (by omega)
  rwa [Nat.add_sub_cancel' low] at found

end Text

/-! ### Field parts -/

namespace FieldPart

/-- A field of its own does not end as the half of a field does. -/
def Plain (part : FieldPart) : Prop :=
  part.half = .whole →
    ¬ Half.high.ending <:+ part.base.toList ∧ ¬ Half.low.ending <:+ part.base.toList

instance (part : FieldPart) : Decidable part.Plain := inferInstanceAs (Decidable (_ → _ ∧ _))

/-- The field part is one word and cannot be taken for a fixed part or for another field part. -/
structure WellFormed (part : FieldPart) : Prop where
  word : IsWord part.text
  free : part.text.head?.any Char.isDigit = false
  plain : part.Plain

instance (part : FieldPart) : Decidable part.WellFormed :=
  decidable_of_iff (IsWord part.text ∧ part.text.head?.any Char.isDigit = false ∧ part.Plain)
    ⟨fun ⟨word, free, plain⟩ => ⟨word, free, plain⟩,
      fun ⟨word, free, plain⟩ => ⟨word, free, plain⟩⟩

/-- A token is read as the plain part that is printed so. -/
theorem ofToken_eq_iff {token : String} {part : FieldPart} :
    ofToken token = part ↔ part.text = token.toList ∧ part.Plain := by
  constructor
  · rintro rfl
    unfold ofToken
    split
    · next base dropped =>
      refine ⟨?_, fun impossible => nomatch impossible⟩
      rw [text, String.toList_ofList, dropEnding?_eq_some_iff.mp dropped]
    · next keptHigh =>
      split
      · next base dropped =>
        refine ⟨?_, fun impossible => nomatch impossible⟩
        rw [text, String.toList_ofList, dropEnding?_eq_some_iff.mp dropped]
      · next keptLow =>
        exact ⟨List.append_nil _, fun _ =>
          ⟨dropEnding?_eq_none_iff.mp keptHigh, dropEnding?_eq_none_iff.mp keptLow⟩⟩
  · obtain ⟨base, half⟩ := part
    rintro ⟨printed, plain⟩
    have whole : token = base ++ String.ofList half.ending := by
      refine String.toList_inj.mp ?_
      rw [← printed, String.toList_append, String.toList_ofList]
      rfl
    subst whole
    cases half with
    | high => exact ofToken_high base
    | low => exact ofToken_low base
    | whole =>
      have same : base ++ String.ofList Half.whole.ending = base := String.append_empty
      have ⟨noHigh, noLow⟩ := plain rfl
      rw [same, ofToken, dropEnding?_eq_none_iff.mpr noHigh, dropEnding?_eq_none_iff.mpr noLow]

end FieldPart

/-! ### Parts -/

namespace Part

/-- The part can be printed so that it is read back. -/
def WellFormed : Part → Prop
  | .fixed part => part.range.hi ≤ BitRange.maxIndex
  | .field part => part.WellFormed

instance : (part : Part) → Decidable part.WellFormed
  | .fixed part => inferInstanceAs (Decidable (part.range.hi ≤ BitRange.maxIndex))
  | .field part => inferInstanceAs (Decidable part.WellFormed)

theorem WellFormed.word {part : Part} (well : part.WellFormed) : IsWord part.text := by
  cases part with
  | field part => exact FieldPart.WellFormed.word well
  | fixed part =>
    refine ⟨List.append_ne_nil_of_right_ne_nil _ (List.cons_ne_nil _ _), fun c member => ?_⟩
    rcases FixedPart.mem_text member with digit | rfl | rfl
    · exact isSpace_of_isDigit digit
    · rfl
    · rfl

theorem WellFormed.parse {part : Part} (well : part.WellFormed) :
    Part.parse (String.ofList part.text) = .ok part := by
  cases part with
  | fixed part =>
    rw [parse_eq_fixed_iff, String.toList_ofList]
    exact FixedPart.spells_text well
  | field part =>
    have ⟨_, free, plain⟩ : part.WellFormed := well
    have starts : startsFixed (String.ofList part.text) = false := by
      rw [startsFixed, String.toList_ofList, free]
    have read : FieldPart.ofToken (String.ofList part.text) = part :=
      FieldPart.ofToken_eq_iff.mpr ⟨String.toList_ofList.symm, plain⟩
    show Part.parse (String.ofList part.text) = _
    rw [parse_of_free starts, read]

/-- What is read from a word is well formed. -/
theorem wellFormed_of_parse {token : String} {part : Part} (word : IsWord token.toList)
    (read : Part.parse token = .ok part) : part.WellFormed := by
  cases part with
  | fixed part => exact (parse_eq_fixed_iff.mp read).hi_le
  | field part =>
    cases starts : startsFixed token with
    | true =>
      rw [parse_of_startsFixed starts, mapError_eq_ok_iff, map_eq_ok_iff] at read
      obtain ⟨_, _, impossible⟩ := read
      cases impossible
    | false =>
      rw [parse_of_free starts] at read
      have ⟨printed, plain⟩ := FieldPart.ofToken_eq_iff.mp (Part.field.inj (Except.ok.inj read))
      exact ⟨printed ▸ word, printed ▸ starts, plain⟩

end Part

/-! ### Definitions -/

/-- The text is the texts of the parts, each with space in front of it. -/
inductive Printed : List Part → List Char → Prop
  | nil : Printed [] []
  | cons {part : Part} {parts : List Part} {gap rest : List Char} (some : gap ≠ [])
      (space : ∀ c ∈ gap, isSpace c = true) (later : Printed parts rest) :
      Printed (part :: parts) (gap ++ (part.text ++ rest))

theorem Printed.follows {parts : List Part} {rest : List Char} (printed : Printed parts rest) :
    Follows (parts.map Part.text) rest := by
  induction printed with
  | nil => exact .last (List.forall_mem_nil _)
  | cons some space _ inductionHypothesis => exact .word some space inductionHypothesis

theorem Printed.words {parts : List Part} {rest : List Char} (printed : Printed parts rest)
    (well : ∀ part ∈ parts, part.WellFormed) {front : List Char} (word : IsWord front) :
    words (front ++ rest) = front :: parts.map Part.text :=
  printed.follows.words_eq
    (List.forall_mem_map.mpr fun part member => (well part member).word) word

namespace Definition

/-- The definition can be printed so that it is read back. -/
structure WellFormed (definition : Definition) : Prop where
  name : IsWord definition.name.toList
  parts : ∀ part ∈ definition.parts, part.WellFormed

instance (definition : Definition) : Decidable definition.WellFormed :=
  decidable_of_iff
    (IsWord definition.name.toList ∧ ∀ part ∈ definition.parts, part.WellFormed)
    ⟨fun ⟨name, parts⟩ => ⟨name, parts⟩, fun ⟨name, parts⟩ => ⟨name, parts⟩⟩

/-- The line is the name of the definition and then its parts, with space in front of each. -/
def Prints (definition : Definition) (line : String) : Prop :=
  ∃ rest, Printed definition.parts rest ∧ line.toList = definition.name.toList ++ rest

variable {definition : Definition} {line : String}

/-- With one space in front of each part the definition is printed too. -/
theorem prints_text (definition : Definition) :
    definition.Prints (String.ofList definition.text) := by
  refine ⟨definition.parts.flatMap fun part => ' ' :: part.text, ?_, String.toList_ofList⟩
  induction definition.parts with
  | nil => exact .nil
  | cons part parts inductionHypothesis =>
    have space : ∀ c ∈ [' '], isSpace c = true := List.all_eq_true.mp rfl
    exact .cons (List.cons_ne_nil _ _) space inductionHypothesis

theorem Prints.tokens (prints : definition.Prints line) (well : definition.WellFormed) :
    tokens line =
      definition.name :: definition.parts.map fun part => String.ofList part.text := by
  obtain ⟨rest, printed, whole⟩ := prints
  rw [OpcodeTable.tokens, whole, printed.words well.parts well.name, List.map_cons,
    String.ofList_toList, List.map_map]
  rfl

theorem Prints.parse (prints : definition.Prints line) (well : definition.WellFormed) :
    Definition.parse line = .ok definition := by
  refine (parse_eq_ok_iff (prints.tokens well)).mpr ⟨rfl, ?_⟩
  rw [List.map_map]
  exact List.map_congr_left fun part member => (well.parts part member).parse

theorem wellFormed_of_parse (some : OpcodeTable.tokens line ≠ [])
    (read : Definition.parse line = .ok definition) : definition.WellFormed := by
  obtain ⟨name, rest, split⟩ := List.exists_cons_of_ne_nil some
  obtain ⟨rfl, same⟩ := (parse_eq_ok_iff split).mp read
  have word {token : String} (member : token ∈ definition.name :: rest) : IsWord token.toList :=
    isWord_of_mem_tokens (split ▸ member)
  refine ⟨word List.mem_cons_self, fun part member => ?_⟩
  have listed : (.ok part : Except Fault Part) ∈ rest.map Part.parse :=
    same ▸ List.mem_map_of_mem member
  obtain ⟨token, inside, found⟩ := List.mem_map.mp listed
  exact Part.wellFormed_of_parse (word (List.mem_cons_of_mem _ inside)) found

/-- Reading undoes printing. A well-formed definition is read back from every line that it is
printed as, and unless its name begins with the mark of a comment or of a directive, what comes
of that line is what comes of the definition. Conversely, what is read from a line with words is
well formed, so it is read back from whatever it is printed as. -/
theorem parse_undoes_print (definition : Definition) :
    (definition.WellFormed → ∀ line, definition.Prints line →
        Definition.parse line = .ok definition ∧
          (definition.name.toList.head? ≠ some '#' → definition.name.toList.head? ≠ some '$' →
            ∀ catalog rules, assembleLine catalog rules line =
              ⟨.classified .definition line :: (definition.assemble catalog rules).events,
                (definition.assemble catalog rules).outcome.map some⟩)) ∧
      (∀ line, OpcodeTable.tokens line ≠ [] → Definition.parse line = .ok definition →
        definition.WellFormed ∧
          ∀ other, definition.Prints other → Definition.parse other = .ok definition) ∧
      definition.Prints (String.ofList definition.text) := by
  refine ⟨fun well line prints =>
      ⟨prints.parse well, fun noComment noDirective catalog rules => ?_⟩,
    fun line some read => ?_, definition.prints_text⟩
  · have kept : ¬ Skipped (OpcodeTable.tokens line) := by
      rw [prints.tokens well, skipped_cons_iff, not_or]
      exact ⟨noComment, noDirective⟩
    rw [assembleLine_of_read catalog rules (LineKind.ofLine_eq_definition_iff.mpr kept)
      (prints.parse well), definition.assemble_eq]
  · have well := wellFormed_of_parse some read
    exact ⟨well, fun other prints => prints.parse well⟩

/-- A definition with the largest literal and with halves of fields whose names end as halves
do. -/
def contrived : Definition :=
  ⟨"c.#1", [.fixed ⟨.span 31 0 (by decide), 0xffffffffffffffff⟩, .field ⟨"", .high⟩,
    .field ⟨"xhi", .low⟩, .field ⟨"hil", .whole⟩, .fixed ⟨.bit 0, 0⟩]⟩

/-- The definition is printed with a tab, a newline and an ideographic space among its gaps. -/
theorem parse_undoes_print_contrived :
    contrived.WellFormed ∧
      contrived.Prints "c.#1\t31..0=18446744073709551615 hi \n xhilo\u3000hil  0=0" ∧
      Definition.parse "c.#1\t31..0=18446744073709551615 hi \n xhilo\u3000hil  0=0" =
        .ok contrived := by
  have well : contrived.WellFormed := by decide
  have prints :
      contrived.Prints "c.#1\t31..0=18446744073709551615 hi \n xhilo\u3000hil  0=0" := by
    have gap {part : Part} {parts : List Part} {rest gap : List Char} (some : gap ≠ [])
        (space : gap.all isSpace = true) (later : Printed parts rest) :
        Printed (part :: parts) (gap ++ (part.text ++ rest)) :=
      .cons some (List.all_eq_true.mp space) later
    have printed : Printed contrived.parts _ :=
      gap (List.cons_ne_nil '\t' []) rfl <|
        gap (List.cons_ne_nil ' ' []) rfl <|
          gap (List.cons_ne_nil ' ' ['\n', ' ']) rfl <|
            gap (List.cons_ne_nil '\u3000' []) rfl <|
              gap (List.cons_ne_nil ' ' [' ']) rfl .nil
    exact ⟨_, printed, rfl⟩
  exact ⟨well, prints, ((parse_undoes_print contrived).1 well _ prints).1⟩

end Definition

end OpcodeTable
