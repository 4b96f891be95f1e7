/-
This file says which names of a catalog a table can ever list. A record lists what its tokens
bring, and a token is one word that does not begin with a digit; the name that it brings begins as
the token does and has the same space in it, which is none. So a name with space, without
characters or with a digit in front is never listed, and of the others just those that some token
gives: the names of neither ending and the names of pairs.

Conversely each such name is brought by a token that can be written in a line. Beside it one part
that fixes the two lowest bits is enough for a record under all rules.
-/

import OpcodeTable.Proofs.FieldList
import OpcodeTable.Proofs.Merging
import OpcodeTable.Proofs.Verdict

namespace OpcodeTable

open Text

/-- Some line has a record that lists the name. -/
def Live (catalog : Catalog) (rules : Rules) (name : String) : Prop :=
  ∃ line record, (assembleLine catalog rules line).outcome = .ok (some record) ∧
    name ∈ record.fields

/-- The name has characters and no space, begins with no digit, and ends in neither half or as a
pair does. -/
structure Sayable (name : String) : Prop where
  written : name ≠ ""
  unspaced : ∀ c ∈ name.toList, c.toNat ∉ spaceCodePoints
  free : ∀ c, name.toList.head? = some c → ¬ ('0' ≤ c ∧ c ≤ '9')
  ending : FieldPart.Unhalved name ∨ ∃ base, name = base ++ "hilo"

/-! ### Names and their tokens -/

section

variable {token name : String}

theorem Part.startsFixed_eq_false_iff :
    startsFixed token = false ↔ ∀ c, token.toList.head? = some c → ¬ ('0' ≤ c ∧ c ≤ '9') := by
  unfold startsFixed Char.isDigit
  cases token.toList with
  | nil => simp
  | cons first rest =>
    simp only [List.head?_cons, Option.any_some, Bool.and_eq_false_imp, decide_eq_true_eq,
      decide_eq_false_iff_not, Option.some.injEq, forall_eq', not_and]
    exact Iff.rfl

theorem Part.brings_iff_gives :
    Brings token name ↔ startsFixed token = false ∧ FieldPart.Gives token name := by
  rw [brings_iff, FieldPart.gives_iff, name?]
  cases startsFixed token <;> simp

namespace FieldPart.Gives

theorem startsFixed_eq (gives : Gives token name) :
    Part.startsFixed token = Part.startsFixed name := by
  cases gives with
  | whole _ => rfl
  | pair base =>
    unfold Part.startsFixed
    rw [String.toList_append, String.toList_append]
    cases base.toList <;> rfl

theorem isWord_iff (gives : Gives token name) : IsWord token.toList ↔ IsWord name.toList := by
  cases gives with
  | whole _ => exact Iff.rfl
  | pair base =>
    have letters : ∀ c ∈ "hilo".toList, isSpace c = false := forall_mem_of_all rfl
    have endsInLetters : ∀ c ∈ "hi".toList, isSpace c = false := forall_mem_of_all rfl
    unfold IsWord
    rw [String.toList_append, String.toList_append, List.forall_mem_append,
      List.forall_mem_append, and_iff_left letters, and_iff_left endsInLetters]
    exact and_congr_left fun _ => iff_of_true (by simp) (by simp)

end FieldPart.Gives

theorem sayable_iff :
    Sayable name ↔ IsWord name.toList ∧ Part.startsFixed name = false ∧
      ∃ token, FieldPart.Gives token name := by
  have unspaced : (∀ c ∈ name.toList, isSpace c = false) ↔
      ∀ c ∈ name.toList, c.toNat ∉ spaceCodePoints :=
    forall₂_congr fun c _ => by rw [← isSpace_iff, Bool.not_eq_true]
  rw [FieldPart.exists_gives_iff, Part.startsFixed_eq_false_iff, IsWord, unspaced, ne_eq,
    String.toList_eq_nil_iff]
  exact ⟨fun ⟨written, unspaced, free, ending⟩ => ⟨⟨written, unspaced⟩, free, ending⟩,
    fun ⟨⟨written, unspaced⟩, free, ending⟩ => ⟨written, unspaced, free, ending⟩⟩

/-- A name is sayable when some word brings it. -/
theorem sayable_iff_exists_brings :
    Sayable name ↔ ∃ token, IsWord token.toList ∧ Part.Brings token name := by
  rw [sayable_iff]
  constructor
  · intro ⟨word, free, token, gives⟩
    exact ⟨token, gives.isWord_iff.mpr word,
      Part.brings_iff_gives.mpr ⟨gives.startsFixed_eq.trans free, gives⟩⟩
  · intro ⟨token, word, brings⟩
    obtain ⟨free, gives⟩ := Part.brings_iff_gives.mp brings
    exact ⟨gives.isWord_iff.mp word, gives.startsFixed_eq.symm.trans free, token, gives⟩

end

/-! ### Names and lines -/

section

variable {catalog : Catalog} {rules : Rules} {name : String}

/-- The record of a line lists what the tokens of the line bring. -/
theorem mem_fields_iff {line first : String} {parts : List String} {record : Record}
    (kept : ¬ Skipped (tokens line)) (split : tokens line = first :: parts)
    (found : (assembleLine catalog rules line).outcome = .ok (some record)) :
    name ∈ record.fields ↔ ∃ token ∈ parts, Part.Brings token name := by
  obtain ⟨definition, read, decided⟩ := (outcome_eq_ok_some_iff kept).mp found
  have assembled : (definition.assemble catalog rules).outcome = .ok record := by
    rw [definition.assemble_eq]
    exact decided
  rw [← List.count_pos_iff, Definition.count_fields_tokens assembled read, split, List.tail_cons,
    List.countP_pos_iff]
  simp only [decide_eq_true_eq, Part.brings_iff]

theorem Live.sayable (live : Live catalog rules name) : Sayable name := by
  obtain ⟨line, record, found, listed⟩ := live
  have kept : ¬ Skipped (tokens line) := fun skipped => by
    rw [outcome_of_skipped catalog rules skipped] at found
    cases found
  obtain ⟨first, parts, split⟩ := List.exists_cons_of_ne_nil fun none => kept (.inl none)
  obtain ⟨token, member, brings⟩ := (mem_fields_iff kept split found).mp listed
  have word : IsWord token.toList := isWord_of_mem_tokens (split ▸ List.mem_cons_of_mem _ member)
  exact sayable_iff_exists_brings.mpr ⟨token, word, brings⟩

/-- A definition with the field part of a token, and the two lowest bits fixed. -/
def bearing (token : String) : Definition :=
  ⟨"x", [.field (.ofToken token), .fixed ⟨.bit 1, 1⟩, .fixed ⟨.bit 0, 1⟩]⟩

theorem wellFormed_bearing {token : String} (word : IsWord token.toList)
    (free : Part.startsFixed token = false) : (bearing token).WellFormed := by
  have name : IsWord "x".toList := by decide
  refine ⟨name, fun part member => ?_⟩
  rcases List.mem_cons.mp member with rfl | member
  · exact Part.wellFormed_of_parse word (Part.parse_of_free free)
  · rcases List.mem_pair.mp member with rfl | rfl <;> exact Nat.le_of_ble_eq_true rfl

theorem exists_verdict_bearing {token : String} (gives : FieldPart.Gives token name)
    (listed : name ∈ catalog) (rules : Rules) :
    ∃ record, (bearing token).verdict catalog rules = .ok record ∧ name ∈ record.fields := by
  have names : (bearing token).fieldNames = [name] := by
    have brought : FieldPart.canonicalNames [.ofToken token] = [name] :=
      List.filterMap_cons_some (FieldPart.gives_iff.mp gives)
    exact brought
  have inCatalog : ∀ other ∈ [name], other ∈ catalog := List.forall_mem_singleton.mpr listed
  -- The one name is in the catalog and the opcode is closed, so no rule refuses the definition.
  have sorted : catalog.sort (bearing token).fieldNames = .ok (catalog.arrange [name]) := by
    rw [names]
    exact Catalog.sort_eq_ok_iff.mpr ⟨inCatalog, rfl⟩
  have closed : ¬ (bearing token).LeavesOpen rules := by
    have mask : (bearing token).pattern.mask = 3 := rfl
    rw [Definition.LeavesOpen, mask]
    exact fun ⟨_, leftOpen⟩ => leftOpen rfl
  refine ⟨_, Definition.verdict_eq_ok_iff.mpr ⟨_, sorted, closed, rfl⟩, ?_⟩
  exact (Catalog.arrange_perm_self inCatalog).mem_iff.mpr List.mem_cons_self

theorem Sayable.live (sayable : Sayable name) (listed : name ∈ catalog) (rules : Rules) :
    Live catalog rules name := by
  obtain ⟨token, word, brings⟩ := sayable_iff_exists_brings.mp sayable
  obtain ⟨free, gives⟩ := Part.brings_iff_gives.mp brings
  obtain ⟨record, decided, member⟩ := exists_verdict_bearing gives listed rules
  have well := wellFormed_bearing word free
  have prints := (bearing token).prints_text
  have kept : ¬ Skipped (tokens (String.ofList (bearing token).text)) := by
    rw [prints.tokens well, skipped_cons_iff]
    exact (by decide : ¬ ("x".toList.head? = some '#' ∨ "x".toList.head? = some '$'))
  exact ⟨_, record, (outcome_eq_ok_some_iff kept).mpr ⟨_, prints.parse well, decided⟩, member⟩

end

/-! ### Catalogs -/

/-- The names that records can list. Of the names of any catalog they are the sayable ones,
whatever the rules; so a name that ends as one half of a field does is never listed, unless the two
halves stand behind each other. All names of the RISC-V tables can be listed. -/
theorem live_iff_sayable (rules : Rules) :
    (∀ (catalog : Catalog), ∀ name ∈ catalog, Live catalog rules name ↔ Sayable name) ∧
      (∀ (catalog : Catalog) (base : String), (∀ front, base ≠ front ++ "hi") →
        ¬ Live catalog rules (base ++ "lo")) ∧
      (∀ (catalog : Catalog) (base : String), ¬ Live catalog rules (base ++ "hi")) ∧
      ∀ name ∈ Catalog.riscv, Live .riscv rules name := by
  refine ⟨fun catalog name listed => ⟨Live.sayable, fun sayable => sayable.live listed rules⟩,
    fun catalog base noHigh live => ?_, fun catalog base live => ?_, fun name listed => ?_⟩
  · rcases live.sayable.ending with unhalved | ⟨front, same⟩
    · exact unhalved.2 base rfl
    · rw [FieldPart.append_hilo] at same
      exact noHigh front ((String.append_left_inj "lo").mp same)
  · rcases live.sayable.ending with unhalved | ⟨front, same⟩
    · exact unhalved.1 base rfl
    · rw [FieldPart.append_hilo] at same
      exact FieldPart.append_lo_ne_append_hi _ _ same.symm
  · have plain : ∀ name ∈ Catalog.riscv.names, IsWord name.toList ∧
        Part.startsFixed name = false ∧
        (¬ Half.high.ending <:+ name.toList ∧ ¬ Half.low.ending <:+ name.toList ∨
          "hilo".toList <:+ name.toList) := by
      decide
    obtain ⟨word, free, ending⟩ := plain name listed
    refine (sayable_iff.mpr ⟨word, free, FieldPart.exists_gives_iff.mpr ?_⟩).live listed rules
    rw [FieldPart.suffix_iff, FieldPart.suffix_iff, FieldPart.suffix_iff] at ending
    exact ending.imp_left fun ⟨noHigh, noLow⟩ => ⟨not_exists.mp noHigh, not_exists.mp noLow⟩

/-- A catalog with names that begin or end as parts do. -/
def oddCatalog : Catalog := ⟨["hilo", "x#hilo", "xlo", "xhi", "7lohi", "a\u00a0b"], by decide⟩

theorem live_iff_sayable_oddCatalog :
    "x#hilo" ∈ oddCatalog ∧ Live oddCatalog .mixed "x#hilo" ∧ "xlo" ∈ oddCatalog ∧
      ¬ Live oddCatalog .mixed "xlo" ∧ "a\u00a0b" ∈ oddCatalog ∧
      ¬ Live oddCatalog .mixed "a\u00a0b" ∧ Live .riscv .mixed "imm12hilo" := by
  obtain ⟨same, noLow, _, riscv⟩ := live_iff_sayable .mixed
  have pair : "x#hilo" ∈ oddCatalog := by decide
  have low : "xlo" ∈ oddCatalog := by decide
  have spaced : "a\u00a0b" ∈ oddCatalog := by decide
  refine ⟨pair, (same _ _ pair).mpr (sayable_iff.mpr ⟨by decide, by decide, _, .pair "x#"⟩), low,
    noLow _ "x" fun front ends => ?_, spaced, fun live => ?_, riscv _ (by decide)⟩
  · have suffix : ['h', 'i'] <:+ "x".toList := FieldPart.suffix_iff.mpr ⟨front, ends⟩
    revert suffix
    decide
  · exact ((same _ _ spaced).mp live).unspaced '\u00a0' (by decide) (by decide)

end OpcodeTable
