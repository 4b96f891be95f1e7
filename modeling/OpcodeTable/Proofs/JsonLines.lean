/-
This file reads JSON output back. The style in which names are quoted fits the strings of the
JSON grammar, and a number is written as its decimal numeral, so the line of a record stands for
an object with the members of the record; as a text stands for one value at most, it stands for
nothing else. The style writes every control character below the space by letters and digits.
No newline is therefore left inside a line, and cutting the output at its newlines gives back
the lines.

An output that is read line by line in this way determines the records it was written from.
-/

import Mathlib.Data.List.Forall2
import OpcodeTable.Proofs.Json
import OpcodeTable.Proofs.RecordWidth
import OpcodeTable.Proofs.Writing

namespace OpcodeTable

open Text

/-! ### Quoted names -/

namespace Text.QuoteStyle

/-- The strings of JSON are read as they were written. -/
theorem json_fits : QuoteStyle.json.Fits Json.strings where
  letter := by decide
  number c numbered := by
    have small : c.toNat < 0x20 := of_decide_eq_true numbered
    have four : (paddedHex 4 c.toNat).length = 4 :=
      (length_paddedHex_eq_iff (by decide)).mpr (Nat.lt_trans small (by decide))
    exact ⟨_, rfl, fun _ => .single ⟨four, numeral_paddedHex 4 c.toNat⟩⟩
  bare c unlisted plain := by
    refine ⟨Nat.le_of_not_lt (of_decide_eq_false plain), ?_, ?_⟩
    · rintro rfl
      cases unlisted
    · rintro rfl
      cases unlisted

theorem json_shows : QuoteStyle.json.Shows (0x20 ≤ ·.toNat) where
  quote := by decide
  backslash := by decide
  letter := by decide
  number n c member := by
    rcases List.mem_cons.mp member with rfl | digit
    · decide
    · obtain ⟨d, value⟩ := (numeral_paddedHex 4 n).digitValue?_of_mem digit
      exact visible_of_digitValue? value
  bare _ _ plain := Nat.le_of_not_lt (of_decide_eq_false plain)

end Text.QuoteStyle

/-! ### Values -/

namespace Json

/-- A natural number as its decimal numeral. -/
theorem number_decimal (n : Nat) : Number (decimal n) n := by
  have whole : Whole (decimal n) n :=
    ⟨⟨Nat.toDigits_ne_nil, numeral_decimal n⟩, fun zero => by
      rw [head_toDigits (by decide) zero]
      rfl⟩
  have spelt := Number.intro (List.mem_cons_self : ([], 1) ∈ signs) whole .none .none
  simpa using spelt

theorem value_quote (name : String) (rest : List Char) :
    Value (QuoteStyle.json.quote name.toList ++ rest) (.string name) rest := by
  have ofQuoted {text characters rest : List Char} (quoted : Quoted strings text characters rest) :
      Value text (.string (String.ofList characters)) rest := by
    obtain ⟨spelt⟩ := quoted
    exact .string spelt
  have value := ofQuoted (QuoteStyle.json_fits.quote name.toList rest)
  rwa [String.ofList_toList] at value

theorem items_quoteAll (name : String) (names : List String) (rest : List Char) :
    Items (QuoteStyle.json.quoteAll [','] (name :: names) ++ ']' :: rest)
      ((name :: names).map .string) rest := by
  induction names generalizing name with
  | nil =>
    rw [QuoteStyle.quoteAll_singleton]
    exact .last (.intro .none (value_quote name _) .none)
  | cons next names inductionHypothesis =>
    rw [QuoteStyle.quoteAll_cons_cons, List.append_assoc]
    exact .more (.intro .none (value_quote name _) .none) (inductionHypothesis next)

theorem value_quoteAll (names : List String) (rest : List Char) :
    Value ('[' :: (QuoteStyle.json.quoteAll [','] names ++ ']' :: rest))
      (.array (names.map .string)) rest := by
  cases names with
  | nil => exact .emptyArray .none
  | cons name names => exact .array (items_quoteAll name names rest)

theorem member_quote {name : String} {value : Json} {text rest : List Char}
    (read : Value text value rest) :
    Member (QuoteStyle.json.quote name.toList ++ ':' :: text) (name, value) rest := by
  have member := Member.intro .none (QuoteStyle.json_fits.quote name.toList (':' :: text)) .none
    (.intro .none read .none)
  rwa [String.ofList_toList] at member

end Json

/-! ### Lines -/

namespace Record

/-- The value that the line of a record stands for. -/
def json (record : Record) : Json :=
  .object [("name", .string record.name), ("mask", .number record.mask.toNat),
    ("value", .number record.value.toNat), ("width", .number record.width.bits),
    ("fields", .array (record.fields.map .string))]

theorem eq_of_json_eq {record other : Record} (same : record.json = other.json) :
    record = other := by
  obtain ⟨⟨mask, value⟩, name, fields, width⟩ := record
  obtain ⟨⟨maskOther, valueOther⟩, nameOther, fieldsOther, widthOther⟩ := other
  simp only [json, Json.object.injEq, List.cons.injEq, Prod.mk.injEq, Json.string.injEq,
    Json.number.injEq, Json.array.injEq, Rat.natCast_inj, BitVec.toNat_inj, true_and,
    and_true] at same
  obtain ⟨rfl, rfl, rfl, bits, names⟩ := same
  obtain rfl := (List.map_inj_right fun _ _ => Json.string.inj).mp names
  cases width <;> cases widthOther <;> first | rfl | cases bits

theorem jsonLine_eq (record : Record) :
    record.jsonLine =
      '\x7b' :: (QuoteStyle.json.quote "name".toList ++ ':' ::
        (QuoteStyle.json.quote record.name.toList ++ ',' ::
      (QuoteStyle.json.quote "mask".toList ++ ':' :: (decimal record.mask.toNat ++ ',' ::
      (QuoteStyle.json.quote "value".toList ++ ':' :: (decimal record.value.toNat ++ ',' ::
      (QuoteStyle.json.quote "width".toList ++ ':' :: (decimal record.width.bits ++ ',' ::
      (QuoteStyle.json.quote "fields".toList ++ ':' :: '[' ::
        (QuoteStyle.json.quoteAll [','] record.fields ++ ']' :: ['\x7d'])))))))))) := by
  unfold jsonLine
  simp only [List.append_assoc]
  rfl

theorem reads_jsonLine (record : Record) : Json.Reads record.jsonLine record.json := by
  have number (n : Nat) (rest : List Char) :
      Json.Value (decimal n ++ rest) (.number n) rest := .number (Json.number_decimal n) rfl
  rw [jsonLine_eq]
  refine .intro .none (.object ?_) .none
  exact .more (Json.member_quote (Json.value_quote record.name _))
    (.more (Json.member_quote (number record.mask.toNat _))
      (.more (Json.member_quote (number record.value.toNat _))
        (.more (Json.member_quote (number record.width.bits _))
          (.last (Json.member_quote (Json.value_quoteAll record.fields _))))))

theorem visible_jsonLine (record : Record) : ∀ c ∈ record.jsonLine, 0x20 ≤ c.toNat := by
  have shows := QuoteStyle.json_shows
  have name (characters : List Char) :
      ∀ c ∈ QuoteStyle.json.quote characters, 0x20 ≤ c.toNat := fun _ => shows.mem_quote
  have names (texts : List String) :
      ∀ c ∈ QuoteStyle.json.quoteAll [','] texts, 0x20 ≤ c.toNat :=
    fun _ => shows.mem_quoteAll (forall_mem_of_all rfl)
  have number (n : Nat) : ∀ c ∈ decimal n, 0x20 ≤ c.toNat := fun c digit =>
    Nat.le_trans (by decide) (Char.isDigit_iff_toNat.mp (isDigit_of_mem_decimal digit)).1
  unfold jsonLine
  simp only [List.forall_mem_append, and_assoc]
  exact ⟨forall_mem_of_all rfl, name _, forall_mem_of_all rfl, number _, forall_mem_of_all rfl,
    number _, forall_mem_of_all rfl, number _, forall_mem_of_all rfl, names _,
    forall_mem_of_all rfl⟩

end Record

/-- The JSON output of any records is a text with one line for each, in their order. No line holds
a control character below the space, and each stands for the object of its record and for no
other value. So the output determines the records. -/
theorem json_output (records : List Record) :
    (∃ text lines, decodeUtf8? (Layout.json.output records) = some text ∧
        text.toList.splitOn '\n' = lines ++ [[]] ∧
        List.Forall₂ (fun line record => (∀ c ∈ line, 0x20 ≤ c.toNat) ∧
          ∀ value, Json.Reads line value ↔ value = record.json) lines records) ∧
      ∀ others, Layout.json.output records = Layout.json.output others → records = others := by
  have single (record : Record) : '\n' ∉ Layout.json.line record := fun member =>
    absurd (record.visible_jsonLine '\n' member) (by decide)
  have line (record : Record) : (∀ c ∈ record.jsonLine, 0x20 ≤ c.toNat) ∧
      ∀ value, Json.Reads record.jsonLine value ↔ value = record.json :=
    ⟨record.visible_jsonLine, fun value =>
      ⟨fun reads => reads.unique record.reads_jsonLine, fun same => same ▸ record.reads_jsonLine⟩⟩
  refine ⟨⟨_, records.map Record.jsonLine, Layout.json.decodeUtf8?_output records, ?_, ?_⟩,
    fun others same => ?_⟩
  · rw [String.toList_ofList]
    exact Layout.splitOn_text single records
  · exact List.forall₂_map_left_iff.mpr (List.forall₂_same.mpr fun record _ => line record)
  · have determined {record other : Record} (same : record.jsonLine = other.jsonLine) :
        record = other :=
      Record.eq_of_json_eq (((line other).2 record.json).mp (same ▸ record.reads_jsonLine))
    exact (List.map_inj_right fun _ _ => determined).mp (Layout.lines_of_output single same)

end OpcodeTable
