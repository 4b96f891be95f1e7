/-
This file says what is read from the tokens of a definition. A token that begins with a digit
has to be a fixed part of the notation, and the leftmost one that is not is the fault of the
line; every other token brings at most one name to the record, whatever stands beside it. A
definition that is read therefore has the fixed parts that its tokens spell and the names that
its tokens bring, in the order of the line.
-/

import Mathlib.Data.List.Basic
import OpcodeTable.Definition
import OpcodeTable.Proofs.Grammar
import OpcodeTable.Proofs.Sequence
import OpcodeTable.Proofs.Tokens

namespace OpcodeTable

open Text

/-! ### Field parts -/

namespace FieldPart

theorem ofToken_high (base : String) : ofToken (base ++ "hi") = ⟨base, .high⟩ := by
  have dropped : dropEnding? Half.high.ending (base ++ "hi").toList = some base.toList :=
    dropEnding?_eq_some_iff.mpr String.toList_append
  rw [ofToken, dropped]
  dsimp only
  rw [String.ofList_toList]

/-- No token ends in both endings. -/
theorem append_lo_ne_append_hi (base other : String) : base ++ "lo" ≠ other ++ "hi" := by
  intro same
  have letters := congrArg String.toList same
  rw [String.toList_append, String.toList_append] at letters
  exact absurd (List.append_inj_right' letters rfl) (by decide)

theorem dropEnding?_eq_none {token ending : String} (other : ∀ base, token ≠ base ++ ending) :
    dropEnding? ending.toList token.toList = none := by
  cases dropped : dropEnding? ending.toList token.toList with
  | none => rfl
  | some base =>
    have whole := dropEnding?_eq_some_iff.mp dropped
    refine absurd (String.toList_inj.mp ?_) (other (String.ofList base))
    rw [String.toList_append, String.toList_ofList, whole]

theorem ofToken_low (base : String) : ofToken (base ++ "lo") = ⟨base, .low⟩ := by
  have kept : dropEnding? Half.high.ending (base ++ "lo").toList = none :=
    dropEnding?_eq_none (append_lo_ne_append_hi base)
  have dropped : dropEnding? Half.low.ending (base ++ "lo").toList = some base.toList :=
    dropEnding?_eq_some_iff.mpr String.toList_append
  rw [ofToken, kept, dropped]
  dsimp only
  rw [String.ofList_toList]

theorem ofToken_whole {token : String} (noHigh : ∀ base, token ≠ base ++ "hi")
    (noLow : ∀ base, token ≠ base ++ "lo") : ofToken token = ⟨token, .whole⟩ := by
  have keptHigh : dropEnding? Half.high.ending token.toList = none := dropEnding?_eq_none noHigh
  have keptLow : dropEnding? Half.low.ending token.toList = none := dropEnding?_eq_none noLow
  rw [ofToken, keptHigh, keptLow]

end FieldPart

/-! ### Single tokens -/

namespace Part

/-- The token begins with a digit and is no fixed part of the notation. -/
def Malformed (token : String) : Prop :=
  startsFixed token = true ∧ ¬ ∃ part, FixedPart.Spells token.toList part

/-- The token is a field part that brings a field of the given name to the record. A token that
ends in `lo` brings none. -/
inductive Brings : String → String → Prop
  | whole {token : String} (free : startsFixed token = false)
      (noHigh : ∀ base, token ≠ base ++ "hi") (noLow : ∀ base, token ≠ base ++ "lo") :
      Brings token token
  | pair {base : String} (free : startsFixed (base ++ "hi") = false) :
      Brings (base ++ "hi") (base ++ "hilo")

/-- The name of the field that a token brings to the record. -/
def name? (token : String) : Option String :=
  if startsFixed token then none else (FieldPart.ofToken token).canonical?

theorem brings_iff {token name : String} : Brings token name ↔ name? token = some name := by
  constructor
  · intro brings
    cases brings with
    | whole free noHigh noLow =>
      rw [name?, free, FieldPart.ofToken_whole noHigh noLow]
      rfl
    | pair free =>
      rw [name?, free, FieldPart.ofToken_high]
      rfl
  · intro named
    unfold name? at named
    cases free : startsFixed token with
    | true =>
      rw [free, if_pos rfl] at named
      cases named
    | false =>
      rw [free, if_neg Bool.false_ne_true] at named
      by_cases high : ∃ base, token = base ++ "hi"
      · obtain ⟨base, rfl⟩ := high
        rw [FieldPart.ofToken_high] at named
        rw [← Option.some.inj named]
        exact .pair free
      · by_cases low : ∃ base, token = base ++ "lo"
        · obtain ⟨base, rfl⟩ := low
          rw [FieldPart.ofToken_low] at named
          cases named
        · have noHigh := not_exists.mp high
          have noLow := not_exists.mp low
          rw [FieldPart.ofToken_whole noHigh noLow] at named
          rw [← Option.some.inj named]
          exact .whole free noHigh noLow

/-- What the notation calls a fixed part begins with a digit. -/
theorem startsFixed_of_spells {token : String} {part : FixedPart}
    (spelt : FixedPart.Spells token.toList part) : startsFixed token = true := by
  unfold startsFixed
  generalize token.toList = text at spelt
  cases spelt with
  | intro speltRange _ =>
    obtain ⟨c, tail, rfl, digit⟩ := speltRange.head
    exact digit

theorem fixed?_eq_some_iff {part : Part} {own : FixedPart} :
    part.fixed? = some own ↔ part = .fixed own := by
  cases part <;> simp [fixed?]

theorem field?_eq_some_iff {part : Part} {own : FieldPart} :
    part.field? = some own ↔ part = .field own := by
  cases part <;> simp [field?]

theorem parse_of_startsFixed {token : String} (starts : startsFixed token = true) :
    parse token = ((FixedPart.parse token).map .fixed).mapError (.malformed token) := by
  rw [parse, if_pos starts]

theorem parse_of_free {token : String} (free : startsFixed token = false) :
    parse token = .ok (.field (.ofToken token)) := by
  rw [parse, if_neg (by rw [free]; exact Bool.false_ne_true)]

theorem parse_eq_fixed_iff {token : String} {part : FixedPart} :
    parse token = .ok (.fixed part) ↔ FixedPart.Spells token.toList part := by
  rw [← FixedPart.parse_eq_ok_iff]
  cases starts : startsFixed token with
  | true =>
    rw [parse_of_startsFixed starts, mapError_eq_ok_iff, map_eq_ok_iff]
    simp only [Part.fixed.injEq, exists_eq_right]
  | false =>
    rw [parse_of_free starts]
    refine ⟨fun read => (nomatch read), fun read => ?_⟩
    rw [startsFixed_of_spells ((FixedPart.parse_eq_ok_iff token part).mp read)] at starts
    cases starts

theorem parse_eq_field_iff {token : String} {part : FieldPart} :
    parse token = .ok (.field part) ↔
      startsFixed token = false ∧ FieldPart.ofToken token = part := by
  cases starts : startsFixed token with
  | true =>
    rw [parse_of_startsFixed starts, mapError_eq_ok_iff, map_eq_ok_iff]
    simp
  | false =>
    rw [parse_of_free starts]
    simp

theorem parse_eq_error_iff {token : String} {fault : Fault} :
    parse token = .error fault ↔ startsFixed token = true ∧
      ∃ reason, FixedPart.parse token = .error reason ∧ fault = .malformed token reason := by
  cases starts : startsFixed token with
  | false =>
    rw [parse_of_free starts]
    exact ⟨fun failed => (nomatch failed), fun ⟨impossible, _⟩ => nomatch impossible⟩
  | true =>
    rw [parse_of_startsFixed starts, mapError_eq_error_iff]
    simp only [map_eq_error_iff, true_and]

theorem exists_parse_error_iff {token : String} :
    (∃ fault, parse token = .error fault) ↔ Malformed token := by
  simp only [parse_eq_error_iff, Malformed, ← FixedPart.parse_eq_ok_iff, exists_ok_iff,
    Classical.not_not]
  constructor
  · intro ⟨_, starts, reason, failed, _⟩
    exact ⟨starts, reason, failed⟩
  · intro ⟨starts, reason, failed⟩
    exact ⟨_, starts, reason, failed, rfl⟩

/-- What a token contributes to the names is nothing if it is a fixed part, and what its field
part contributes otherwise. -/
theorem name?_of_parse {token : String} {part : Part} (read : parse token = .ok part) :
    name? token = part.field?.bind FieldPart.canonical? := by
  unfold name?
  cases starts : startsFixed token with
  | true =>
    rw [parse_of_startsFixed starts, mapError_eq_ok_iff, map_eq_ok_iff] at read
    obtain ⟨fixed, _, rfl⟩ := read
    rfl
  | false =>
    rw [parse_of_free starts] at read
    rw [← Except.ok.inj read]
    rfl

end Part

/-! ### Definitions -/

namespace Definition

variable {line name : String} {rest : List String} {definition : Definition}

theorem parse_of_tokens (split : tokens line = name :: rest) :
    parse line = (rest.mapM Part.parse).map (Definition.mk name) := by
  rw [parse, split]

theorem parse_eq_ok_iff (split : tokens line = name :: rest) :
    parse line = .ok definition ↔
      definition.name = name ∧ rest.map Part.parse = definition.parts.map .ok := by
  rw [parse_of_tokens split, map_eq_ok_iff]
  simp only [mapM_eq_ok_iff]
  constructor
  · rintro ⟨parts, same, rfl⟩
    exact ⟨rfl, same⟩
  · rintro ⟨rfl, same⟩
    exact ⟨definition.parts, same, rfl⟩

/-- A line is refused for its leftmost malformed part. -/
theorem parse_eq_error_iff (split : tokens line = name :: rest) {fault : Fault} :
    parse line = .error fault ↔ ∃ token reason, Leftmost Part.Malformed token rest ∧
      FixedPart.parse token = .error reason ∧ fault = .malformed token reason := by
  have malformed : (fun token => ∃ fault, Part.parse token = .error fault) = Part.Malformed :=
    funext fun token => propext Part.exists_parse_error_iff
  rw [parse_of_tokens split, map_eq_error_iff, mapM_eq_error_iff, malformed]
  constructor
  · intro ⟨token, leftmost, failed⟩
    obtain ⟨_, reason, failed, same⟩ := Part.parse_eq_error_iff.mp failed
    exact ⟨token, reason, leftmost, failed, same⟩
  · intro ⟨token, reason, leftmost, failed, same⟩
    exact ⟨token, leftmost,
      Part.parse_eq_error_iff.mpr ⟨leftmost.holds.1, reason, failed, same⟩⟩

theorem exists_parse_iff (split : tokens line = name :: rest) :
    (∃ definition, parse line = .ok definition) ↔ ∀ token ∈ rest, ¬ Part.Malformed token := by
  have refused : (∃ fault, parse line = .error fault) ↔ ∃ token ∈ rest, Part.Malformed token := by
    rw [← Leftmost.exists_iff]
    constructor
    · intro ⟨fault, failed⟩
      obtain ⟨token, _, leftmost, _⟩ := (parse_eq_error_iff split).mp failed
      exact ⟨token, leftmost⟩
    · intro ⟨token, leftmost⟩
      obtain ⟨_, failed⟩ := Part.exists_parse_error_iff.mpr leftmost.holds
      obtain ⟨_, reason, failed, _⟩ := Part.parse_eq_error_iff.mp failed
      exact ⟨_, (parse_eq_error_iff split).mpr ⟨token, reason, leftmost, failed, rfl⟩⟩
  rw [exists_ok_iff, refused]
  simp only [not_exists, not_and]

/-- The parts of one kind are those that are read from a token. -/
theorem mem_filterMap_parts_iff {γ : Type} (split : tokens line = name :: rest)
    (read : parse line = .ok definition) {ofKind : γ → Part} {kind? : Part → Option γ}
    (kind : ∀ part own, kind? part = some own ↔ part = ofKind own) {own : γ} :
    own ∈ definition.parts.filterMap kind? ↔
      ∃ token ∈ rest, Part.parse token = .ok (ofKind own) := by
  have same := ((parse_eq_ok_iff split).mp read).2
  have listed : ofKind own ∈ definition.parts ↔
      (.ok (ofKind own) : Except Fault Part) ∈ rest.map Part.parse := by
    rw [same, List.mem_map]
    exact ⟨fun member => ⟨_, member, rfl⟩, fun ⟨_, member, same⟩ => Except.ok.inj same ▸ member⟩
  rw [← List.mem_map, ← listed, List.mem_filterMap]
  simp only [kind, exists_eq_right]

theorem mem_fixedParts_iff (split : tokens line = name :: rest)
    (read : parse line = .ok definition) {part : FixedPart} :
    part ∈ definition.fixedParts ↔ ∃ token ∈ rest, FixedPart.Spells token.toList part := by
  rw [fixedParts, mem_filterMap_parts_iff split read fun _ _ => Part.fixed?_eq_some_iff]
  simp only [Part.parse_eq_fixed_iff]

/-- What the parts of a definition give, its tokens give. -/
theorem filterMap_parts {γ : Type} (split : tokens line = name :: rest)
    (read : parse line = .ok definition) (give : Part → Option γ) :
    definition.parts.filterMap give =
      rest.filterMap fun token => (Part.parse token).toOption.bind give := by
  have same := ((parse_eq_ok_iff split).mp read).2
  calc
    definition.parts.filterMap give =
        (definition.parts.map (.ok : Part → Except Fault Part)).filterMap
          fun outcome => outcome.toOption.bind give := by
      rw [List.filterMap_map]
      rfl
    _ = rest.filterMap fun token => (Part.parse token).toOption.bind give := by
      rw [← same, List.filterMap_map]
      rfl

/-- The names of a definition are those that its tokens bring, in their order. -/
theorem canonicalNames_fieldParts (split : tokens line = name :: rest)
    (read : parse line = .ok definition) :
    FieldPart.canonicalNames definition.fieldParts = rest.filterMap Part.name? := by
  rw [FieldPart.canonicalNames, fieldParts, List.filterMap_filterMap, filterMap_parts split read]
  refine List.filterMap_congr fun token member => ?_
  have sound := (exists_parse_iff split).mp ⟨definition, read⟩ token member
  obtain ⟨part, parsed⟩ := exists_ok_iff.mpr (mt Part.exists_parse_error_iff.mp sound)
  rw [parsed, Part.name?_of_parse parsed]
  rfl

end Definition

end OpcodeTable
