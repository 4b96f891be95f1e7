/-
This file says exactly what a run tells of a table when everything is shown. Every line that is
read is named with its kind. A definition whose parts can all be read is warned about before
anything is decided: first of each literal that its range has no room for, then of each low half
without its high half on the line, both in the order of the tokens and whatever comes of the line
afterwards. A record comes last. A line with a malformed part is named and no more, and behind the
first line with a fault nothing is told, since no line is read there.
-/

import OpcodeTable.Command.Log
import OpcodeTable.Proofs.FieldList
import OpcodeTable.Proofs.Merging
import OpcodeTable.Proofs.Placement
import OpcodeTable.Proofs.Tables

namespace OpcodeTable

open Text

/-! ### Entries -/

/-- What the log says of an event. -/
def Event.said (event : Event) : Level × List Char := (event.level, event.message)

theorem Event.isShown_trace (event : Event) : event.isShown (some .trace) = true := by
  cases event <;> rfl

/-- The entry of a line that is read. -/
def heading (line : String) : Level × List Char :=
  (.trace, (LineKind.ofLine line).name.toList ++ ": ".toList ++ line.toList)

/-- The token is a fixed part with a literal that is too large for its range, and the entry warns
of it. -/
inductive Clips : String → Level × List Char → Prop
  | intro {token : String} {part : FixedPart} (spelt : FixedPart.Spells token.toList part)
      (large : 2 ^ part.range.width ≤ part.literal.toNat) :
      Clips token
        (.warn, "value 0x".toList ++ hex part.literal.toNat ++ " does not fit in bits ".toList
          ++ part.range.text ++ ", keeping 0x".toList
          ++ hex (part.literal.toNat % 2 ^ part.range.width))

/-- The token is a low half whose high half is not among the tokens, and the entry warns of it. -/
inductive Strays (tokens : List String) : String → Level × List Char → Prop
  | intro {base : String} (missing : base ++ "hi" ∉ tokens) :
      Strays tokens (base ++ "lo")
        (.warn, "field '".toList ++ base.toList ++ "lo' has no matching '".toList ++ base.toList
          ++ "hi' half, dropping it".toList)

/-- What is warned of on a line. -/
inductive Warned (line : String) : List (Level × List Char) → Prop
  | skipped (skipped : Skipped (tokens line)) : Warned line []
  | malformed {name part : String} {parts : List String} (split : tokens line = name :: parts)
      (member : part ∈ parts) (malformed : Part.Malformed part) : Warned line []
  | read {name : String} {parts : List String} {clips strays : List (Level × List Char)}
      (kept : ¬ Skipped (tokens line)) (split : tokens line = name :: parts)
      (sound : ∀ part ∈ parts, ¬ Part.Malformed part) (clipped : InOrder Clips parts clips)
      (strayed : InOrder (Strays parts) parts strays) : Warned line (clips ++ strays)

/-- The entry of a record. -/
def recordEntry (record : Record) : Level × List Char :=
  (.debug, record.name.toList ++ ": mask=0x".toList ++ paddedHex 8 record.mask.toNat
    ++ " value=0x".toList ++ paddedHex 8 record.value.toNat ++ " width=".toList
    ++ decimal record.width.bits ++ " fields=[".toList
    ++ QuoteStyle.source.quoteAll [',', ' '] record.fields ++ [']'])

/-- The log of the lines of a table. -/
inductive Log (catalog : Catalog) (rules : Rules) : List String → List (Level × List Char) → Prop
  | done : Log catalog rules [] []
  | silent {line : String} {later : List String} {warnings others : List (Level × List Char)}
      (warned : Warned line warnings)
      (silent : (assembleLine catalog rules line).outcome = .ok none)
      (rest : Log catalog rules later others) :
      Log catalog rules (line :: later) (heading line :: (warnings ++ others))
  | record {line : String} {later : List String} {warnings others : List (Level × List Char)}
      {record : Record} (warned : Warned line warnings)
      (found : (assembleLine catalog rules line).outcome = .ok (some record))
      (rest : Log catalog rules later others) :
      Log catalog rules (line :: later)
        (heading line :: (warnings ++ recordEntry record :: others))
  | fault {line : String} {later : List String} {warnings : List (Level × List Char)}
      {fault : Fault} (warned : Warned line warnings)
      (failed : (assembleLine catalog rules line).outcome = .error fault) :
      Log catalog rules (line :: later) (heading line :: warnings)

/-! ### Warnings -/

section

variable {line name : String} {parts : List String} {definition : Definition}

/-- What is reported of a part if its literal loses bits. -/
def FixedPart.report? (part : FixedPart) : Option Event :=
  if part.kept ≠ part.literal then some (.clipped part) else none

theorem map_oversized (parts : List FixedPart) :
    (FixedPart.oversized parts).map .clipped = parts.filterMap FixedPart.report? :=
  map_filter_eq (fun part => part.kept ≠ part.literal) _ parts

theorem clips_iff {token : String} {entry : Level × List Char} :
    Clips token entry ↔ ∃ part, Part.parse token = .ok (.fixed part) ∧
      part.report?.map Event.said = some entry := by
  constructor
  · rintro ⟨spelt, large⟩
    next part =>
    have lost := (FixedPart.kept_ne_literal_iff spelt.hi_le).mpr large
    refine ⟨part, Part.parse_eq_fixed_iff.mpr spelt, ?_⟩
    rw [FixedPart.report?, if_pos lost, ← FixedPart.toNat_kept spelt.hi_le]
    rfl
  · intro ⟨part, read, reported⟩
    have spelt := Part.parse_eq_fixed_iff.mp read
    obtain ⟨event, found, rfl⟩ := Option.map_eq_some_iff.mp reported
    obtain ⟨lost, ⟨⟩⟩ := Option.ite_none_right_eq_some.mp found
    have clips := Clips.intro spelt ((FixedPart.kept_ne_literal_iff spelt.hi_le).mp lost)
    rwa [← FixedPart.toNat_kept spelt.hi_le] at clips

/-- A token of a definition that was read is a field if it would be malformed as a fixed part. -/
theorem free_of_read (split : tokens line = name :: parts)
    (read : Definition.parse line = .ok definition) {token : String} (member : token ∈ parts)
    (refused : Part.startsFixed token = true → Part.Malformed token) :
    Part.startsFixed token = false := by
  have sound := (Definition.exists_parse_iff split).mp ⟨definition, read⟩ token member
  rw [← Bool.not_eq_true]
  exact fun starts => sound (refused starts)

theorem high_mem_fieldParts_iff (split : tokens line = name :: parts)
    (read : Definition.parse line = .ok definition) {base : String} :
    ⟨base, .high⟩ ∈ definition.fieldParts ↔ base ++ "hi" ∈ parts := by
  have own : ⟨base, .high⟩ ∈ definition.fieldParts ↔
      ∃ token ∈ parts, Part.parse token = .ok (.field ⟨base, .high⟩) :=
    Definition.mem_filterMap_parts_iff split read fun _ _ => Part.field?_eq_some_iff
  rw [own]
  simp only [Part.parse_eq_field_iff]
  constructor
  · intro ⟨token, member, _, parsed⟩
    rwa [FieldPart.eq_append_of_ofToken parsed] at member
  · exact fun member => ⟨_, member, free_of_read split read member Part.malformed_high,
      FieldPart.ofToken_high base⟩

theorem strays_iff (split : tokens line = name :: parts)
    (read : Definition.parse line = .ok definition) {token : String} (member : token ∈ parts)
    {entry : Level × List Char} :
    Strays parts token entry ↔ ∃ part, Part.parse token = .ok (.field part) ∧
      (FieldPart.report? definition.fieldParts part).map Event.said = some entry := by
  have alone {base : String} :
      ⟨base, .high⟩ ∉ definition.fieldParts ↔ base ++ "hi" ∉ parts :=
    not_congr (high_mem_fieldParts_iff split read)
  constructor
  · rintro ⟨missing⟩
    next base =>
    have free := free_of_read split read member Part.malformed_low
    refine ⟨⟨base, .low⟩, Part.parse_eq_field_iff.mpr ⟨free, FieldPart.ofToken_low base⟩, ?_⟩
    rw [FieldPart.report?, if_pos ⟨rfl, alone.mpr missing⟩]
    rfl
  · rintro ⟨part, parsed, reported⟩
    have whole := FieldPart.eq_append_of_ofToken (Part.parse_eq_field_iff.mp parsed).2
    obtain ⟨event, found, rfl⟩ := Option.map_eq_some_iff.mp reported
    obtain ⟨⟨low, missing⟩, ⟨⟩⟩ := Option.ite_none_right_eq_some.mp found
    rw [whole, low]
    exact .intro (alone.mp missing)

/-- What the parts of one kind give is said in the order of their tokens. -/
theorem inOrder_said_iff {γ : Type} (split : tokens line = name :: parts)
    (read : Definition.parse line = .ok definition) {gives : String → Level × List Char → Prop}
    {ofKind : γ → Part} {kind? : Part → Option γ}
    (kind : ∀ part own, kind? part = some own ↔ part = ofKind own) {report? : γ → Option Event}
    (same : ∀ token ∈ parts, ∀ entry, gives token entry ↔
      ∃ own, Part.parse token = .ok (ofKind own) ∧ (report? own).map Event.said = some entry)
    {entries : List (Level × List Char)} :
    InOrder gives parts entries ↔
      ((definition.parts.filterMap kind?).filterMap report?).map Event.said = entries := by
  rw [List.filterMap_filterMap, List.map_filterMap, Definition.filterMap_parts split read]
  refine inOrder_iff fun token member entry => (same token member entry).trans ?_
  cases Part.parse token with
  | error fault => simp [Except.toOption]
  | ok part => simp [Except.toOption, Option.bind_eq_some_iff, kind]

theorem inOrder_clips_iff (split : tokens line = name :: parts)
    (read : Definition.parse line = .ok definition) {entries : List (Level × List Char)} :
    InOrder Clips parts entries ↔
      ((FixedPart.oversized definition.fixedParts).map .clipped).map Event.said = entries := by
  rw [map_oversized]
  exact inOrder_said_iff split read (fun _ _ => Part.fixed?_eq_some_iff) fun _ _ _ => clips_iff

theorem inOrder_strays_iff (split : tokens line = name :: parts)
    (read : Definition.parse line = .ok definition) {entries : List (Level × List Char)} :
    InOrder (Strays parts) parts entries ↔
      ((FieldPart.orphans definition.fieldParts).map fun part => .orphaned part.base).map
        Event.said = entries := by
  rw [FieldPart.map_orphans]
  exact inOrder_said_iff split read (fun _ _ => Part.field?_eq_some_iff)
    fun _ member _ => strays_iff split read member

end

/-! ### Lines -/

section

variable {catalog : Catalog} {rules : Rules} {line : String}

theorem warned_of_skipped (skipped : Skipped (tokens line))
    {warnings : List (Level × List Char)} : Warned line warnings ↔ [] = warnings := by
  constructor
  · rintro (_ | _ | ⟨kept, _⟩)
    · rfl
    · rfl
    · exact absurd skipped kept
  · rintro rfl
    exact .skipped skipped

theorem warned_of_unread {name : String} {parts : List String}
    (split : tokens line = name :: parts) {fault : Fault}
    (unread : Definition.parse line = .error fault) {warnings : List (Level × List Char)} :
    Warned line warnings ↔ [] = warnings := by
  obtain ⟨part, _, leftmost, _⟩ := (Definition.parse_eq_error_iff split).mp unread
  constructor
  · rintro (_ | _ | ⟨_, again, sound, _⟩)
    · rfl
    · rfl
    · cases split.symm.trans again
      exact absurd leftmost.holds (sound part leftmost.mem)
  · rintro rfl
    exact .malformed split leftmost.mem leftmost.holds

theorem warned_of_read (kept : ¬ Skipped (tokens line)) {name : String} {parts : List String}
    (split : tokens line = name :: parts) {definition : Definition}
    (read : Definition.parse line = .ok definition) {warnings : List (Level × List Char)} :
    Warned line warnings ↔ definition.warnings.map Event.said = warnings := by
  have sound := (Definition.exists_parse_iff split).mp ⟨definition, read⟩
  rw [Definition.warnings, List.map_append]
  constructor
  · rintro (skipped | ⟨again, member, malformed⟩ | ⟨_, again, _, clipped, strayed⟩)
    · exact absurd skipped kept
    · cases split.symm.trans again
      exact absurd malformed (sound _ member)
    · cases split.symm.trans again
      rw [(inOrder_clips_iff split read).mp clipped, (inOrder_strays_iff split read).mp strayed]
  · rintro rfl
    exact .read kept split sound ((inOrder_clips_iff split read).mpr rfl)
      ((inOrder_strays_iff split read).mpr rfl)

/-- What is warned of on a line is what its warnings say. -/
theorem warned_iff {warnings : List (Level × List Char)} :
    Warned line warnings ↔ (lineWarnings catalog rules line).map Event.said = warnings := by
  by_cases skipped : Skipped (tokens line)
  · rw [lineWarnings_of_skipped catalog rules skipped]
    exact warned_of_skipped skipped
  · obtain ⟨name, parts, split⟩ : ∃ name parts, tokens line = name :: parts :=
      List.exists_cons_of_ne_nil fun none => skipped (.inl none)
    rw [lineWarnings_of_kept catalog rules skipped]
    cases read : Definition.parse line with
    | error fault => exact warned_of_unread split read
    | ok definition => exact warned_of_read skipped split read

/-- The events of a line are its heading, its warnings and its record. -/
theorem events_assembleLine (catalog : Catalog) (rules : Rules) (line : String) :
    (assembleLine catalog rules line).events =
      .classified (LineKind.ofLine line) line ::
        (lineWarnings catalog rules line ++
          (lineRecord? catalog rules line).toList.map .assembled) := by
  by_cases skipped : Skipped (tokens line)
  · have kind := mt LineKind.ofLine_eq_definition_iff.mp (not_not_intro skipped)
    rw [lineWarnings_of_skipped catalog rules skipped, lineRecord?,
      assembleLine_of_skipped catalog rules kind]
    rfl
  · have kind := LineKind.ofLine_eq_definition_iff.mpr skipped
    rw [lineWarnings_of_kept catalog rules skipped, lineRecord?, kind]
    cases read : Definition.parse line with
    | error fault =>
      rw [assembleLine_of_unread catalog rules kind read]
      rfl
    | ok definition =>
      rw [assembleLine_of_read catalog rules kind read]
      cases definition.verdict catalog rules with
      | error fault => exact congrArg _ (List.append_nil _).symm
      | ok record => rfl

theorem said_events (catalog : Catalog) (rules : Rules) (line : String) :
    (assembleLine catalog rules line).events.map Event.said =
      heading line :: ((lineWarnings catalog rules line).map Event.said ++
        (lineRecord? catalog rules line).toList.map recordEntry) := by
  rw [events_assembleLine, List.map_cons, List.map_append, List.map_map]
  rfl

end

/-! ### Tables -/

section

variable {catalog : Catalog} {rules : Rules} {line : String} {later : List String}

theorem said_tableEvents_of_error {fault : Fault}
    (failed : (assembleLine catalog rules line).outcome = .error fault) :
    (tableEvents catalog rules (line :: later)).map Event.said =
      heading line :: (lineWarnings catalog rules line).map Event.said := by
  rw [tableEvents_of_error failed, said_events, lineRecord?, failed]
  exact congrArg _ (List.append_nil _)

theorem said_tableEvents_of_none
    (silent : (assembleLine catalog rules line).outcome = .ok none) :
    (tableEvents catalog rules (line :: later)).map Event.said =
      heading line :: ((lineWarnings catalog rules line).map Event.said ++
        (tableEvents catalog rules later).map Event.said) := by
  rw [tableEvents_of_ok silent, List.map_append, said_events, lineRecord?, silent]
  exact congrArg (heading line :: · ++ _) (List.append_nil _)

theorem said_tableEvents_of_record {record : Record}
    (found : (assembleLine catalog rules line).outcome = .ok (some record)) :
    (tableEvents catalog rules (line :: later)).map Event.said =
      heading line :: ((lineWarnings catalog rules line).map Event.said ++
        recordEntry record :: (tableEvents catalog rules later).map Event.said) := by
  rw [tableEvents_of_ok found, List.map_append, said_events, lineRecord?, found]
  exact congrArg (heading line :: ·) (List.append_assoc _ _ _)

theorem log_tableEvents (lines : List String) :
    Log catalog rules lines ((tableEvents catalog rules lines).map Event.said) := by
  induction lines with
  | nil => exact .done
  | cons line later inductionHypothesis =>
    have warned : Warned line ((lineWarnings catalog rules line).map Event.said) :=
      warned_iff.mpr rfl
    cases read : (assembleLine catalog rules line).outcome with
    | error fault =>
      rw [said_tableEvents_of_error read]
      exact .fault warned read
    | ok result =>
      cases result with
      | none =>
        rw [said_tableEvents_of_none read]
        exact .silent warned read inductionHypothesis
      | some record =>
        rw [said_tableEvents_of_record read]
        exact .record warned read inductionHypothesis

theorem Log.said_eq {lines : List String} {entries : List (Level × List Char)}
    (log : Log catalog rules lines entries) :
    (tableEvents catalog rules lines).map Event.said = entries := by
  induction log with
  | done => rfl
  | silent warned silent _ inductionHypothesis =>
    rw [said_tableEvents_of_none silent, warned_iff.mp warned, inductionHypothesis]
  | record warned found _ inductionHypothesis =>
    rw [said_tableEvents_of_record found, warned_iff.mp warned, inductionHypothesis]
  | fault warned failed => rw [said_tableEvents_of_error failed, warned_iff.mp warned]

end

/-- With everything shown, the log of a text is the one that its lines have, whatever the catalog
and the rules. -/
theorem log_of_text (catalog : Catalog) (rules : Rules) (file text : String)
    (entries : List (Level × List Char)) :
    ((assembleText catalog rules file text).events.filter (·.isShown (some .trace))).map
        Event.said = entries ↔ Log catalog rules (Text.lines text) entries := by
  have shown : (assembleText catalog rules file text).events.filter (·.isShown (some .trace)) =
      tableEvents catalog rules (Text.lines text) := by
    rw [assembleText, assembleLines_eq]
    exact List.filter_eq_self.mpr fun event _ => event.isShown_trace
  rw [shown]
  exact ⟨fun same => same ▸ log_tableEvents _, Log.said_eq⟩

/-- Two lines with a large literal and a low half on its own. The first has a record and the second
a field outside the catalog, so the line behind it is not told. -/
def warnedTable : String := "add rd xlo 9..8=7 1..0=3\nlx six ylo 2=2\n# six"

theorem log_of_text_warnedTable :
    Log .riscv .mixed (Text.lines warnedTable)
      [(.trace, "Definition: add rd xlo 9..8=7 1..0=3".toList),
        (.warn, "value 0x7 does not fit in bits 9..8, keeping 0x3".toList),
        (.warn, "field 'xlo' has no matching 'xhi' half, dropping it".toList),
        (.debug, "add: mask=0x00000303 value=0x00000303 width=32 fields=[\"rd\"]".toList),
        (.trace, "Definition: lx six ylo 2=2".toList),
        (.warn, "value 0x2 does not fit in bits 2, keeping 0x0".toList),
        (.warn, "field 'ylo' has no matching 'yhi' half, dropping it".toList)] :=
  (log_of_text .riscv .mixed "t" warnedTable _).mp (by decide +kernel)

end OpcodeTable
