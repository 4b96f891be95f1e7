/-
This file is about what becomes of the tokens of fields. Taking the ending off a token is undone
by putting it on again, so nothing of the token is lost. A token of neither ending gives its own
name and a high half the name of its pair; the name of a pair ends in the ending of a low half,
which no name of a field on its own does. So from a name the one token that gives it can be told.

The warnings are found by looking for high halves among the tokens. Since only a high half gives
the name of its pair, the same is found by looking at the names that come out: each low half is
either in the name of its pair or reported. Both the names and the reports are about which tokens
there are, and the order of the tokens is no more than their order.
-/

import OpcodeTable.Proofs.Printing
import OpcodeTable.Proofs.Rearrangement

namespace OpcodeTable

open Text

namespace FieldPart

/-! ### Endings -/

/-- The name ends as neither half of a field does. -/
def Unhalved (name : String) : Prop := (∀ base, name ≠ base ++ "hi") ∧ ∀ base, name ≠ base ++ "lo"

theorem append_hilo (base : String) : base ++ "hilo" = (base ++ "hi") ++ "lo" := by
  rw [String.append_assoc]
  rfl

theorem Unhalved.ne_pair {name : String} (unhalved : Unhalved name) (base : String) :
    name ≠ base ++ "hilo" :=
  append_hilo base ▸ unhalved.2 (base ++ "hi")

theorem suffix_iff {ending : List Char} {name : String} :
    ending <:+ name.toList ↔ ∃ base, name = base ++ String.ofList ending := by
  constructor
  · intro ⟨base, whole⟩
    refine ⟨String.ofList base, String.toList_inj.mp ?_⟩
    rw [String.toList_append, String.toList_ofList, String.toList_ofList, whole]
  · rintro ⟨base, rfl⟩
    rw [String.toList_append, String.toList_ofList]
    exact List.suffix_append ..

/-- A token is its base with the ending of its half. -/
theorem eq_append_of_ofToken {token : String} {part : FieldPart} (read : ofToken token = part) :
    token = part.base ++ String.ofList part.half.ending := by
  refine String.toList_inj.mp ((ofToken_eq_iff.mp read).1.symm.trans ?_)
  rw [text, String.toList_append, String.toList_ofList]

theorem plain_iff {part : FieldPart} :
    part.Plain ↔ (part.half = .whole → Unhalved part.base) := by
  unfold Plain Unhalved
  rw [suffix_iff, suffix_iff, not_exists, not_exists]
  exact Iff.rfl

/-! ### Names of tokens -/

/-- The token gives the name to the record: its own, or that of the pair whose high half it is. -/
inductive Gives : String → String → Prop
  | whole {name : String} (unhalved : Unhalved name) : Gives name name
  | pair (base : String) : Gives (base ++ "hi") (base ++ "hilo")

theorem gives_iff {token name : String} :
    Gives token name ↔ (ofToken token).canonical? = some name := by
  constructor
  · rintro (⟨noHigh, noLow⟩ | base)
    · rw [ofToken_whole noHigh noLow]
      rfl
    · rw [ofToken_high]
      rfl
  · intro given
    by_cases high : ∃ base, token = base ++ "hi"
    · obtain ⟨base, rfl⟩ := high
      rw [ofToken_high] at given
      rw [← Option.some.inj given]
      exact .pair base
    · by_cases low : ∃ base, token = base ++ "lo"
      · obtain ⟨base, rfl⟩ := low
        simp [ofToken_low, canonical?] at given
      · have unhalved : Unhalved token := ⟨not_exists.mp high, not_exists.mp low⟩
        rw [ofToken_whole unhalved.1 unhalved.2] at given
        rw [← Option.some.inj given]
        exact .whole unhalved

/-- A name is given by one token at most. -/
theorem Gives.unique {token other name : String} (gives : Gives token name)
    (alsoGives : Gives other name) : token = other := by
  cases gives with
  | whole unhalved =>
    generalize same : token = given at alsoGives
    cases alsoGives with
    | whole _ => rfl
    | pair base => exact absurd same (unhalved.ne_pair base)
  | pair base =>
    generalize same : base ++ "hilo" = given at alsoGives
    cases alsoGives with
    | whole unhalved => exact absurd same.symm (unhalved.ne_pair base)
    | pair other => rw [(String.append_left_inj "hilo").mp same]

theorem exists_gives_iff {name : String} :
    (∃ token, Gives token name) ↔ Unhalved name ∨ ∃ base, name = base ++ "hilo" := by
  constructor
  · intro ⟨token, gives⟩
    cases gives with
    | whole unhalved => exact .inl unhalved
    | pair base => exact .inr ⟨base, rfl⟩
  · rintro (unhalved | ⟨base, rfl⟩)
    · exact ⟨_, .whole unhalved⟩
    · exact ⟨_, .pair base⟩

theorem low_or_gives (token : String) :
    (∃ base, token = base ++ "lo") ∨ ∃ name, Gives token name := by
  by_cases high : ∃ base, token = base ++ "hi"
  · obtain ⟨base, rfl⟩ := high
    exact .inr ⟨_, .pair base⟩
  · by_cases low : ∃ base, token = base ++ "lo"
    · exact .inl low
    · exact .inr ⟨token, .whole ⟨not_exists.mp high, not_exists.mp low⟩⟩

/-! ### Lists of tokens -/

section

variable {tokens : List String}

/-- The names of the tokens, in order. -/
def namesOf (tokens : List String) : List String := canonicalNames (tokens.map ofToken)

theorem inOrder_gives_iff {names : List String} :
    InOrder Gives tokens names ↔ namesOf tokens = names := by
  rw [namesOf, canonicalNames, List.filterMap_map]
  exact inOrder_iff fun token _ name => gives_iff

theorem mem_namesOf_iff {name : String} :
    name ∈ namesOf tokens ↔ ∃ token ∈ tokens, Gives token name := by
  simp only [namesOf, canonicalNames, List.filterMap_map, List.mem_filterMap, Function.comp_apply,
    gives_iff]

theorem mem_map_ofToken_high_iff {base : String} :
    ⟨base, .high⟩ ∈ tokens.map ofToken ↔ base ++ "hi" ∈ tokens := by
  rw [List.mem_map]
  constructor
  · intro ⟨token, member, read⟩
    rwa [eq_append_of_ofToken read] at member
  · exact fun member => ⟨_, member, ofToken_high base⟩

/-- The name of a pair comes out just when its high half is there. -/
theorem pair_mem_namesOf_iff {base : String} :
    base ++ "hilo" ∈ namesOf tokens ↔ base ++ "hi" ∈ tokens := by
  rw [mem_namesOf_iff]
  constructor
  · intro ⟨token, member, gives⟩
    rwa [← gives.unique (.pair base)]
  · exact fun member => ⟨_, member, .pair base⟩

/-- The event reports the token, a low half whose pair is not among the names. -/
inductive Drops (names : List String) : String → Event → Prop
  | intro {base : String} (missing : base ++ "hilo" ∉ names) :
      Drops names (base ++ "lo") (.orphaned base)

/-- What a token is reported as if it is a low half and its high half is not among the parts. -/
def report? (parts : List FieldPart) (part : FieldPart) : Option Event :=
  if part.half = .low ∧ ⟨part.base, .high⟩ ∉ parts then some (.orphaned part.base) else none

theorem map_orphans (parts : List FieldPart) :
    (orphans parts).map (fun part => Event.orphaned part.base) =
      parts.filterMap (report? parts) :=
  map_filter_eq (fun part => part.half = .low ∧ ⟨part.base, .high⟩ ∉ parts) _ parts

theorem drops_iff {token : String} {event : Event} :
    Drops (namesOf tokens) token event ↔
      report? (tokens.map ofToken) (ofToken token) = some event := by
  constructor
  · rintro ⟨missing⟩
    next base =>
    have alone : ⟨base, .high⟩ ∉ tokens.map ofToken := by
      rwa [mem_map_ofToken_high_iff, ← pair_mem_namesOf_iff]
    rw [ofToken_low, report?, if_pos ⟨rfl, alone⟩]
  · intro reported
    unfold report? at reported
    split at reported
    · next alone =>
      obtain ⟨low, alone⟩ := alone
      have whole : token = (ofToken token).base ++ String.ofList (ofToken token).half.ending :=
        eq_append_of_ofToken rfl
      rw [low] at whole
      rw [whole, ← Option.some.inj reported]
      exact .intro (by rwa [pair_mem_namesOf_iff, ← mem_map_ofToken_high_iff])
    · cases reported

theorem inOrder_drops_iff {events : List Event} :
    InOrder (Drops (namesOf tokens)) tokens events ↔
      (orphans (tokens.map ofToken)).map (fun part => Event.orphaned part.base) = events := by
  rw [map_orphans, List.filterMap_map]
  exact inOrder_iff fun token _ event => drops_iff

theorem namesOf_perm {others : List String} (same : tokens.Perm others) :
    (namesOf tokens).Perm (namesOf others) :=
  (same.map ofToken).filterMap canonical?

end

/-! ### Merging tokens -/

/-- Merging the fields of a list of tokens, each of which is read on its own. A token is its base
with the ending of its half, and is read as no other part. Names are told apart by the tokens that
give them, and those that are given are known by their endings. What comes of a list is the names
that its tokens give, in order, and a warning for each low half whose pair is not among them, in
order, so each token is in a name or reported. Other orders of the tokens give the names and the
warnings in other orders. -/
theorem fields_named_or_reported {ε : Type} :
    (∀ token part, ofToken token = part ↔
        part.text = token.toList ∧ (part.half = .whole → Unhalved part.base)) ∧
      (∀ token other name, (ofToken token).canonical? = some name →
        (ofToken other).canonical? = some name → token = other) ∧
      (∀ name, (∃ token, (ofToken token).canonical? = some name) ↔
        Unhalved name ∨ ∃ base, name = base ++ "hilo") ∧
      (∀ name, Unhalved name → ∀ base, name ≠ base ++ "hilo") ∧
      ∀ tokens : List String,
        let merged : Traced ε (List String) := merge (tokens.map ofToken)
        ∃ names, merged.outcome = .ok names ∧ InOrder Gives tokens names ∧
          InOrder (Drops names) tokens merged.events ∧
          (∀ event ∈ merged.events, event.level = .warn) ∧
          (∀ token ∈ tokens, (∃ name ∈ names, Gives token name) ∨
            ∃ base, token = base ++ "lo" ∧
              (base ++ "hilo" ∈ names ∨ Event.orphaned base ∈ merged.events)) ∧
          ∀ others, tokens.Perm others →
            let shuffled : Traced ε (List String) := merge (others.map ofToken)
            ∃ otherNames, shuffled.outcome = .ok otherNames ∧ names.Perm otherNames ∧
              merged.events.Perm shuffled.events := by
  refine ⟨fun token part => ?_, fun token other name => ?_, fun name => ?_,
    fun name unhalved => unhalved.ne_pair, ?_⟩
  · rw [ofToken_eq_iff, plain_iff]
  · rw [← gives_iff, ← gives_iff]
    exact Gives.unique
  · simp only [← gives_iff, exists_gives_iff]
  · intro tokens merged
    have result : merged = _ := merge_eq (tokens.map ofToken)
    rw [result]
    refine ⟨namesOf tokens, rfl, inOrder_gives_iff.mpr rfl, inOrder_drops_iff.mpr rfl,
      fun event member => ?_, fun token member => ?_, fun others same => ?_⟩
    · obtain ⟨part, _, rfl⟩ := List.mem_map.mp member
      rfl
    · rcases low_or_gives token with ⟨base, rfl⟩ | ⟨name, gives⟩
      · refine .inr ⟨base, rfl, or_iff_not_imp_left.mpr fun missing => ?_⟩
        rw [map_orphans, List.filterMap_map]
        exact List.mem_filterMap.mpr ⟨_, member, drops_iff.mp (.intro missing)⟩
      · exact .inl ⟨name, mem_namesOf_iff.mpr ⟨token, member, gives⟩, gives⟩
    · intro shuffled
      have otherResult : shuffled = _ := merge_eq (others.map ofToken)
      rw [otherResult]
      exact ⟨namesOf others, rfl, namesOf_perm same, (orphans_perm (same.map ofToken)).map _⟩

/-- Halves in turn, one of them without its other half and one named like the end of a pair. -/
def shuffledHalves : List String := ["xlo", "imm12hi", "hilo", "rd", "imm12lo", "xlo"]

/-- Turned around, the tokens give the same two names and the same three warnings. -/
theorem fields_named_or_reported_shuffledHalves :
    (merge (shuffledHalves.map ofToken) : Traced Fault (List String)) =
        ⟨[.orphaned "x", .orphaned "hi", .orphaned "x"], .ok ["imm12hilo", "rd"]⟩ ∧
      (merge (shuffledHalves.reverse.map ofToken) : Traced Fault (List String)).outcome =
        .ok ["rd", "imm12hilo"] ∧
      [Event.orphaned "x", .orphaned "hi", .orphaned "x"].Perm
        (merge (shuffledHalves.reverse.map ofToken) : Traced Fault (List String)).events ∧
      (ofToken "imm12hi").canonical? = some "imm12hilo" ∧
      ∀ token, (ofToken token).canonical? = some "imm12hilo" → token = "imm12hi" := by
  have ⟨_, unique, _, _, merging⟩ := fields_named_or_reported (ε := Fault)
  have ⟨_, _, _, _, _, _, permuted⟩ := merging shuffledHalves
  have ⟨_, _, _, warnings⟩ := permuted _ (List.reverse_perm shuffledHalves).symm
  exact ⟨rfl, rfl, warnings, rfl, fun token given => unique token "imm12hi" _ given rfl⟩

end FieldPart

end OpcodeTable
