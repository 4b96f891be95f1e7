/-
This file is about catalog files. Such a file has a name on a line, with space around it and a
comment behind it, or a line without a name, and its last line may end with a newline or without.
None of this can be seen in what is read: the file gives the names in the order of their lines.
Every text is a file of this form for just one list of names, so a text lists the names that are
read from it, and no others. What it makes of them is what the list of names makes: a catalog when
no name stands twice, and else a refusal for the first name that repeats one before it.
-/

import Mathlib.Data.List.TakeWhile
import OpcodeTable.Proofs.Layout
import OpcodeTable.Proofs.Register

namespace OpcodeTable

open Text

namespace Text

/-! ### Space at the ends -/

section

variable {text gap : List Char}

theorem trimStart_gap_append (space : ∀ c ∈ gap, isSpace c = true) :
    trimStart (gap ++ text) = trimStart text :=
  List.dropWhile_append_of_pos space

theorem trim_gap_append (space : ∀ c ∈ gap, isSpace c = true) : trim (gap ++ text) = trim text := by
  rw [trim, trimStart_gap_append space, trim]

theorem trim_append_gap (space : ∀ c ∈ gap, isSpace c = true) : trim (text ++ gap) = trim text := by
  have behind : trimStart (text ++ gap) =
      if (trimStart text).isEmpty then trimStart gap else trimStart text ++ gap :=
    List.dropWhile_append
  rw [trim, trim, behind]
  by_cases blank : trimStart text = []
  · have none : trimStart gap = [] := List.dropWhile_eq_nil_iff.mpr space
    rw [blank, none]
    rfl
  · have backwards : ∀ c ∈ gap.reverse, isSpace c = true := fun c member =>
      space c (List.mem_reverse.mp member)
    rw [if_neg (mt List.isEmpty_iff.mp blank), List.reverse_append, trimStart_gap_append backwards]

theorem trimStart_of_letter (first : ∀ c ∈ text.head?, isSpace c = false) :
    trimStart text = text := by
  cases text with
  | nil => rfl
  | cons c rest => rw [trimStart, List.dropWhile_cons, first c rfl, if_neg Bool.false_ne_true]

theorem letter_of_head?_trimStart {c : Char} (found : (trimStart text).head? = some c) :
    isSpace c = false := by
  have stopped := List.head?_dropWhile_not isSpace text
  rw [← trimStart, found] at stopped
  exact stopped

/-- A text without the space in front is what trimming leaves of it, and space. -/
theorem exists_trimStart_eq (text : List Char) :
    ∃ back, trimStart text = trim text ++ back ∧ ∀ c ∈ back, isSpace c = true := by
  refine ⟨((trimStart text).reverse.takeWhile isSpace).reverse, ?_,
    fun c member => List.mem_takeWhile_imp (List.mem_reverse.mp member)⟩
  rw [trim, ← List.reverse_append]
  exact (List.reverse_reverse _).symm.trans (congrArg _ List.takeWhile_append_dropWhile.symm)

/-- A text is what trimming leaves of it, with space around that. -/
theorem exists_trim (text : List Char) :
    ∃ front back, text = front ++ (trim text ++ back) ∧ (∀ c ∈ front, isSpace c = true) ∧
      ∀ c ∈ back, isSpace c = true := by
  obtain ⟨back, rest, space⟩ := exists_trimStart_eq text
  refine ⟨text.takeWhile isSpace, back, ?_, fun c member => List.mem_takeWhile_imp member, space⟩
  rw [← rest]
  exact List.takeWhile_append_dropWhile.symm

theorem letter_of_head?_trim {c : Char} (found : (trim text).head? = some c) :
    isSpace c = false := by
  obtain ⟨back, rest, -⟩ := exists_trimStart_eq text
  have start : (trimStart text).head? = some c := by
    rw [rest, List.head?_append, found, Option.some_or]
  exact letter_of_head?_trimStart start

theorem letter_of_getLast?_trim {c : Char} (found : (trim text).getLast? = some c) :
    isSpace c = false := by
  rw [trim, List.getLast?_reverse] at found
  exact letter_of_head?_trimStart found

end

theorem linesFrom_append {line : List Char} (inside : '\n' ∉ line) (begun text : List Char) :
    linesFrom begun (line ++ text) = linesFrom (line.reverse ++ begun) text := by
  induction line generalizing begun with
  | nil => rfl
  | cons c rest inductionHypothesis =>
    rw [List.mem_cons, not_or] at inside
    rw [List.cons_append, linesFrom, if_neg (Ne.symm inside.1), inductionHypothesis inside.2,
      List.reverse_cons, List.append_assoc, List.singleton_append]

end Text

namespace Catalog

/-! ### Catalog files -/

/-- What a catalog file can list: a name with no space at its ends, and without the characters
that end a name. -/
structure IsEntry (name : List Char) : Prop where
  nonempty : name ≠ []
  first : ∀ c ∈ name.head?, isSpace c = false
  last : ∀ c ∈ name.getLast?, isSpace c = false
  hash : '#' ∉ name
  newline : '\n' ∉ name

-- The one character is looked at; all characters there are would be too many.
instance (last : Option Char) : Decidable (∀ c ∈ last, isSpace c = false) :=
  last.decidableForallMem

instance (name : List Char) : Decidable (IsEntry name) :=
  decidable_of_iff
    (name ≠ [] ∧ (∀ c ∈ name.head?, isSpace c = false) ∧ (∀ c ∈ name.getLast?, isSpace c = false) ∧
      '#' ∉ name ∧ '\n' ∉ name)
    ⟨fun ⟨nonempty, first, last, hash, newline⟩ => ⟨nonempty, first, last, hash, newline⟩,
      fun ⟨nonempty, first, last, hash, newline⟩ => ⟨nonempty, first, last, hash, newline⟩⟩

/-- Space within a line. -/
def Gap (text : List Char) : Prop := ∀ c ∈ text, isSpace c = true ∧ c ≠ '\n'

instance (text : List Char) : Decidable (Gap text) :=
  List.decidableBAll (fun c => isSpace c = true ∧ c ≠ '\n') text

/-- A comment up to the end of its line, or nothing. -/
inductive Remark : List Char → Prop
  | none : Remark []
  | hash {comment : List Char} (newline : '\n' ∉ comment) : Remark ('#' :: comment)

/-- A line of a catalog file lists a name or none. -/
inductive Line : List (List Char) → List Char → Prop
  | blank {gap remark : List Char} (space : Gap gap) (isRemark : Remark remark) :
      Line [] (gap ++ remark)
  | name {front name back remark : List Char} (ahead : Gap front) (behind : Gap back)
      (isRemark : Remark remark) : Line [name] (front ++ (name ++ (back ++ remark)))

/-- What closes a line. -/
inductive Ending : List Char → Prop
  | newline : Ending ['\n']
  | returned : Ending ['\r', '\n']

/-- The text is a catalog file that lists the given names. Its last line, which may be without
characters, is not closed. -/
inductive File : List (List Char) → List Char → Prop
  | last {names : List (List Char)} {line : List Char} (isLine : Line names line) :
      File names line
  | line {names others : List (List Char)} {line ending later : List Char}
      (isLine : Line names line) (isEnding : Ending ending) (file : File others later) :
      File (names ++ others) (line ++ (ending ++ later))

/-! ### What a line lists -/

/-- The text of a line in front of its comment, without the space around it. -/
def bare (line : List Char) : List Char := trim (line.takeWhile (· ≠ '#'))

/-- The name on a line, unless there is none. -/
def named (line : List Char) : List (List Char) := [bare line].filter (!·.isEmpty)

theorem named_of_blank {line : List Char} (blank : bare line = []) : named line = [] := by
  rw [named, blank]
  rfl

theorem named_of_some {line : List Char} (some : bare line ≠ []) : named line = [bare line] :=
  List.filter_eq_self.mpr (List.forall_mem_singleton.mpr (by simpa using some))

theorem Gap.hash {gap : List Char} (space : Gap gap) : '#' ∉ gap :=
  fun member => nomatch (space '#' member).1

theorem takeWhile_append_remark {front remark : List Char} (hash : '#' ∉ front)
    (isRemark : Remark remark) : (front ++ remark).takeWhile (· ≠ '#') = front := by
  have before : ∀ c ∈ front, decide (c ≠ '#') = true := fun c member =>
    decide_eq_true fun same => hash (same ▸ member)
  rw [List.takeWhile_append_of_pos before]
  cases isRemark with
  | none => exact List.append_nil front
  | hash _ => exact List.append_nil front

theorem IsEntry.trim_eq {name : List Char} (isEntry : IsEntry name) : trim name = name := by
  have backwards : trimStart name.reverse = name.reverse :=
    trimStart_of_letter fun c found => isEntry.last c (List.head?_reverse.symm.trans found)
  rw [trim, trimStart_of_letter isEntry.first, backwards, List.reverse_reverse]

theorem Line.named_eq {names : List (List Char)} {line : List Char} (isLine : Line names line)
    (isEntry : ∀ name ∈ names, IsEntry name) : named line = names := by
  cases isLine with
  | @blank gap remark space isRemark =>
    refine named_of_blank ?_
    rw [bare, takeWhile_append_remark space.hash isRemark, ← List.append_nil gap,
      trim_gap_append fun c member => (space c member).1]
    rfl
  | @name front name back remark ahead behind isRemark =>
    have isEntry := List.forall_mem_singleton.mp isEntry
    have content : bare (front ++ (name ++ (back ++ remark))) = name := by
      have hash : '#' ∉ front ++ (name ++ back) := by
        simp [ahead.hash, isEntry.hash, behind.hash]
      have cut := takeWhile_append_remark hash isRemark
      rw [List.append_assoc, List.append_assoc] at cut
      rw [bare, cut, trim_gap_append fun c member => (ahead c member).1,
        trim_append_gap fun c member => (behind c member).1, isEntry.trim_eq]
    rw [named_of_some (content.symm ▸ isEntry.nonempty), content]

theorem named_append_return (line : List Char) : named (line ++ ['\r']) = named line := by
  have same : bare (line ++ ['\r']) = bare line := by
    rw [bare, List.takeWhile_append]
    split
    · next whole =>
      have all : line.takeWhile (· ≠ '#') = line :=
        List.IsPrefix.eq_of_length (List.takeWhile_prefix _) whole
      rw [bare, all]
      exact trim_append_gap (List.forall_mem_singleton.mpr rfl)
    · rfl
  rw [named, named, same]

theorem remark_dropWhile {line : List Char} (newline : '\n' ∉ line) :
    Remark (line.dropWhile (· ≠ '#')) := by
  have inside : '\n' ∉ line.dropWhile (· ≠ '#') := fun member =>
    newline ((List.dropWhile_suffix _).mem member)
  have stopped := List.head?_dropWhile_not (· ≠ '#') line
  generalize line.dropWhile (· ≠ '#') = rest at inside stopped
  cases rest with
  | nil => exact .none
  | cons c comment =>
    have hash : c = '#' := of_not_not (of_decide_eq_false stopped)
    subst hash
    exact .hash fun member => inside (List.mem_cons_of_mem _ member)

/-- What is read from a line stands in it with space around, and a comment may come behind. -/
theorem exists_cut {line : List Char} (newline : '\n' ∉ line) :
    ∃ front back remark, line = front ++ (bare line ++ (back ++ remark)) ∧ Gap front ∧ Gap back ∧
      Remark remark := by
  obtain ⟨front, back, whole, ahead, behind⟩ := exists_trim (line.takeWhile (· ≠ '#'))
  have text : line = front ++ (bare line ++ (back ++ line.dropWhile (· ≠ '#'))) := by
    rw [← List.append_assoc (bare line), ← List.append_assoc front]
    exact List.takeWhile_append_dropWhile.symm.trans (congrArg (· ++ _) whole)
  refine ⟨front, back, _, text, fun c member => ⟨ahead c member, ?_⟩,
    fun c member => ⟨behind c member, ?_⟩, remark_dropWhile newline⟩
  all_goals
    rintro rfl
    rw [text] at newline
    simp [member] at newline

theorem isEntry_of_mem_named {line name : List Char} (newline : '\n' ∉ line)
    (member : name ∈ named line) : IsEntry name := by
  obtain ⟨member, nonempty⟩ := List.mem_filter.mp member
  cases List.mem_singleton.mp member
  refine ⟨by simpa using nonempty, fun c => letter_of_head?_trim, fun c => letter_of_getLast?_trim,
    fun hash => ?_, fun inside => ?_⟩
  · obtain ⟨front, back, whole, -, -⟩ := exists_trim (line.takeWhile (· ≠ '#'))
    have before : '#' ∈ line.takeWhile (· ≠ '#') := by
      rw [whole]
      exact List.mem_append_right _ (List.mem_append_left _ hash)
    exact absurd (List.mem_takeWhile_imp before) (by decide)
  · obtain ⟨front, back, remark, text, -⟩ := exists_cut newline
    rw [text] at newline
    simp [inside] at newline

theorem line_named {line : List Char} (newline : '\n' ∉ line) : Line (named line) line := by
  obtain ⟨front, back, remark, text, ahead, behind, isRemark⟩ := exists_cut newline
  by_cases blank : bare line = []
  · rw [blank, List.nil_append, ← List.append_assoc] at text
    have space : Gap (front ++ back) := List.forall_mem_append.mpr ⟨ahead, behind⟩
    rw [named_of_blank blank, text]
    exact .blank space isRemark
  · have isLine := @Line.name front (bare line) back remark ahead behind isRemark
    rwa [← text, ← named_of_some blank] at isLine

/-! ### What a file lists -/

/-- What is read from a text whose first line has already begun. -/
def namedFrom (begun text : List Char) : List (List Char) :=
  ((linesFrom begun text).map bare).filter (!·.isEmpty)

theorem namedFrom_nil (begun : List Char) : namedFrom begun [] = named begun.reverse := by
  cases begun with
  | nil => rfl
  | cons c rest => rfl

theorem namedFrom_newline (begun later : List Char) :
    namedFrom begun ('\n' :: later) = named begun.reverse ++ namedFrom [] later := by
  have stripped : named (stripReturn begun).reverse = named begun.reverse := by
    unfold stripReturn
    split
    · rw [List.reverse_cons, named_append_return]
    · rfl
  rw [← stripped, namedFrom, linesFrom, if_pos rfl, List.map_cons, ← List.singleton_append,
    List.filter_append, named, namedFrom]

theorem namedFrom_append {line : List Char} (newline : '\n' ∉ line) (begun text : List Char) :
    namedFrom begun (line ++ text) = namedFrom (line.reverse ++ begun) text := by
  rw [namedFrom, linesFrom_append newline, namedFrom]

theorem Remark.newline {remark : List Char} (isRemark : Remark remark) : '\n' ∉ remark := by
  cases isRemark with
  | none => exact List.not_mem_nil
  | hash newline => simp [newline]

theorem Gap.newline {gap : List Char} (space : Gap gap) : '\n' ∉ gap :=
  fun member => (space '\n' member).2 rfl

theorem Line.newline {names : List (List Char)} {line : List Char} (isLine : Line names line)
    (isEntry : ∀ name ∈ names, IsEntry name) : '\n' ∉ line := by
  cases isLine with
  | blank space isRemark => simp [space.newline, isRemark.newline]
  | name ahead behind isRemark =>
    have isEntry := List.forall_mem_singleton.mp isEntry
    simp [ahead.newline, isEntry.newline, behind.newline, isRemark.newline]

theorem File.namedFrom_eq {names : List (List Char)} {text : List Char} (file : File names text)
    (isEntry : ∀ name ∈ names, IsEntry name) : namedFrom [] text = names := by
  induction file with
  | @last names line isLine =>
    have whole := namedFrom_append (isLine.newline isEntry) [] []
    rw [List.append_nil, List.append_nil, namedFrom_nil, List.reverse_reverse] at whole
    exact whole.trans (isLine.named_eq isEntry)
  | @line names others line ending later isLine isEnding _ inductionHypothesis =>
    have ⟨isFirst, isLater⟩ := List.forall_mem_append.mp isEntry
    rw [namedFrom_append (isLine.newline isFirst), List.append_nil]
    cases isEnding with
    | newline =>
      rw [List.singleton_append, namedFrom_newline, List.reverse_reverse, isLine.named_eq isFirst,
        inductionHypothesis isLater]
    | returned =>
      have closed : namedFrom line.reverse ('\r' :: '\n' :: later) =
          namedFrom ('\r' :: line.reverse) ('\n' :: later) := rfl
      rw [List.cons_append, List.singleton_append, closed, namedFrom_newline, List.reverse_cons,
        List.reverse_reverse, named_append_return, isLine.named_eq isFirst,
        inductionHypothesis isLater]

/-- Every text is a catalog file of the names that are read from it. -/
theorem file_namedFrom {begun : List Char} (newline : '\n' ∉ begun) (text : List Char) :
    (∀ name ∈ namedFrom begun text, IsEntry name) ∧
      File (namedFrom begun text) (begun.reverse ++ text) := by
  induction text generalizing begun with
  | nil =>
    have newline : '\n' ∉ begun.reverse := mt List.mem_reverse.mp newline
    rw [namedFrom_nil, List.append_nil]
    exact ⟨fun name => isEntry_of_mem_named newline, .last (line_named newline)⟩
  | cons c rest inductionHypothesis =>
    by_cases closes : c = '\n'
    · have newline : '\n' ∉ begun.reverse := mt List.mem_reverse.mp newline
      have ⟨isLater, file⟩ := inductionHypothesis List.not_mem_nil
      subst closes
      rw [namedFrom_newline]
      exact ⟨List.forall_mem_append.mpr ⟨fun name => isEntry_of_mem_named newline, isLater⟩,
        .line (line_named newline) .newline file⟩
    · have longer : '\n' ∉ c :: begun := by simp [Ne.symm closes, newline]
      have moved := inductionHypothesis longer
      rw [List.reverse_cons, List.append_assoc] at moved
      have read : namedFrom begun (c :: rest) = namedFrom (c :: begun) rest := by
        rw [namedFrom, linesFrom, if_neg closes, namedFrom]
      rwa [read]

/-- The names that a text lists. -/
def fileNames (text : String) : List String :=
  (((lines text).map entry).filter (!·.isEmpty)).map String.ofList

theorem parse_eq (text : String) : parse text = ofNames (fileNames text) := rfl

theorem fileNames_eq (text : String) :
    fileNames text = (namedFrom [] text.toList).map String.ofList := by
  have read : entry ∘ String.ofList = bare := by
    funext line
    rw [Function.comp, entry, String.toList_ofList, bare]
  rw [fileNames, lines, List.map_map, read, namedFrom]

/-- A text lists just the names that it is a catalog file of. -/
theorem fileNames_eq_iff {text : String} {names : List String} :
    fileNames text = names ↔
      (∀ name ∈ names, IsEntry name.toList) ∧ File (names.map String.toList) text.toList := by
  rw [fileNames_eq, map_ofList_eq_iff, ← List.forall_mem_map]
  constructor
  · intro same
    rw [← same]
    exact file_namedFrom List.not_mem_nil text.toList
  · exact fun ⟨isEntry, file⟩ => file.namedFrom_eq isEntry

/-! ### Catalogs of names -/

/-- A list of names has a catalog just when no name stands twice. Then the catalog has these names
in this order, the rank of a name is its place, so just the names of the list have one, and the
table that is kept beside the list has the same names and finds each at its rank. Every other list
is refused, with the table or without, for the name at the first place where one repeats a name
before it. A file that lists the names gives what the list gives, however it is laid out. -/
theorem names_make_catalog (names : List String) :
    ((∃ catalog, ofNames names = .ok catalog) ↔ names.Nodup) ∧
      (∀ catalog, ofNames names = .ok catalog ↔ catalog.names = names) ∧
      (∀ catalog, ofNames names = .ok catalog →
        (∀ name rank, catalog.rank? name = some rank ↔ names[rank]? = some name) ∧
          (∀ name, name ∈ catalog ↔ ∃ rank, catalog.rank? name = some rank) ∧
          (∀ name rank, catalog.rank? name = some rank → rank < names.length) ∧
          ∃ register, Register.ofNames names = .ok register ∧ register.names = names ∧
            ∀ name, register.places[name]? = catalog.rank? name) ∧
      (∀ repeated,
        (ofNames names = .error repeated ↔
          ∃ place, names[place]? = some repeated.name ∧ repeated.name ∈ names.take place ∧
            ∀ earlier < place, ∀ other, names[earlier]? = some other →
              other ∉ names.take earlier) ∧
          (Register.ofNames names = .error repeated ↔ ofNames names = .error repeated)) ∧
      ∀ text : String, (∀ name ∈ names, IsEntry name.toList) →
        File (names.map String.toList) text.toList → parse text = ofNames names := by
  refine ⟨exists_ofNames_iff, fun catalog => ofNames_eq_ok_iff, fun catalog built => ?_,
    fun repeated => ⟨ofNames_eq_error_iff_repeats, Register.ofNames_eq_error_iff⟩,
    fun text isEntry file => ?_⟩
  · have same : catalog.names = names := ofNames_eq_ok_iff.mp built
    have ranks (name : String) (rank : Nat) :
        catalog.rank? name = some rank ↔ names[rank]? = some name := same ▸ rank?_eq_some_iff
    refine ⟨ranks, fun name => exists_rank?_iff.symm, fun name rank found => ?_, ?_⟩
    · exact (List.getElem?_eq_some_iff.mp ((ranks name rank).mp found)).1
    · exact Register.exists_ofNames built
  · rw [parse_eq, fileNames_eq_iff.mpr ⟨isEntry, file⟩]

/-- Two names in a file with comments, space, a line without anything and no newline at its end. -/
def sparseFile : String := "# rd\r\n\t rd # rd\n\nrs 1\r"

theorem names_make_catalog_sparseFile :
    (∀ name ∈ ["rd", "rs 1"], IsEntry name.toList) ∧
      File (["rd", "rs 1"].map String.toList) sparseFile.toList ∧
      (∃ catalog, parse sparseFile = .ok catalog ∧ catalog.rank? "rs 1" = some 1) ∧
      ofNames ["rd", "rs 1", "rd", "rs 1"] = .error ⟨"rd"⟩ := by
  have isEntry : ∀ name ∈ ["rd", "rs 1"], IsEntry name.toList := by decide
  have comment : Line [] "# rd".toList := .blank (List.forall_mem_nil _) (.hash (by decide))
  have first : Line ["rd".toList] "\t rd # rd".toList :=
    @Line.name ['\t', ' '] ['r', 'd'] [' '] "# rd".toList (by decide) (by decide)
      (.hash (by decide))
  have nothing : Line [] [] := .blank (List.forall_mem_nil _) .none
  have last : Line ["rs 1".toList] "rs 1\r".toList :=
    @Line.name [] "rs 1".toList ['\r'] [] (by decide) (by decide) .none
  have file : File (["rd", "rs 1"].map String.toList) sparseFile.toList :=
    .line comment .returned (.line first .newline (.line nothing .newline (.last last)))
  refine ⟨isEntry, file, ?_, ?_⟩
  · have ⟨makes, _, ranks, _, reads⟩ := names_make_catalog ["rd", "rs 1"]
    obtain ⟨catalog, built⟩ := makes.mpr (by decide)
    refine ⟨catalog, (reads sparseFile isEntry file).trans built, ?_⟩
    exact ((ranks catalog built).1 "rs 1" 1).mpr rfl
  · have ⟨_, _, _, refused, _⟩ := names_make_catalog ["rd", "rs 1", "rd", "rs 1"]
    refine (refused ⟨"rd"⟩).1.mpr ⟨2, rfl, by decide, fun earlier before other found => ?_⟩
    match earlier, before with
    | 0, _ => exact List.not_mem_nil
    | 1, _ =>
      cases found
      decide

end Catalog

end OpcodeTable
