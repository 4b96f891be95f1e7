/-
This file is about laying words out in a line and cutting the line again. A layout has space of
any kind and length in front of the first word and behind the last, and some space between two
words, since without it they would be one. Cutting does not see how much there is: the line gives
the words that were laid out in it. Every line is a layout of some words, so these are the words
that it gives, and no others.
-/

import Mathlib.Logic.Basic
import OpcodeTable.Line

namespace OpcodeTable

open Text

namespace Text

/-! ### Space -/

/-- The code points with the property White_Space, one by one. -/
def spaceCodePoints : List Nat :=
  [0x9, 0xA, 0xB, 0xC, 0xD, 0x20, 0x85, 0xA0, 0x1680, 0x2000, 0x2001, 0x2002, 0x2003, 0x2004,
    0x2005, 0x2006, 0x2007, 0x2008, 0x2009, 0x200A, 0x2028, 0x2029, 0x202F, 0x205F, 0x3000]

theorem inRanges_cons {codePoint first last : Nat} {later : List (Nat × Nat)} :
    inRanges codePoint ((first, last) :: later) = true ↔
      first ≤ codePoint ∧ (codePoint ≤ last ∨ inRanges codePoint later = true) := by
  rw [inRanges]
  split
  · next below => exact iff_of_false Bool.false_ne_true fun inside => by omega
  · next reached =>
    rw [Bool.or_eq_true, decide_eq_true_eq, and_iff_right (Nat.le_of_not_lt reached)]

theorem isSpace_iff (c : Char) : isSpace c = true ↔ c.toNat ∈ spaceCodePoints := by
  have outside : inRanges c.toNat [] = true ↔ False := iff_of_false Bool.false_ne_true id
  simp only [isSpace, spaceRanges, inRanges_cons, outside, spaceCodePoints, List.mem_cons,
    List.not_mem_nil, or_false]
  omega

/-! ### Words -/

/-- A word is not empty and holds no space. -/
def IsWord (text : List Char) : Prop := text ≠ [] ∧ ∀ c ∈ text, isSpace c = false

-- The characters of the text are gone through; all characters there are would be too many.
instance (text : List Char) : Decidable (IsWord text) :=
  @instDecidableAnd _ _ inferInstance (List.decidableBAll (isSpace · = false) text)

theorem isWord_singleton {c : Char} (letter : isSpace c = false) : IsWord [c] :=
  ⟨List.cons_ne_nil c [], fun _ member => List.mem_singleton.mp member ▸ letter⟩

theorem IsWord.cons {c : Char} (letter : isSpace c = false) {word : List Char}
    (isWord : IsWord word) : IsWord (c :: word) :=
  ⟨List.cons_ne_nil c word, List.forall_mem_cons.mpr ⟨letter, isWord.2⟩⟩

theorem words_of_space {text : List Char} (space : ∀ c ∈ text, isSpace c = true) :
    words text = [] := by
  induction text with
  | nil => rfl
  | cons c rest inductionHypothesis =>
    have ⟨first, later⟩ := List.forall_mem_cons.mp space
    exact (runs_append_separator first [] rest).trans (inductionHypothesis later)

/-! ### Layouts -/

/-- The text goes on, behind a word, with the given words and ends in space. In front of each
word is some space. -/
inductive Follows : List (List Char) → List Char → Prop
  | last {behind : List Char} (space : ∀ c ∈ behind, isSpace c = true) : Follows [] behind
  | word {gap word later : List Char} {words : List (List Char)} (some : gap ≠ [])
      (space : ∀ c ∈ gap, isSpace c = true) (follows : Follows words later) :
      Follows (word :: words) (gap ++ (word ++ later))

/-- The text is the given words with space around and between them. -/
inductive LaidOut : List (List Char) → List Char → Prop
  | blank {text : List Char} (space : ∀ c ∈ text, isSpace c = true) : LaidOut [] text
  | words {front word later : List Char} {words : List (List Char)}
      (space : ∀ c ∈ front, isSpace c = true) (follows : Follows words later) :
      LaidOut (word :: words) (front ++ (word ++ later))

/-- A text that begins with a word is that word and what follows it. -/
theorem Follows.words_eq {words : List (List Char)} {later : List Char}
    (follows : Follows words later) (isWord : ∀ word ∈ words, IsWord word) {first : List Char}
    (isFirst : IsWord first) : Text.words (first ++ later) = first :: words := by
  induction follows generalizing first with
  | @last behind space =>
    cases behind with
    | nil =>
      rw [List.append_nil]
      exact runs_of_letters isFirst.1 isFirst.2
    | cons c rest =>
      have ⟨_, later⟩ := List.forall_mem_cons.mp space
      calc
        Text.words (first ++ c :: rest) = Text.words first ++ Text.words rest :=
          runs_append_separator (space c List.mem_cons_self) first rest
        _ = [first] ++ [] :=
          congrArg₂ (· ++ ·) (runs_of_letters isFirst.1 isFirst.2) (words_of_space later)
  | @word gap word later words some space _ inductionHypothesis =>
    have ⟨isNext, isLater⟩ := List.forall_mem_cons.mp isWord
    calc
      Text.words (first ++ (gap ++ (word ++ later))) =
          Text.words first ++ Text.words (word ++ later) := runs_append_gap some space _ _
      _ = [first] ++ word :: words :=
        congrArg₂ (· ++ ·) (runs_of_letters isFirst.1 isFirst.2)
          (inductionHypothesis isLater isNext)

theorem LaidOut.words_eq {words : List (List Char)} {text : List Char}
    (laidOut : LaidOut words text) (isWord : ∀ word ∈ words, IsWord word) :
    Text.words text = words := by
  cases laidOut with
  | blank space => exact words_of_space space
  | @words front word later words space follows =>
    have ⟨isFirst, isLater⟩ := List.forall_mem_cons.mp isWord
    have whole := follows.words_eq isLater isFirst
    cases front with
    | nil => exact whole
    | cons c rest =>
      calc
        Text.words ((c :: rest) ++ (word ++ later)) = Text.words [] ++ Text.words (word ++ later) :=
          runs_append_gap (List.cons_ne_nil c rest) space [] _
        _ = word :: words := whole

theorem LaidOut.cons_space {words : List (List Char)} {text : List Char}
    (laidOut : LaidOut words text) {c : Char} (space : isSpace c = true) :
    LaidOut words (c :: text) := by
  cases laidOut with
  | blank blank => exact .blank (List.forall_mem_cons.mpr ⟨space, blank⟩)
  | words blank follows => exact .words (List.forall_mem_cons.mpr ⟨space, blank⟩) follows

/-- A letter in front of a layout goes on with the first word when that begins the text, and is a
word of its own otherwise. -/
theorem LaidOut.cons_letter {words : List (List Char)} {text : List Char}
    (laidOut : LaidOut words text) (isWord : ∀ word ∈ words, IsWord word) {c : Char}
    (letter : isSpace c = false) :
    ∃ others, (∀ word ∈ others, IsWord word) ∧ LaidOut others (c :: text) := by
  have noSpace : ∀ c ∈ [], isSpace c = true := List.forall_mem_nil _
  cases laidOut with
  | blank space =>
    exact ⟨[[c]], List.forall_mem_singleton.mpr (isWord_singleton letter),
      .words noSpace (.last space)⟩
  | @words front word later words space follows =>
    have ⟨isFirst, isLater⟩ := List.forall_mem_cons.mp isWord
    cases front with
    | nil =>
      exact ⟨(c :: word) :: words, List.forall_mem_cons.mpr ⟨isFirst.cons letter, isLater⟩,
        .words noSpace follows⟩
    | cons first rest =>
      exact ⟨[c] :: word :: words, List.forall_mem_cons.mpr ⟨isWord_singleton letter, isWord⟩,
        .words noSpace (.word (List.cons_ne_nil first rest) space follows)⟩

theorem exists_laidOut (text : List Char) :
    ∃ words, (∀ word ∈ words, IsWord word) ∧ LaidOut words text := by
  induction text with
  | nil => exact ⟨[], List.forall_mem_nil _, .blank (List.forall_mem_nil _)⟩
  | cons c rest inductionHypothesis =>
    obtain ⟨words, isWord, laidOut⟩ := inductionHypothesis
    cases kind : isSpace c with
    | true => exact ⟨words, isWord, laidOut.cons_space kind⟩
    | false => exact laidOut.cons_letter isWord kind

/-- The words of a text are those that it is a layout of. -/
theorem words_eq_iff {text : List Char} {parts : List (List Char)} :
    words text = parts ↔ (∀ part ∈ parts, IsWord part) ∧ LaidOut parts text := by
  constructor
  · rintro rfl
    obtain ⟨parts, isWord, laidOut⟩ := exists_laidOut text
    rw [laidOut.words_eq isWord]
    exact ⟨isWord, laidOut⟩
  · exact fun ⟨isWord, laidOut⟩ => laidOut.words_eq isWord

/-- Space in front of a text makes no words. -/
theorem words_trimStart (text : List Char) : words (trimStart text) = words text := by
  induction text with
  | nil => rfl
  | cons c rest inductionHypothesis =>
    rw [trimStart, List.dropWhile_cons]
    cases kind : isSpace c with
    | true => exact inductionHypothesis.trans (runs_append_separator kind [] rest).symm
    | false => rfl

end Text

/-! ### Lines -/

theorem map_ofList_eq_iff {texts : List (List Char)} {strings : List String} :
    texts.map String.ofList = strings ↔ texts = strings.map String.toList := by
  constructor
  · rintro rfl
    rw [List.map_map]
    exact (List.map_congr_left fun text _ => String.toList_ofList).trans (List.map_id _) |>.symm
  · rintro rfl
    rw [List.map_map]
    exact (List.map_congr_left fun string _ => String.ofList_toList).trans (List.map_id _)

theorem tokens_eq_iff {line : String} {parts : List String} :
    tokens line = parts ↔
      (∀ part ∈ parts, IsWord part.toList) ∧ LaidOut (parts.map String.toList) line.toList := by
  rw [tokens, map_ofList_eq_iff, words_eq_iff, List.forall_mem_map]

theorem isWord_of_mem_tokens {line token : String} (member : token ∈ tokens line) :
    IsWord token.toList :=
  (tokens_eq_iff.mp rfl).1 token member

end OpcodeTable
