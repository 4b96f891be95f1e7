/-
This file reads quoted texts back. A notation says which characters stand for themselves between
the quotes, which letters stand for a character behind a backslash, and what may stand behind
`\u`. Reading is a relation between a text, what it begins with, and how it goes on: the closing
quote is found by reading up to it, so names that hold quotes, backslashes or pieces of the text
around them need no care of their own.

A notation keeps with it why nothing is read in two ways: neither the quote nor the backslash
stands for itself, no letter stands for two characters or is the mark of a number, and a number
is read in one way. A style of writing fits a notation when each single character that it spells
is read back; then every text that it quotes is.
-/

import Mathlib.Data.List.Nodup
import OpcodeTable.Proofs.Numerals
import OpcodeTable.Text.Quoted

namespace OpcodeTable.Text

/-! ### Runs of characters -/

/-- The text does not begin with such a character. -/
def Ends (inside : Char → Bool) (text : List Char) : Prop :=
  ∀ c ∈ text.head?, inside c = false

theorem Ends.cons {inside : Char → Bool} {c : Char} (outside : inside c = false)
    (rest : List Char) : Ends inside (c :: rest) :=
  fun _ first => Option.some.inj first ▸ outside

theorem Ends.mono {inside larger : Char → Bool} {text : List Char} (ends : Ends larger text)
    (weaker : ∀ c, inside c = true → larger c = true) : Ends inside text := by
  intro c first
  have outside := ends c first
  rw [Bool.eq_false_iff] at outside ⊢
  exact mt (weaker c) outside

theorem takeWhile_append_of_ends {inside : Char → Bool} {run rest : List Char}
    (all : ∀ c ∈ run, inside c = true) (ends : Ends inside rest) :
    (run ++ rest).takeWhile inside = run := by
  rw [List.takeWhile_append_of_pos all]
  cases rest with
  | nil => exact List.append_nil run
  | cons c rest =>
    have outside : inside c = false := ends c rfl
    rw [List.takeWhile_cons, outside, if_neg Bool.false_ne_true, List.append_nil]

/-- Two runs in front of characters that belong to neither are one. -/
theorem run_unique {inside : Char → Bool} {run other rest behind : List Char}
    (all : ∀ c ∈ run, inside c = true) (allOther : ∀ c ∈ other, inside c = true)
    (ends : Ends inside rest) (endsOther : Ends inside behind)
    (same : run ++ rest = other ++ behind) : run = other ∧ rest = behind := by
  have runs : run = other := by
    rw [← takeWhile_append_of_ends all ends, same, takeWhile_append_of_ends allOther endsOther]
  subst runs
  exact ⟨rfl, List.append_cancel_left same⟩

/-! ### Notations -/

/-- How the characters between two quotes are read. -/
structure Notation where
  /-- The characters that stand for themselves. -/
  Bare : Char → Prop
  /-- The letters behind a backslash, each with the character that it stands for. -/
  letters : List (Char × Char)
  /-- A text that stands behind a backslash and `u`, the character that it begins with the number
  of, and how it goes on. -/
  Number : List Char → Char → List Char → Prop
  bare_ne : ∀ {c}, Bare c → c ≠ '"' ∧ c ≠ '\\'
  letter_ne : ∀ pair ∈ letters, pair.1 ≠ 'u'
  letter_unique : (letters.map Prod.fst).Nodup
  number_unique : ∀ {text c rest d behind}, Number text c rest → Number text d behind →
    c = d ∧ rest = behind

/-- The text begins with characters that are read as the given ones, up to the closing quote, and
goes on with the rest. -/
inductive Spelt (rules : Notation) : List Char → List Char → List Char → Prop
  | close {rest : List Char} : Spelt rules ('"' :: rest) [] rest
  | bare {c : Char} {text characters rest : List Char} (allowed : rules.Bare c)
      (later : Spelt rules text characters rest) : Spelt rules (c :: text) (c :: characters) rest
  | letter {letter c : Char} {text characters rest : List Char}
      (known : (letter, c) ∈ rules.letters) (later : Spelt rules text characters rest) :
      Spelt rules ('\\' :: letter :: text) (c :: characters) rest
  | number {c : Char} {text behind characters rest : List Char}
      (numbered : rules.Number text c behind) (later : Spelt rules behind characters rest) :
      Spelt rules ('\\' :: 'u' :: text) (c :: characters) rest

/-- The text begins with a quoted text. -/
inductive Quoted (rules : Notation) : List Char → List Char → List Char → Prop
  | intro {text characters rest : List Char} (spelt : Spelt rules text characters rest) :
      Quoted rules ('"' :: text) characters rest

variable {rules : Notation} {text characters rest others behind : List Char}

theorem Notation.letter_inj {letter c d : Char} (known : (letter, c) ∈ rules.letters)
    (other : (letter, d) ∈ rules.letters) : c = d :=
  congrArg Prod.snd (List.inj_on_of_nodup_map rules.letter_unique known other rfl)

/-- No text is read in two ways. -/
theorem Spelt.unique (spelt : Spelt rules text characters rest)
    (other : Spelt rules text others behind) : characters = others ∧ rest = behind := by
  -- The first character tells the production, except that bare characters could be anything.
  induction spelt generalizing others with
  | close =>
    cases other with
    | close => exact ⟨rfl, rfl⟩
    | bare allowed _ => exact absurd rfl (rules.bare_ne allowed).1
  | bare allowed _ inductionHypothesis =>
    cases other with
    | close => exact absurd rfl (rules.bare_ne allowed).1
    | bare _ later =>
      obtain ⟨rfl, rfl⟩ := inductionHypothesis later
      exact ⟨rfl, rfl⟩
    | letter _ _ => exact absurd rfl (rules.bare_ne allowed).2
    | number _ _ => exact absurd rfl (rules.bare_ne allowed).2
  | letter known _ inductionHypothesis =>
    cases other with
    | bare allowed _ => exact absurd rfl (rules.bare_ne allowed).2
    | letter knownOther later =>
      obtain ⟨rfl, rfl⟩ := inductionHypothesis later
      exact ⟨congrArg (· :: _) (Notation.letter_inj known knownOther), rfl⟩
    | number _ _ => exact absurd rfl (rules.letter_ne _ known)
  | number numbered _ inductionHypothesis =>
    cases other with
    | bare allowed _ => exact absurd rfl (rules.bare_ne allowed).2
    | letter known _ => exact absurd rfl (rules.letter_ne _ known)
    | number numberedOther later =>
      obtain ⟨rfl, rfl⟩ := rules.number_unique numbered numberedOther
      obtain ⟨rfl, rfl⟩ := inductionHypothesis later
      exact ⟨rfl, rfl⟩

theorem Quoted.unique (quoted : Quoted rules text characters rest)
    (other : Quoted rules text others behind) : characters = others ∧ rest = behind := by
  obtain ⟨spelt⟩ := quoted
  obtain ⟨speltOther⟩ := other
  exact spelt.unique speltOther

/-! ### Styles -/

namespace QuoteStyle

/-- What the style writes for a single character is read as that character. -/
structure Fits (style : QuoteStyle) (rules : Notation) : Prop where
  letter : ∀ pair ∈ style.letters, (pair.2, pair.1) ∈ rules.letters
  number : ∀ c, style.byNumber c = true →
    ∃ digits, style.number c.toNat = 'u' :: digits ∧ ∀ rest, rules.Number (digits ++ rest) c rest
  bare : ∀ c, style.letters.lookup c = none → style.byNumber c = false → rules.Bare c

theorem mem_of_lookup {letters : List (Char × Char)} {c letter : Char}
    (found : letters.lookup c = some letter) : (c, letter) ∈ letters := by
  obtain ⟨before, after, rfl, _⟩ := List.lookup_eq_some_iff.mp found
  exact List.mem_append_right before List.mem_cons_self

variable {style : QuoteStyle}

theorem Fits.spell (fits : style.Fits rules) (c : Char) (later : Spelt rules text characters rest) :
    Spelt rules (style.spell c ++ text) (c :: characters) rest := by
  unfold QuoteStyle.spell
  cases found : style.letters.lookup c with
  | some letter => exact .letter (fits.letter _ (mem_of_lookup found)) later
  | none =>
    cases numbered : style.byNumber c with
    | true =>
      obtain ⟨digits, spelling, read⟩ := fits.number c numbered
      dsimp only
      rw [if_pos rfl, spelling]
      exact .number (read text) later
    | false => exact .bare (fits.bare c found numbered) later

/-- A text that is quoted in a style that fits the notation is read back, whatever it is and
whatever stands behind it. -/
theorem Fits.quote (fits : style.Fits rules) (characters rest : List Char) :
    Quoted rules (style.quote characters ++ rest) characters rest := by
  have spelt : Spelt rules (characters.flatMap style.spell ++ '"' :: rest) characters rest := by
    induction characters with
    | nil => exact .close
    | cons c characters inductionHypothesis =>
      rw [List.flatMap_cons, List.append_assoc]
      exact fits.spell c inductionHypothesis
  have closed : style.quote characters ++ rest =
      '"' :: (characters.flatMap style.spell ++ '"' :: rest) := by
    rw [QuoteStyle.quote, List.cons_append, List.append_assoc, List.singleton_append]
  rw [closed]
  exact .intro spelt

/-- Whatever it quotes, the style writes no other characters than these. -/
structure Shows (style : QuoteStyle) (seen : Char → Prop) : Prop where
  quote : seen '"'
  backslash : seen '\\'
  letter : ∀ pair ∈ style.letters, seen pair.2
  number : ∀ n, ∀ c ∈ style.number n, seen c
  bare : ∀ c, style.letters.lookup c = none → style.byNumber c = false → seen c

variable {seen : Char → Prop}

theorem Shows.mem_spell (shows : style.Shows seen) {written c : Char}
    (member : c ∈ style.spell written) : seen c := by
  unfold QuoteStyle.spell at member
  cases found : style.letters.lookup written with
  | some letter =>
    rw [found] at member
    rcases List.mem_cons.mp member with rfl | last
    · exact shows.backslash
    · exact List.mem_singleton.mp last ▸ shows.letter _ (mem_of_lookup found)
  | none =>
    rw [found] at member
    dsimp only at member
    cases numbered : style.byNumber written with
    | true =>
      rw [numbered, if_pos rfl] at member
      rcases List.mem_cons.mp member with rfl | digit
      · exact shows.backslash
      · exact shows.number _ c digit
    | false =>
      rw [numbered, if_neg Bool.false_ne_true] at member
      exact List.mem_singleton.mp member ▸ shows.bare written found numbered

theorem Shows.mem_quote (shows : style.Shows seen) {characters : List Char} {c : Char}
    (member : c ∈ style.quote characters) : seen c := by
  rcases List.mem_cons.mp member with rfl | inside
  · exact shows.quote
  · rcases List.mem_append.mp inside with spelt | last
    · obtain ⟨written, _, here⟩ := List.mem_flatMap.mp spelt
      exact shows.mem_spell here
    · exact List.mem_singleton.mp last ▸ shows.quote

theorem quoteAll_singleton (style : QuoteStyle) (mark : List Char) (text : String) :
    style.quoteAll mark [text] = style.quote text.toList :=
  List.intercalate_singleton

theorem quoteAll_cons_cons (style : QuoteStyle) (mark : List Char) (text next : String)
    (texts : List String) :
    style.quoteAll mark (text :: next :: texts) =
      style.quote text.toList ++ (mark ++ style.quoteAll mark (next :: texts)) :=
  List.intercalate_cons_cons.trans (List.append_assoc _ _ _)

theorem Shows.mem_quoteAll (shows : style.Shows seen) {mark : List Char}
    (marked : ∀ c ∈ mark, seen c) {texts : List String} {c : Char}
    (member : c ∈ style.quoteAll mark texts) : seen c := by
  induction texts with
  | nil => cases member
  | cons text texts inductionHypothesis =>
    cases texts with
    | nil =>
      rw [quoteAll_singleton] at member
      exact shows.mem_quote member
    | cons next texts =>
      rw [quoteAll_cons_cons] at member
      rcases List.mem_append.mp member with quoted | behind
      · exact shows.mem_quote quoted
      · rcases List.mem_append.mp behind with between | later
        · exact marked c between
        · exact inductionHypothesis later

end QuoteStyle

end OpcodeTable.Text
