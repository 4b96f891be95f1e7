/-
This file cuts a text into the runs of characters between separators. Separators in a row, and
those at the two ends, leave no empty run. Cutting walks the text once and keeps the characters
of the run it is in, latest first, so it recurs on the text itself and a closed text can be
evaluated in a proof.
-/

namespace OpcodeTable.Text

/-- Put a finished run, collected latest character first, in front of the runs after it; a run
without characters is none. -/
def closeRun (run : List Char) (later : List (List Char)) : List (List Char) :=
  if run.isEmpty then later else run.reverse :: later

/-- The runs of a text whose first run has already begun with the given characters, latest
first. -/
def runsFrom (separates : Char → Bool) (run : List Char) : List Char → List (List Char)
  | [] => closeRun run []
  | c :: rest =>
    if separates c then closeRun run (runsFrom separates [] rest)
    else runsFrom separates (c :: run) rest

/-- The longest runs of characters that do not separate, in order. -/
def runs (separates : Char → Bool) (text : List Char) : List (List Char) :=
  runsFrom separates [] text

/-! ### Where runs may be cut -/

theorem closeRun_append (run : List Char) (first second : List (List Char)) :
    closeRun run (first ++ second) = closeRun run first ++ second := by
  unfold closeRun
  split <;> rfl

/-- Characters that do not separate go on with the run that they stand behind. -/
theorem runsFrom_append_letters {separates : Char → Bool} {letters : List Char}
    (letter : ∀ c ∈ letters, separates c = false) (run later : List Char) :
    runsFrom separates run (letters ++ later) =
      runsFrom separates (letters.reverse ++ run) later := by
  induction letters generalizing run with
  | nil => rfl
  | cons c rest inductionHypothesis =>
    rw [List.cons_append, runsFrom, letter c List.mem_cons_self]
    simp only [Bool.false_eq_true, if_false]
    rw [inductionHypothesis (fun other member => letter other (List.mem_cons_of_mem _ member)),
      List.reverse_cons, List.append_assoc, List.singleton_append]

theorem runsFrom_append_separator {separates : Char → Bool} {c : Char}
    (separator : separates c = true) (run text later : List Char) :
    runsFrom separates run (text ++ c :: later) =
      runsFrom separates run text ++ runs separates later := by
  induction text generalizing run with
  | nil =>
    simp only [List.nil_append, runsFrom, separator, if_true, runs]
    exact closeRun_append run [] _
  | cons first rest inductionHypothesis =>
    simp only [List.cons_append, runsFrom]
    split
    · rw [inductionHypothesis, closeRun_append]
    · rw [inductionHypothesis]

/-- A separator cuts a text into two, and no run reaches across it. -/
theorem runs_append_separator {separates : Char → Bool} {c : Char}
    (separator : separates c = true) (text later : List Char) :
    runs separates (text ++ c :: later) = runs separates text ++ runs separates later :=
  runsFrom_append_separator separator [] text later

/-! ### Where runs begin -/

/-- A run that has begun is the first of the runs, whatever is still to come of it. -/
theorem runsFrom_of_begun (separates : Char → Bool) {run : List Char} (begun : run ≠ [])
    (text : List Char) :
    ∃ tail later, runsFrom separates run text = (run.reverse ++ tail) :: later := by
  induction text generalizing run with
  | nil =>
    refine ⟨[], [], ?_⟩
    rw [runsFrom, closeRun, if_neg (by simpa using begun), List.append_nil]
  | cons c rest inductionHypothesis =>
    rw [runsFrom]
    split
    · refine ⟨[], runsFrom separates [] rest, ?_⟩
      rw [closeRun, if_neg (by simpa using begun), List.append_nil]
    · obtain ⟨tail, later, same⟩ := inductionHypothesis (List.cons_ne_nil c run)
      refine ⟨c :: tail, later, ?_⟩
      rw [same, List.reverse_cons, List.append_assoc, List.singleton_append]

/-- The first run begins with the first character that does not separate. -/
theorem runs_of_dropWhile (separates : Char → Bool) (text : List Char) :
    match text.dropWhile separates with
    | [] => runs separates text = []
    | c :: _ => ∃ tail later, runs separates text = (c :: tail) :: later := by
  induction text with
  | nil => rfl
  | cons c rest inductionHypothesis =>
    rw [List.dropWhile_cons, runs, runsFrom]
    cases separates c with
    | true => exact inductionHypothesis
    | false => exact runsFrom_of_begun separates (List.cons_ne_nil c []) rest

/-! ### What runs are -/

/-- Characters that do not separate are one run. -/
theorem runs_of_letters {separates : Char → Bool} {letters : List Char} (some : letters ≠ [])
    (letter : ∀ c ∈ letters, separates c = false) : runs separates letters = [letters] := by
  have whole := runsFrom_append_letters letter [] []
  rw [List.append_nil, List.append_nil, runsFrom, closeRun,
    if_neg (by simpa using some), List.reverse_reverse] at whole
  exact whole

theorem runs_append_gap {separates : Char → Bool} {gap : List Char} (some : gap ≠ [])
    (separator : ∀ c ∈ gap, separates c = true) (text later : List Char) :
    runs separates (text ++ (gap ++ later)) = runs separates text ++ runs separates later := by
  induction gap generalizing text with
  | nil => exact absurd rfl some
  | cons c rest inductionHypothesis =>
    rw [List.cons_append, runs_append_separator (separator c List.mem_cons_self)]
    cases rest with
    | nil => rfl
    | cons next others =>
      have behind := inductionHypothesis (List.cons_ne_nil next others)
        (fun other member => separator other (List.mem_cons_of_mem _ member)) []
      rw [List.nil_append] at behind
      rw [behind]
      rfl

end OpcodeTable.Text
