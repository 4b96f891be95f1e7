/-
This file says what a verbose flag among the arguments changes: whether they ask for it, and nothing
else. Two arguments can begin with it, its long name and a bundle of letters, and what stands behind
two dashes is no flag. Where the last argument before it waits for a value it cannot stand, since a
value does not begin with a dash; everywhere else a reading with the flag goes on as the one without
it, with the flag raised. The one difference is that what is pending is checked where the flag
begins. So if that value is refused, then both readings are, though the one without the flag may
come upon another fault before it checks the value.
-/

import Mathlib.Data.List.Induction
import OpcodeTable.Proofs.Pending

namespace OpcodeTable

open Text

namespace Arguments

/-! ### The flag among arguments -/

/-- The argument begins with the verbose flag, if it is read as an item. -/
def SaysVerbose (argument : String) : Prop :=
  argument = "--verbose" ∨ ['-', 'v'] <+: argument.toList

instance (argument : String) : Decidable (SaysVerbose argument) :=
  inferInstanceAs (Decidable (_ ∨ _))

/-- A verbose flag stands in front of the two dashes that end the items, if there are any. -/
def AsksVerbose (command : List String) : Prop :=
  ∃ argument ∈ command.takeWhile (· ≠ "--"), SaysVerbose argument

instance (command : List String) : Decidable (AsksVerbose command) :=
  inferInstanceAs (Decidable (∃ argument ∈ _, _))

/-- The arguments that wait for a value in the next one. -/
def waitingWords : List String := ["-o", "-f", "--output", "--format", "--fields"]

/-- Behind the arguments in front a flag is read as one. -/
def TakesFlag (front _behind : List String) : Prop :=
  "--" ∉ front ∧ ∀ last, front.getLast? = some last → last ∉ waitingWords

/-- Items can follow the arguments in front, and what stands behind does not bring up another fault
than theirs: by themselves they are accepted, or rejected as all are. -/
def Settled (front behind : List String) : Prop :=
  "--" ∉ front ∧
    ((∃ arguments, parse front = .ok arguments) ∨ parse front = parse (front ++ behind))

/-- The second command is the first, or the first with a verbose flag at a place of a kind, which
the arguments in front of it and those behind it have. -/
inductive AddsVerbose (kind : List String → List String → Prop) : List String → List String → Prop
  | nothing (base : List String) : AddsVerbose kind base base
  | word {front back : List String} {flag : String} (place : kind front back)
      (spelt : flag = "-v" ∨ flag = "--verbose") :
      AddsVerbose kind (front ++ back) (front ++ flag :: back)
  | letter {front back : List String} {next : Char} {rest : List Char}
      (place : kind front (String.ofList ('-' :: next :: rest) :: back)) (short : next ≠ '-') :
      AddsVerbose kind (front ++ String.ofList ('-' :: next :: rest) :: back)
        (front ++ String.ofList ('-' :: 'v' :: next :: rest) :: back)

theorem asksVerbose_cons_iff {argument : String} (other : argument ≠ "--") (later : List String) :
    AsksVerbose (argument :: later) ↔ SaysVerbose argument ∨ AsksVerbose later := by
  unfold AsksVerbose
  rw [List.takeWhile_cons_of_pos (by simpa using other)]
  simp only [List.mem_cons, exists_eq_or_imp]

theorem not_asksVerbose_dashes (later : List String) : ¬ AsksVerbose ("--" :: later) := by
  unfold AsksVerbose
  rw [List.takeWhile_cons_of_neg (by simp)]
  exact fun ⟨_, impossible, _⟩ => nomatch impossible

theorem asksVerbose_append_iff {front : List String} (items : "--" ∉ front) (back : List String) :
    AsksVerbose (front ++ back) ↔
      (∃ argument ∈ front, SaysVerbose argument) ∨ AsksVerbose back := by
  induction front with
  | nil => simp
  | cons argument later inductionHypothesis =>
    rw [List.mem_cons, not_or] at items
    rw [List.cons_append, asksVerbose_cons_iff (Ne.symm items.1), inductionHypothesis items.2]
    simp only [List.mem_cons, exists_eq_or_imp, or_assoc]

/-! ### Names and letters -/

theorem eq_toList_of_ofList {text : List Char} {word : String} (same : String.ofList text = word) :
    text = word.toList := by
  rw [← same, String.toList_ofList]

theorem verbose_iff_of_name {name : List Char} {flag : Flag}
    (known : Item.ofName? name = some (.flag flag)) :
    flag = .verbose ↔ name = "verbose".toList := by
  unfold Item.ofName? at known
  split at known
  all_goals
    first
    | (next same =>
        cases known
        rw [eq_toList_of_ofList same]
        decide)
    | cases known

theorem name_of_slot {name : List Char} {slot : Slot}
    (known : Item.ofName? name = some (.slot slot)) :
    name ∈ ["output".toList, "format".toList, "fields".toList] := by
  unfold Item.ofName? at known
  split at known
  all_goals
    first
    | (next same =>
        cases known
        rw [eq_toList_of_ofList same]
        decide)
    | cases known

theorem letter_of_flag {letter : Char} {flag : Flag}
    (known : Item.ofLetter? letter = some (.flag flag)) :
    letter = 'v' ∧ flag = .verbose ∨ letter ≠ 'v' ∧ (flag = .help ∨ flag = .version) := by
  unfold Item.ofLetter? at known
  split at known <;> cases known <;> decide

theorem letter_of_slot {letter : Char} {slot : Slot}
    (known : Item.ofLetter? letter = some (.slot slot)) : letter ∈ ['o', 'f'] := by
  unfold Item.ofLetter? at known
  split at known <;> cases known <;> decide

/-! ### What reading leaves -/

theorem verbose_enter {arguments entered : Arguments} {slot : Slot} {value : String}
    (done : arguments.enter slot value = .ok entered) : entered.verbose = arguments.verbose := by
  cases slot with
  | input | output | layout | fields =>
    obtain ⟨place, _, same⟩ := bind_eq_ok_iff.mp done
    rw [← Except.ok.inj same]

theorem verbose_raise {arguments raised : Arguments} {flag : Flag}
    (done : arguments.raise flag = .ok raised) :
    raised.verbose = true ↔ arguments.verbose = true ∨ flag = .verbose := by
  unfold raise at done
  split at done
  · split at done
    · cases done
    · rw [← Except.ok.inj done]
      simp
  · split at done
    · cases done
    · rw [← Except.ok.inj done]
      simp
  · cases done
  · cases done

namespace Progress

variable {progress behind : Progress} {argument : String}

/-- What is read leaves the reading among items or inputs, where it is. It asks for the verbose
flag or not, and it may end in waiting for a value. -/
structure Leaves (progress behind : Progress) (asks waits : Prop) : Prop where
  inputsOnly : behind.inputsOnly = progress.inputsOnly
  verbose : behind.entered.verbose = true ↔ progress.entered.verbose = true ∨ asks
  waits : ∀ slot, behind.pending = some (slot, none) → waits

theorem leaves_settle (done : progress.settle = .ok behind) :
    Leaves progress behind False False := by
  refine ⟨inputsOnly_of_settle done, ?_, fun slot waiting => ?_⟩
  · rcases settle_eq_ok_iff.mp done with ⟨_, rfl⟩ | ⟨_, _, _, _, filled, rfl⟩
    · rw [or_false]
    · rw [or_false, verbose_enter filled]
  · rw [pending_of_settle done] at waiting
    cases waiting

theorem leaves_begin {flag : Flag} (done : progress.begin flag = .ok behind) :
    Leaves progress behind (flag = .verbose) False := by
  obtain ⟨settled, entered, done⟩ := bind_eq_ok_iff.mp done
  obtain ⟨raised, done, same⟩ := bind_eq_ok_iff.mp done
  have ⟨inputsOnly, verbose, waits⟩ := leaves_settle entered
  rw [← Except.ok.inj same]
  refine ⟨inputsOnly, ?_, waits⟩
  rw [verbose_raise done, verbose, or_false]

theorem leaves_await {slot : Slot} {attached : Option (List Char)}
    (done : progress.await slot attached = .ok behind) :
    Leaves progress behind False (attached = none) := by
  obtain ⟨settled, entered, done⟩ := bind_eq_ok_iff.mp done
  have ⟨inputsOnly, verbose, waits⟩ := leaves_settle entered
  cases attached with
  | none =>
    rw [← Except.ok.inj done]
    exact ⟨inputsOnly, verbose, fun _ _ => rfl⟩
  | some value =>
    obtain ⟨filled, done, same⟩ := bind_eq_ok_iff.mp done
    rw [← Except.ok.inj same]
    refine ⟨inputsOnly, ?_, fun slot waiting => (waits slot waiting).elim⟩
    rw [verbose_enter done, verbose]

theorem leaves_input (done : progress.input argument = .ok behind) :
    Leaves progress behind False False := by
  unfold input at done
  split at done
  · cases done
  · obtain ⟨settled, entered, same⟩ := bind_eq_ok_iff.mp done
    have ⟨inputsOnly, verbose, _⟩ := leaves_settle entered
    rw [← Except.ok.inj same]
    exact ⟨inputsOnly, verbose, fun slot waiting => nomatch waiting⟩

theorem leaves_value (done : progress.value argument = .ok behind) :
    Leaves progress behind False False := by
  unfold Progress.value at done
  split at done
  · rw [← Except.ok.inj done]
    exact ⟨rfl, (or_false _).symm ▸ Iff.rfl, fun slot waiting => nomatch waiting⟩
  · exact leaves_input done

/-- Asking for help or the version ends the reading. -/
theorem begin_ne_ok {flag : Flag} (ends : flag = .help ∨ flag = .version) :
    progress.begin flag ≠ .ok behind := by
  intro done
  obtain ⟨settled, _, done⟩ := bind_eq_ok_iff.mp done
  obtain ⟨raised, done, _⟩ := bind_eq_ok_iff.mp done
  rcases ends with rfl | rfl <;> cases done

theorem Leaves.imp {asks waits asksToo waitsToo : Prop} (leaves : Leaves progress behind asks waits)
    (same : asks ↔ asksToo) (weaker : waits → waitsToo) :
    Leaves progress behind asksToo waitsToo :=
  ⟨leaves.inputsOnly, leaves.verbose.trans (or_congr_right same),
    fun slot waiting => weaker (leaves.waits slot waiting)⟩

theorem attachedTo_eq_none_iff {text : List Char} : attachedTo text = none ↔ text = [] := by
  unfold attachedTo
  split <;> simp_all

/-- Letters that are read begin with one that awaits a value, or with that of the verbose flag. -/
theorem letters_cases {letter : Char} {rest : List Char}
    (done : progress.letters (letter :: rest) = .ok behind) :
    (letter ∈ ['o', 'f'] ∧ ∃ slot, progress.await slot (attachedTo rest) = .ok behind) ∨
      letter = 'v' ∧ ∃ between, progress.begin .verbose = .ok between ∧
        between.letters rest = .ok behind := by
  rw [letters] at done
  split at done
  · cases done
  · next slot known => exact .inl ⟨letter_of_slot known, slot, done⟩
  · next flag known =>
    obtain ⟨between, begun, read⟩ := bind_eq_ok_iff.mp done
    rcases letter_of_flag known with ⟨verbose, rfl⟩ | ⟨_, ends⟩
    · exact .inr ⟨verbose, between, begun, read⟩
    · exact absurd begun (begin_ne_ok ends)

theorem kept_by_letters {letters : List Char} (done : progress.letters letters = .ok behind) :
    behind.inputsOnly = progress.inputsOnly ∧
      (progress.entered.verbose = true → behind.entered.verbose = true) := by
  induction letters generalizing progress with
  | nil =>
    cases done
    exact ⟨rfl, id⟩
  | cons letter rest inductionHypothesis =>
    rcases letters_cases done with ⟨_, slot, read⟩ | ⟨_, between, begun, read⟩
    · have leaves := leaves_await read
      exact ⟨leaves.inputsOnly, fun raised => leaves.verbose.mpr (.inl raised)⟩
    · have leaves := leaves_begin begun
      obtain ⟨inputsOnly, kept⟩ := inductionHypothesis read
      exact ⟨inputsOnly.trans leaves.inputsOnly,
        fun raised => kept (leaves.verbose.mpr (.inl raised))⟩

theorem leaves_letters {letter : Char} {rest : List Char}
    (done : progress.letters (letter :: rest) = .ok behind) :
    Leaves progress behind (letter = 'v') (letter = 'v' ∨ letter ∈ ['o', 'f'] ∧ rest = []) := by
  rcases letters_cases done with ⟨short, slot, read⟩ | ⟨rfl, between, begun, read⟩
  · have other : letter ≠ 'v' := by
      rintro rfl
      revert short
      decide
    exact (leaves_await read).imp (iff_of_false id other) fun none =>
      .inr ⟨short, attachedTo_eq_none_iff.mp none⟩
  · have leaves := leaves_begin begun
    obtain ⟨inputsOnly, kept⟩ := kept_by_letters read
    exact ⟨inputsOnly.trans leaves.inputsOnly,
      iff_of_true (kept (leaves.verbose.mpr (.inr rfl))) (.inr rfl), fun _ _ => .inl rfl⟩

theorem leaves_long {text : List Char} (done : progress.long text = .ok behind) :
    Leaves progress behind (text = "verbose".toList)
      (text ∈ ["output".toList, "format".toList, "fields".toList]) := by
  unfold long at done
  cases cut : splitFirst? ['='] text with
  | none =>
    rw [cut] at done
    dsimp only at done
    split at done
    · cases done
    · next known =>
      have slot := name_of_slot known
      refine (leaves_await done).imp (iff_of_false id ?_) fun _ => slot
      rintro rfl
      revert slot
      decide
    · next known =>
      exact (leaves_begin done).imp (verbose_iff_of_name known) False.elim
  | some parts =>
    obtain ⟨name, value⟩ := parts
    have whole := eq_append_of_splitFirst? cut
    have other : text ≠ "verbose".toList := by
      rintro rfl
      have equals : '=' ∈ "verbose".toList := by
        rw [whole]
        simp
      revert equals
      decide
    rw [cut] at done
    dsimp only at done
    split at done
    · cases done
    · exact (leaves_await done).imp (iff_of_false id other) fun impossible => nomatch impossible
    · cases done

theorem leaves_read (items : progress.inputsOnly = false) (other : argument ≠ "--")
    (done : progress.read argument = .ok behind) :
    Leaves progress behind (SaysVerbose argument)
      (argument ∈ waitingWords ∨ SaysVerbose argument) := by
  have spelt {word : String} : argument = word ↔ argument.toList = word.toList :=
    String.toList_inj.symm
  unfold read at done
  rw [items] at done
  simp only [Bool.false_eq_true, if_false] at done
  split at done
  · next whole => exact absurd (String.toList_inj.mp whole) other
  · next text _ whole =>
    have asks : text = "verbose".toList ↔ SaysVerbose argument := by
      rw [SaysVerbose, spelt, whole]
      simp
    refine (leaves_long done).imp asks fun waits => .inl ?_
    simp only [waitingWords, spelt, whole, List.mem_cons, List.not_mem_nil, or_false] at waits ⊢
    rcases waits with rfl | rfl | rfl <;> decide
  · next first rest _ short whole =>
    have asks : first = 'v' ↔ SaysVerbose argument := by
      rw [SaysVerbose, spelt, whole]
      constructor
      · rintro rfl
        exact .inr (List.prefix_append ['-', 'v'] rest)
      · rintro (long | ⟨behind, same⟩)
        · exact absurd (List.cons.inj (List.cons.inj long).2).1 short
        · exact (List.cons.inj (List.cons.inj same).2).1.symm
    refine (leaves_letters done).imp asks fun waits => waits.symm.imp (fun ⟨letter, alone⟩ => ?_)
      asks.mp
    rw [alone] at whole
    simp only [waitingWords, spelt, whole, List.mem_cons, List.not_mem_nil, or_false] at letter ⊢
    rcases letter with rfl | rfl <;> decide
  · next plain =>
    have asks : ¬ SaysVerbose argument := by
      rintro (rfl | ⟨behind, same⟩)
      · exact plain _ _ rfl
      · exact plain _ _ same.symm
    exact (leaves_value done).imp (iff_of_false id asks) False.elim

/-- What is read of items that do not ask for the verbose flag leaves it as it was; the reading
waits for a value only if the last of them does. -/
theorem foldlM_read {front : List String} (items : "--" ∉ front)
    (silent : ∀ argument ∈ front, ¬ SaysVerbose argument)
    (done : front.foldlM read (resting empty) = .ok behind) :
    behind.inputsOnly = false ∧ behind.entered.verbose = false ∧
      ∀ slot, behind.pending = some (slot, none) →
        ∃ last, front.getLast? = some last ∧ last ∈ waitingWords := by
  induction front using List.reverseRecOn generalizing behind with
  | nil =>
    cases done
    exact ⟨rfl, rfl, fun slot impossible => nomatch impossible⟩
  | append_singleton front argument inductionHypothesis =>
    rw [List.mem_append, not_or, List.mem_singleton] at items
    rw [List.forall_mem_append, List.forall_mem_singleton] at silent
    rw [List.foldlM_append] at done
    obtain ⟨between, before, done⟩ := bind_eq_ok_iff.mp done
    rw [List.foldlM_cons] at done
    obtain ⟨last, read, same⟩ := bind_eq_ok_iff.mp done
    obtain rfl := Except.ok.inj same
    obtain ⟨stillItems, unraised, _⟩ := inductionHypothesis items.1 silent.1 before
    have ⟨inputsOnly, verbose, waits⟩ := leaves_read stillItems (Ne.symm items.2) read
    refine ⟨inputsOnly.trans stillItems, ?_, fun slot waiting => ⟨argument, ?_, ?_⟩⟩
    · rw [← Bool.not_eq_true, verbose, unraised]
      simpa using silent.2
    · exact List.getLast?_concat
    · exact (waits slot waiting).resolve_right silent.2

/-- A reading raises the verbose flag just when its arguments ask for it. -/
theorem verbose_finish {command : List String} (done : progress.finish command = .ok behind) :
    behind.entered.verbose = true ↔ progress.entered.verbose = true ∨
      progress.inputsOnly = false ∧ AsksVerbose command := by
  induction command generalizing progress with
  | nil =>
    have none : ¬ AsksVerbose [] := fun ⟨_, impossible, _⟩ => nomatch impossible
    rw [(leaves_settle done).verbose, or_false, iff_false_intro none, and_false, or_false]
  | cons argument later inductionHypothesis =>
    rw [finish_cons] at done
    obtain ⟨between, read, done⟩ := bind_eq_ok_iff.mp done
    rw [inductionHypothesis done]
    cases items : progress.inputsOnly with
    | true =>
      -- Everything is an input, and so is every later argument.
      unfold Progress.read at read
      rw [items] at read
      have ⟨inputsOnly, verbose, _⟩ := leaves_input read
      rw [inputsOnly, items, verbose]
      simp
    | false =>
      by_cases other : argument = "--"
      · subst other
        rw [read_dashes items] at read
        rw [← Except.ok.inj read]
        simp [not_asksVerbose_dashes]
      · have ⟨inputsOnly, verbose, _⟩ := leaves_read items other read
        rw [inputsOnly, items, verbose, asksVerbose_cons_iff other]
        simp [or_assoc]

end Progress

end Arguments

end OpcodeTable
