/-
This file compares two readings of arguments of which one has raised the verbose flag and the other
has not. Only the flag itself is ever asked whether it is raised. So as long as the arguments do not
ask for it, the two readings go on side by side: they fail with the same fault or come to the same
but for the flag. A verbose flag among the arguments makes one reading into the other, once it has
entered what was pending; and if that is refused, then so is the reading that enters it later.
-/

import OpcodeTable.Command.Run
import OpcodeTable.Proofs.VerboseFlag

namespace OpcodeTable

open Text

namespace Arguments

/-! ### Side by side -/

/-- The command line is not accepted, and that is an error. -/
def Refused {α : Type} (result : Except Usage α) : Prop :=
  ∃ usage, result = .error usage ∧ usage.exitCode = 2

/-- The arguments with the verbose flag raised. -/
def loud (arguments : Arguments) : Arguments := { arguments with verbose := true }

theorem Refused.bind {α β : Type} {first : Except Usage α} (refused : Refused first)
    (next : α → Except Usage β) : Refused (first.bind next) := by
  obtain ⟨usage, rfl, error⟩ := refused
  exact ⟨usage, rfl, error⟩

theorem enter_loud (arguments : Arguments) (slot : Slot) (value : String) :
    arguments.loud.enter slot value = (arguments.enter slot value).map loud := by
  cases slot with
  | input | output | fields =>
    unfold enter loud
    dsimp only
    cases fillName _ value <;> rfl
  | layout =>
    unfold enter loud
    dsimp only
    cases fillLayout _ value <;> rfl

theorem exitCode_fillName {place : Option String} {name : String} {usage : Usage}
    (failed : fillName place name = .error usage) : usage.exitCode = 2 := by
  unfold fillName at failed
  split at failed
  · cases failed
    rfl
  · split at failed <;> cases failed
    rfl

theorem exitCode_fillLayout {place : Option Layout} {name : String} {usage : Usage}
    (failed : fillLayout place name = .error usage) : usage.exitCode = 2 := by
  unfold fillLayout at failed
  split at failed
  · cases failed
    rfl
  · split at failed <;> cases failed
    rfl

/-- A value that cannot be entered is an error. -/
theorem exitCode_enter {arguments : Arguments} {slot : Slot} {value : String} {usage : Usage}
    (failed : arguments.enter slot value = .error usage) : usage.exitCode = 2 := by
  cases slot with
  | input | output | fields =>
    rcases bind_eq_error_iff.mp failed with failed | ⟨_, _, impossible⟩
    · exact exitCode_fillName failed
    · cases impossible
  | layout =>
    rcases bind_eq_error_iff.mp failed with failed | ⟨_, _, impossible⟩
    · exact exitCode_fillLayout failed
    · cases impossible

theorem raise_loud (arguments : Arguments) {flag : Flag} (other : flag ≠ .verbose) :
    arguments.loud.raise flag = (arguments.raise flag).map loud := by
  cases flag with
  | wide =>
    unfold raise loud
    dsimp only
    split <;> rfl
  | verbose => exact absurd rfl other
  | help | version => rfl

namespace Progress

/-- The progress with the verbose flag raised. -/
def loud (progress : Progress) : Progress := { progress with entered := progress.entered.loud }

variable {progress : Progress}

theorem settle_loud (progress : Progress) : progress.loud.settle = progress.settle.map loud := by
  obtain ⟨entered, pending, inputsOnly⟩ := progress
  cases pending with
  | none => rfl
  | some waiting =>
    obtain ⟨slot, value?⟩ := waiting
    cases value? with
    | none => rfl
    | some value =>
      show (entered.loud.enter slot value).bind _ = ((entered.enter slot value).bind _).map loud
      rw [enter_loud]
      cases entered.enter slot value <;> rfl

theorem begin_loud (progress : Progress) {flag : Flag} (other : flag ≠ .verbose) :
    progress.loud.begin flag = (progress.begin flag).map loud := by
  unfold begin
  rw [settle_loud]
  cases progress.settle with
  | error usage => rfl
  | ok settled =>
    show (settled.entered.loud.raise flag).bind _ = ((settled.entered.raise flag).bind _).map loud
    rw [raise_loud _ other]
    cases settled.entered.raise flag <;> rfl

theorem await_loud (progress : Progress) (slot : Slot) (attached : Option (List Char)) :
    progress.loud.await slot attached = (progress.await slot attached).map loud := by
  unfold await
  rw [settle_loud]
  cases progress.settle with
  | error usage => rfl
  | ok settled =>
    cases attached with
    | none => rfl
    | some value =>
      show (settled.entered.loud.enter slot _).bind _ =
        ((settled.entered.enter slot _).bind _).map loud
      rw [enter_loud]
      cases settled.entered.enter slot (String.ofList value) <;> rfl

theorem input_loud (progress : Progress) (value : String) :
    progress.loud.input value = (progress.input value).map loud := by
  have same : progress.loud.hasInput = progress.hasInput := rfl
  unfold input
  rw [same, settle_loud]
  split
  · rfl
  · cases progress.settle <;> rfl

theorem value_loud (progress : Progress) (value : String) :
    progress.loud.value value = (progress.value value).map loud := by
  have input := input_loud progress value
  obtain ⟨entered, pending, inputsOnly⟩ := progress
  unfold Progress.value
  split
  · next slot waiting =>
    rw [show pending = some (slot, none) from waiting]
    rfl
  · next other =>
    split
    · next slot waiting => exact absurd waiting (other slot)
    · exact input

theorem letters_loud (progress : Progress) {letter : Char} (other : letter ≠ 'v')
    (rest : List Char) :
    progress.loud.letters (letter :: rest) = (progress.letters (letter :: rest)).map loud := by
  rw [letters, letters]
  split
  · rfl
  · exact await_loud progress _ _
  · next flag known =>
    obtain ⟨_, ends⟩ := (letter_of_flag known).resolve_left fun verbose => other verbose.1
    have quiet : flag ≠ .verbose := by
      rintro rfl
      simp at ends
    rw [begin_loud progress quiet]
    cases begun : progress.begin flag with
    | error usage => rfl
    | ok behind => exact absurd begun (begin_ne_ok ends)

theorem long_loud (progress : Progress) {text : List Char} (other : text ≠ "verbose".toList) :
    progress.loud.long text = (progress.long text).map loud := by
  unfold long
  cases cut : splitFirst? ['='] text with
  | none =>
    dsimp only
    split
    · rfl
    · exact await_loud progress _ _
    · next known => exact begin_loud progress (mt (verbose_iff_of_name known).mp other)
  | some parts =>
    dsimp only
    split
    · rfl
    · exact await_loud progress _ _
    · rfl

theorem read_loud {argument : String}
    (silent : progress.inputsOnly = false → ¬ SaysVerbose argument) :
    progress.loud.read argument = (progress.read argument).map loud := by
  have same : progress.loud.inputsOnly = progress.inputsOnly := rfl
  unfold read
  rw [same]
  split
  · exact input_loud progress argument
  · next items =>
    have silent := silent (Bool.not_eq_true _ ▸ items)
    split
    · rfl
    · next text _ whole =>
      refine long_loud progress fun verbose => silent (.inl (String.toList_inj.mp ?_))
      rw [whole, verbose]
      rfl
    · next first rest _ _ whole =>
      refine letters_loud progress (fun letter => silent (.inr ?_)) rest
      rw [whole, letter]
      exact List.prefix_append ['-', 'v'] rest
    · exact value_loud progress argument

/-- Arguments that do not ask for the verbose flag are read in the same way when it is raised. -/
theorem finish_loud {command : List String}
    (silent : progress.inputsOnly = false → ¬ AsksVerbose command) :
    progress.loud.finish command = (progress.finish command).map loud := by
  induction command generalizing progress with
  | nil => exact settle_loud progress
  | cons argument later inductionHypothesis =>
    have word : progress.inputsOnly = false → ¬ SaysVerbose argument := by
      intro items asks
      by_cases dashes : argument = "--"
      · subst dashes
        revert asks
        decide
      · exact silent items ((asksVerbose_cons_iff dashes later).mpr (.inl asks))
    rw [finish_cons, finish_cons, read_loud word]
    cases read : progress.read argument with
    | error usage => rfl
    | ok between =>
      -- Behind two dashes the later arguments cannot ask, and otherwise all would ask with them.
      refine inductionHypothesis fun stillItems => ?_
      cases items : progress.inputsOnly with
      | true =>
        rw [Progress.read, items] at read
        have same := (leaves_input read).inputsOnly
        rw [items, stillItems] at same
        cases same
      | false =>
        by_cases dashes : argument = "--"
        · rw [dashes, read_dashes items] at read
          rw [← Except.ok.inj read] at stillItems
          cases stillItems
        · exact fun asks => silent items ((asksVerbose_cons_iff dashes later).mpr (.inr asks))

/-! ### A value that is refused -/

section

variable {argument : String}

theorem exitCode_settle {usage : Usage} (failed : progress.settle = .error usage) :
    usage.exitCode = 2 := by
  obtain ⟨entered, pending, inputsOnly⟩ := progress
  cases pending with
  | none => cases failed
  | some waiting =>
    obtain ⟨slot, value?⟩ := waiting
    cases value? with
    | none =>
      cases failed
      rfl
    | some value =>
      rcases bind_eq_error_iff.mp failed with failed | ⟨_, _, impossible⟩
      · exact exitCode_enter failed
      · cases impossible

theorem refused_input (refused : Refused progress.settle) (value : String) :
    Refused (progress.input value) := by
  unfold input
  split
  · exact ⟨.unknownArgument, rfl, rfl⟩
  · exact refused.bind _

theorem refused_letters (refused : Refused progress.settle) (letter : Char) (rest : List Char) :
    Refused (progress.letters (letter :: rest)) := by
  rw [letters]
  split
  · exact ⟨.unknownArgument, rfl, rfl⟩
  · exact refused.bind _
  · exact (refused.bind _).bind _

theorem refused_long (refused : Refused progress.settle) (text : List Char) :
    Refused (progress.long text) := by
  unfold long
  split
  split
  · exact ⟨.unknownArgument, rfl, rfl⟩
  · exact refused.bind _
  · split
    · exact ⟨.tooManyValues, rfl, rfl⟩
    · exact refused.bind _

theorem refused_value (full : ∀ slot, progress.pending ≠ some (slot, none))
    (refused : Refused progress.settle) (value : String) : Refused (progress.value value) := by
  unfold Progress.value
  split
  · next slot waiting => exact absurd waiting (full slot)
  · exact refused_input refused value

/-- A value that is pending and cannot be entered is refused by whatever is read next, unless that
is refused itself; but two dashes leave it pending. -/
theorem refused_read (full : ∀ slot, progress.pending ≠ some (slot, none))
    (refused : Refused progress.settle) (other : progress.inputsOnly = true ∨ argument ≠ "--") :
    Refused (progress.read argument) := by
  unfold read
  split
  · exact refused_input refused argument
  · next items =>
    split
    · next dashes => exact absurd (String.toList_inj.mp dashes) (other.resolve_left items)
    · exact refused_long refused _
    · exact refused_letters refused _ _
    · exact refused_value full refused argument

/-- Where the value that is pending cannot be entered, no arguments mend that. -/
theorem refused_finish (full : ∀ slot, progress.pending ≠ some (slot, none))
    (refused : Refused progress.settle) (command : List String) :
    Refused (progress.finish command) := by
  induction command generalizing progress with
  | nil => exact refused
  | cons argument later inductionHypothesis =>
    rw [finish_cons]
    by_cases other : progress.inputsOnly = true ∨ argument ≠ "--"
    · exact (refused_read full refused other).bind _
    · rw [not_or, Bool.not_eq_true, Decidable.not_not] at other
      obtain ⟨items, rfl⟩ := other
      rw [read_dashes items]
      refine inductionHypothesis full ?_
      rw [settle_inputsOnly]
      exact refused.bind _

end

/-! ### The flag in front of other arguments -/

section

variable {back : List String} (quiet : progress.entered.verbose = false)
  (silent : ¬ AsksVerbose back)

include quiet silent

/-- Where what is pending can be entered, arguments come to the same with the verbose flag in front
of them as without, but for the flag. -/
theorem finish_begin_verbose {settled : Progress} (done : progress.settle = .ok settled) :
    (progress.begin .verbose).bind (·.finish back) = (progress.finish back).map loud := by
  have unraised : ¬ settled.entered.verbose = true := by
    rw [(leaves_settle done).verbose, quiet]
    simp
  have raised : progress.begin .verbose = .ok settled.loud := by
    unfold begin raise
    rw [done]
    show Except.bind (if settled.entered.verbose = true then _ else _) _ = _
    rw [if_neg unraised]
    rfl
  rw [raised, finish_of_settle done]
  exact finish_loud fun _ => silent

/-- Where no value is waited for they come to the same, or else neither reading is accepted. -/
theorem finish_begin_verbose_or_refused (full : ∀ slot, progress.pending ≠ some (slot, none)) :
    (progress.begin .verbose).bind (·.finish back) = (progress.finish back).map loud ∨
      Refused ((progress.begin .verbose).bind (·.finish back)) ∧
        Refused (progress.finish back) := by
  cases settled : progress.settle with
  | error usage =>
    -- The flag has the value checked at once; without it another fault may come first.
    have refused : Refused progress.settle := ⟨usage, settled, exitCode_settle settled⟩
    exact .inr ⟨(refused.bind _).bind _, refused_finish full refused back⟩
  | ok behind => exact .inl (finish_begin_verbose quiet silent settled)

end

end Progress

/-! ### The flag among arguments -/

open Progress

/-- Two readings come to the same but for the verbose flag. -/
def SameReading (one other : Except Usage Arguments) : Prop := one.map loud = other.map loud

/-- Two readings come to the same but for the verbose flag, or neither is accepted. -/
def SimilarReading (one other : Except Usage Arguments) : Prop :=
  SameReading one other ∨ Refused one ∧ Refused other

theorem SimilarReading.symm {one other : Except Usage Arguments}
    (similar : SimilarReading one other) : SimilarReading other one :=
  similar.imp Eq.symm And.symm

theorem Refused.of_same {one other : Except Usage Arguments} (refused : Refused one)
    (same : SameReading one other) : Refused other := by
  obtain ⟨usage, rfl, error⟩ := refused
  exact ⟨usage, map_eq_error_iff.mp (Eq.symm same), error⟩

theorem SimilarReading.trans {one other third : Except Usage Arguments}
    (similar : SimilarReading one other) (again : SimilarReading other third) :
    SimilarReading one third := by
  rcases similar with same | ⟨refused, otherRefused⟩
  · rcases again with again | ⟨otherRefused, refused⟩
    · exact .inl (Eq.trans same again)
    · exact .inr ⟨otherRefused.of_same (Eq.symm same), refused⟩
  · rcases again with again | ⟨_, thirdRefused⟩
    · exact .inr ⟨refused, otherRefused.of_same again⟩
    · exact .inr ⟨refused, thirdRefused⟩

/-- Where a verbose flag is added it is begun in front of what follows it. -/
theorem AddsVerbose.begins {kind : List String → List String → Prop} {base command : List String}
    (adds : AddsVerbose kind base command) :
    command = base ∨ ∃ front behind flagged, kind front behind ∧ base = front ++ behind ∧
      command = front ++ flagged ∧ ∀ progress : Progress, progress.inputsOnly = false →
        progress.finish flagged = (progress.begin .verbose).bind (·.finish behind) := by
  cases adds with
  | nothing => exact .inl rfl
  | word place spelt =>
    exact .inr ⟨_, _, _, place, rfl, rfl, fun _ items => finish_verbose items spelt _⟩
  | letter place short =>
    exact .inr ⟨_, _, _, place, rfl, rfl, fun _ items =>
      finish_bundle items rfl String.toList_ofList (by decide) String.toList_ofList short _⟩

section

variable {front behind flagged base command : List String}

/-- Behind arguments without two dashes the verbose flag is begun, unless they cannot be read. -/
theorem sameReading_or_begins (items : "--" ∉ front) (silent : ¬ AsksVerbose (front ++ behind))
    (reads : ∀ progress : Progress, progress.inputsOnly = false →
      progress.finish flagged = (progress.begin .verbose).bind (·.finish behind)) :
    SameReading (parse (front ++ behind)) (parse (front ++ flagged)) ∨
      ∃ progress : Progress, front.foldlM Progress.read (resting empty) = .ok progress ∧
        progress.entered.verbose = false ∧
        (∀ slot, progress.pending = some (slot, none) →
          ∃ last, front.getLast? = some last ∧ last ∈ waitingWords) ∧
        ¬ AsksVerbose behind ∧
        parse (front ++ behind) = (progress.finish behind).map Progress.entered ∧
        parse (front ++ flagged) =
          ((progress.begin .verbose).bind (·.finish behind)).map Progress.entered := by
  rw [asksVerbose_append_iff items, not_or] at silent
  have quiet : ∀ argument ∈ front, ¬ SaysVerbose argument :=
    fun argument member asks => silent.1 ⟨argument, member, asks⟩
  rw [parse_eq, parse_eq, finish_append, finish_append]
  cases read : front.foldlM Progress.read (resting empty) with
  | error usage => exact .inl rfl
  | ok progress =>
    obtain ⟨inputsToo, unraised, waits⟩ := foldlM_read items quiet read
    refine .inr ⟨progress, rfl, unraised, waits, silent.2, rfl, ?_⟩
    exact congrArg _ (reads progress inputsToo)

theorem map_entered_loud (result : Except Usage Progress) :
    (result.map Progress.loud).map Progress.entered = (result.map Progress.entered).map loud := by
  cases result <;> rfl

theorem map_loud_loud (result : Except Usage Arguments) :
    (result.map loud).map loud = result.map loud := by
  cases result <;> rfl

/-- At a place that is settled a verbose flag makes no other difference, be the arguments accepted
or not. -/
theorem sameReading_of_adds (silent : ¬ AsksVerbose base)
    (adds : AddsVerbose Settled base command) : SameReading (parse base) (parse command) := by
  obtain rfl | ⟨front, behind, flagged, ⟨items, settled⟩, rfl, rfl, reads⟩ := adds.begins
  · rfl
  · rcases sameReading_or_begins items silent reads with
      same | ⟨progress, read, quiet, _, silent, without, flagged⟩
    · exact same
    · have front : parse front = progress.settle.map Progress.entered := by
        rw [parse_eq, Progress.finish, read]
        rfl
      cases entered : progress.settle with
      | ok behind =>
        rw [SameReading, without, flagged, finish_begin_verbose quiet silent entered,
          map_entered_loud, map_loud_loud]
      | error usage =>
        -- The flag has the value checked at once, and brings up the fault of those in front.
        rw [entered] at front
        rw [front] at settled
        have rejected := settled.resolve_left fun ⟨_, accepted⟩ => nomatch accepted
        have begun : progress.begin .verbose = .error usage := by
          unfold begin
          rw [entered]
          rfl
        rw [SameReading, flagged, begun, ← rejected]
        rfl

/-- Wherever a flag is read as one it makes no other difference when the arguments are accepted. -/
theorem similarReading_of_adds (silent : ¬ AsksVerbose base)
    (adds : AddsVerbose TakesFlag base command) :
    SimilarReading (parse base) (parse command) := by
  obtain rfl | ⟨front, behind, flagged, ⟨items, free⟩, rfl, rfl, reads⟩ := adds.begins
  · exact .inl rfl
  · rcases sameReading_or_begins items silent reads with
      same | ⟨progress, read, quiet, waits, silent, without, flagged⟩
    · exact .inl same
    · have full (slot : Slot) : progress.pending ≠ some (slot, none) := by
        intro waiting
        obtain ⟨last, ends, word⟩ := waits slot waiting
        exact free last ends word
      rw [SimilarReading, SameReading, without, flagged]
      rcases finish_begin_verbose_or_refused quiet silent full with same | ⟨refused, refusedToo⟩
      · exact .inl (by rw [same, map_entered_loud, map_loud_loud])
      · exact .inr ⟨refusedToo.bind _, refused.bind _⟩

end

end Arguments

end OpcodeTable
