/-
This file is about the value that is pending while arguments are read. It is entered when the next
item begins, or behind the last argument, so for a while the reading holds a value that it has seen
but not entered. Nothing hangs on how long that takes: a reading that goes on from a pending value
comes to what it comes to from the value entered, since whatever is read next enters the value
first, and until then the value has its place as if it were entered. So what has been read can be
told by what is entered alone, and a bundle of letters by the letters one at a time.
-/

import OpcodeTable.Command.Arguments
import OpcodeTable.Proofs.Sequence

namespace OpcodeTable

open Text

namespace Arguments

/-! ### Reading to the end -/

namespace Progress

variable {progress settled : Progress}

/-- Read arguments, and enter what is pending behind the last. -/
def finish (progress : Progress) (command : List String) : Except Usage Progress :=
  (command.foldlM read progress).bind settle

theorem finish_nil (progress : Progress) : progress.finish [] = progress.settle := rfl

theorem finish_cons (progress : Progress) (argument : String) (later : List String) :
    progress.finish (argument :: later) = (progress.read argument).bind (·.finish later) := by
  unfold finish
  rw [List.foldlM_cons]
  cases progress.read argument <;> rfl

theorem finish_append (progress : Progress) (front back : List String) :
    progress.finish (front ++ back) = (front.foldlM read progress).bind (·.finish back) := by
  unfold finish
  rw [List.foldlM_append]
  cases front.foldlM read progress <;> rfl

/-- A progress with nothing pending, from which nothing is declared an input. -/
def resting (entered : Arguments) : Progress := ⟨entered, none, false⟩

end Progress

theorem parse_eq (command : List String) :
    parse command = ((Progress.resting empty).finish command).map Progress.entered := by
  unfold parse Progress.finish Progress.resting
  cases command.foldlM Progress.read ⟨empty, none, false⟩ with
  | error usage => rfl
  | ok progress =>
    show progress.settle.bind (fun settled => .ok settled.entered) = progress.settle.map _
    cases progress.settle <;> rfl

/-! ### Entering -/

theorem isSome_input_enter {arguments entered : Arguments} {slot : Slot} {value : String}
    (done : arguments.enter slot value = .ok entered) :
    entered.input.isSome = (arguments.input.isSome || decide (slot = .input)) := by
  cases slot with
  | input =>
    obtain ⟨place, filled, same⟩ := bind_eq_ok_iff.mp done
    obtain rfl := Except.ok.inj same
    unfold fillName at filled
    split at filled
    · cases filled
    · split at filled
      · cases filled
      · rw [← Except.ok.inj filled]
        simp
  | output | layout | fields =>
    obtain ⟨place, _, same⟩ := bind_eq_ok_iff.mp done
    obtain rfl := Except.ok.inj same
    simp

namespace Progress

variable {progress settled : Progress}

theorem settle_eq_ok_iff :
    progress.settle = .ok settled ↔
      progress.pending = none ∧ settled = progress ∨
        ∃ slot value entered, progress.pending = some (slot, some value) ∧
          progress.entered.enter slot value = .ok entered ∧
          settled = ⟨entered, none, progress.inputsOnly⟩ := by
  obtain ⟨entered, pending, inputsOnly⟩ := progress
  unfold settle
  cases pending with
  | none => simp [eq_comm]
  | some waiting =>
    obtain ⟨slot, value?⟩ := waiting
    cases value? with
    | none => simp
    | some value =>
      constructor
      · intro done
        obtain ⟨next, filled, same⟩ := bind_eq_ok_iff.mp done
        exact .inr ⟨slot, value, next, rfl, filled, (Except.ok.inj same).symm⟩
      · rintro (⟨impossible, _⟩ | ⟨_, _, next, same, filled, rfl⟩)
        · cases impossible
        · cases same
          exact bind_eq_ok_iff.mpr ⟨next, filled, rfl⟩

theorem settle_resting (entered : Arguments) : (resting entered).settle = .ok (resting entered) :=
  rfl

theorem pending_of_settle (done : progress.settle = .ok settled) : settled.pending = none := by
  rcases settle_eq_ok_iff.mp done with ⟨none, rfl⟩ | ⟨_, _, _, _, _, rfl⟩
  · exact none
  · rfl

theorem inputsOnly_of_settle (done : progress.settle = .ok settled) :
    settled.inputsOnly = progress.inputsOnly := by
  rcases settle_eq_ok_iff.mp done with ⟨_, rfl⟩ | ⟨_, _, _, _, _, rfl⟩ <;> rfl

theorem settle_of_settle (done : progress.settle = .ok settled) : settled.settle = .ok settled :=
  settle_eq_ok_iff.mpr (.inl ⟨pending_of_settle done, rfl⟩)

/-! ### What is pending makes no difference -/

theorem begin_of_settle (done : progress.settle = .ok settled) (flag : Flag) :
    progress.begin flag = settled.begin flag := by
  unfold begin
  rw [done, settle_of_settle done]

theorem await_of_settle (done : progress.settle = .ok settled) (slot : Slot)
    (attached : Option (List Char)) :
    progress.await slot attached = settled.await slot attached := by
  unfold await
  rw [done, settle_of_settle done]

theorem letters_of_settle (done : progress.settle = .ok settled) (letter : Char)
    (rest : List Char) :
    progress.letters (letter :: rest) = settled.letters (letter :: rest) := by
  rw [letters, letters]
  split
  · rfl
  · exact await_of_settle done _ _
  · rw [begin_of_settle done]

theorem long_of_settle (done : progress.settle = .ok settled) (text : List Char) :
    progress.long text = settled.long text := by
  unfold long
  split
  split
  · rfl
  · exact await_of_settle done _ _
  · rw [begin_of_settle done]

/-- A pending input takes up the place of an entered one. -/
theorem hasInput_of_settle (done : progress.settle = .ok settled) :
    progress.hasInput = settled.hasInput := by
  unfold hasInput
  rcases settle_eq_ok_iff.mp done with ⟨_, rfl⟩ | ⟨_, _, _, pending, filled, rfl⟩
  · rfl
  · rw [pending, isSome_input_enter filled]
    simp

theorem input_of_settle (done : progress.settle = .ok settled) (value : String) :
    progress.input value = settled.input value := by
  unfold input
  rw [hasInput_of_settle done, done, settle_of_settle done]

theorem value_of_settle (done : progress.settle = .ok settled) (value : String) :
    progress.value value = settled.value value := by
  have input := input_of_settle done value
  unfold Progress.value
  rcases settle_eq_ok_iff.mp done with ⟨_, rfl⟩ | ⟨_, _, _, pending, _, rfl⟩
  · rfl
  · rw [pending]
    exact input

/-- Whatever is read next, but the two dashes alone, enters what is pending. -/
theorem read_of_settle (done : progress.settle = .ok settled) {argument : String}
    (other : progress.inputsOnly = true ∨ argument ≠ "--") :
    progress.read argument = settled.read argument := by
  unfold read
  rw [inputsOnly_of_settle done]
  split
  · exact input_of_settle done argument
  · next open_ =>
    split
    · next dashes =>
      refine absurd (String.toList_inj.mp dashes) (other.resolve_left open_)
    · exact long_of_settle done _
    · exact letters_of_settle done _ _
    · exact value_of_settle done _

theorem read_dashes (items : progress.inputsOnly = false) :
    progress.read "--" = .ok { progress with inputsOnly := true } := by
  unfold read
  rw [items]
  rfl

theorem settle_inputsOnly (progress : Progress) :
    { progress with inputsOnly := true }.settle =
      progress.settle.map fun settled => { settled with inputsOnly := true } := by
  obtain ⟨entered, pending, inputsOnly⟩ := progress
  cases pending with
  | none => rfl
  | some waiting =>
    obtain ⟨slot, value?⟩ := waiting
    cases value? with
    | none => rfl
    | some value =>
      show (entered.enter slot value).bind _ = ((entered.enter slot value).bind _).map _
      cases entered.enter slot value <;> rfl

/-- A reading comes to the same whether what is pending is entered before it or in its course. -/
theorem finish_of_settle (done : progress.settle = .ok settled) (command : List String) :
    progress.finish command = settled.finish command := by
  induction command generalizing progress settled with
  | nil => exact done.trans (settle_of_settle done).symm
  | cons argument later inductionHypothesis =>
    rw [finish_cons, finish_cons]
    by_cases other : progress.inputsOnly = true ∨ argument ≠ "--"
    · rw [read_of_settle done other]
    · rw [not_or, Bool.not_eq_true, Decidable.not_not] at other
      obtain ⟨items, rfl⟩ := other
      rw [read_dashes items, read_dashes ((inputsOnly_of_settle done).trans items)]
      refine inductionHypothesis ?_
      rw [settle_inputsOnly, done]
      rfl

/-! ### Single arguments -/

section

variable {argument : String}

theorem read_of_letters (items : progress.inputsOnly = false) {letter : Char} {rest : List Char}
    (whole : argument.toList = '-' :: letter :: rest) (short : letter ≠ '-') :
    progress.read argument = progress.letters (letter :: rest) := by
  unfold read
  rw [items, whole]
  simp [short]

theorem read_of_long (items : progress.inputsOnly = false) {text : List Char}
    (whole : argument.toList = '-' :: '-' :: text) (named : text ≠ []) :
    progress.read argument = progress.long text := by
  unfold read
  rw [items, whole]
  cases text with
  | nil => exact absurd rfl named
  | cons first rest => rfl

theorem long_of_slot {name : List Char} (noEquals : '=' ∉ name) {slot : Slot}
    (known : Item.ofName? name = some (.slot slot)) (progress : Progress) :
    progress.long name = progress.await slot none := by
  unfold long
  rw [splitFirst?_eq_none noEquals]
  dsimp only
  rw [known]

theorem long_of_attached {name : List Char} (noEquals : '=' ∉ name) {slot : Slot}
    (known : Item.ofName? name = some (.slot slot)) (progress : Progress) (value : List Char) :
    progress.long (name ++ ['='] ++ value) = progress.await slot (some value) := by
  unfold long
  rw [splitFirst?_append noEquals]
  dsimp only
  rw [known]

/-- The words of the verbose flag are read as the flag. -/
theorem finish_verbose (items : progress.inputsOnly = false) {word : String}
    (spelt : word = "-v" ∨ word = "--verbose") (later : List String) :
    progress.finish (word :: later) = (progress.begin .verbose).bind (·.finish later) := by
  rw [finish_cons]
  rcases spelt with rfl | rfl
  · have read : progress.read "-v" = (progress.begin .verbose).bind fun behind => .ok behind := by
      unfold read
      rw [items]
      rfl
    rw [read]
    cases progress.begin .verbose <;> rfl
  · have read : progress.read "--verbose" = progress.begin .verbose := by
      unfold read
      rw [items]
      rfl
    rw [read]

/-- Letters that begin with a flag are read as the flag and then the other letters. -/
theorem finish_bundle (items : progress.inputsOnly = false) {letter next : Char}
    {rest : List Char} {flag : Flag} (known : Item.ofLetter? letter = some (.flag flag))
    (whole : argument.toList = '-' :: letter :: next :: rest) (short : letter ≠ '-')
    {less : String} (others : less.toList = '-' :: next :: rest) (nextShort : next ≠ '-')
    (later : List String) :
    progress.finish (argument :: later) =
      (progress.begin flag).bind (·.finish (less :: later)) := by
  rw [finish_cons, read_of_letters items whole short, letters, known]
  show ((progress.begin flag).bind (·.letters (next :: rest))).bind _ = _
  cases begun : progress.begin flag with
  | error usage => rfl
  | ok behind =>
    obtain ⟨settled, done, raised⟩ := bind_eq_ok_iff.mp begun
    obtain ⟨entered, _, same⟩ := bind_eq_ok_iff.mp raised
    have stillItems : behind.inputsOnly = false := by
      rw [← Except.ok.inj same]
      exact (inputsOnly_of_settle done).trans items
    show (behind.letters (next :: rest)).bind _ = behind.finish _
    rw [finish_cons, read_of_letters stillItems others nextShort]

end

end Progress

end Arguments

end OpcodeTable
