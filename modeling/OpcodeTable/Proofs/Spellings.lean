/-
This file is about the ways in which arguments can be spelt. What is chosen can be said in any
order, an item by its long name or its letter, a value apart or attached, and the letter of the
verbose flag in front of the letter of another item. Reading does not keep how a thing was said.
Each spelling of a choice takes a reading in which nothing has been said of its item to one in
which just that has been entered, and saying two things in turn comes to the same in both orders.
So a command line that says each choice once is read as what is chosen.
-/

import Mathlib.Data.List.Nodup
import OpcodeTable.Proofs.Pending
import OpcodeTable.Proofs.Stages

namespace OpcodeTable

open Text

/-- The word for a layout. -/
def Layout.word : Layout → String
  | .source => "rust"
  | .json => "json"

namespace Arguments

/-! ### Choices -/

/-- One thing that arguments can say. -/
inductive Choice where
  | input (path : String)
  | output (path : String)
  | layout (layout : Layout)
  | fields (path : String)
  | wide
  | verbose
  deriving DecidableEq

/-- What a choice is about. -/
def Choice.item : Choice → Item
  | .input _ => .slot .input
  | .output _ => .slot .output
  | .layout _ => .slot .layout
  | .fields _ => .slot .fields
  | .wide => .flag .wide
  | .verbose => .flag .verbose

/-- All that the arguments say. -/
def choices (arguments : Arguments) : List Choice :=
  arguments.input.toList.map .input ++ arguments.output.toList.map .output ++
    arguments.layout.toList.map .layout ++ arguments.fields.toList.map .fields ++
    (if arguments.wide then [.wide] else []) ++ (if arguments.verbose then [.verbose] else [])

/-- Say one thing more. -/
def say (arguments : Arguments) : Choice → Arguments
  | .input path => { arguments with input := some path }
  | .output path => { arguments with output := some path }
  | .layout layout => { arguments with layout := some layout }
  | .fields path => { arguments with fields := some path }
  | .wide => { arguments with wide := true }
  | .verbose => { arguments with verbose := true }

/-- Nothing is said yet of what the choice is about. -/
def Lacks (arguments : Arguments) : Choice → Prop
  | .input _ => arguments.input = none
  | .output _ => arguments.output = none
  | .layout _ => arguments.layout = none
  | .fields _ => arguments.fields = none
  | .wide => arguments.wide = false
  | .verbose => arguments.verbose = false

theorem lacks_empty (choice : Choice) : empty.Lacks choice := by
  cases choice <;> rfl

section

variable {arguments : Arguments} {first second : Choice}

theorem Lacks.say (lacks : arguments.Lacks second) (apart : first.item ≠ second.item) :
    (arguments.say first).Lacks second := by
  cases first <;> cases second <;> first | exact lacks | exact absurd rfl apart

theorem say_comm (arguments : Arguments) (apart : first.item ≠ second.item) :
    (arguments.say first).say second = (arguments.say second).say first := by
  cases first <;> cases second <;> first | rfl | exact absurd rfl apart

end

/-- All items, in the order in which the choices of arguments are listed. -/
def items : List Item :=
  [.slot .input, .slot .output, .slot .layout, .slot .fields, .flag .wide, .flag .verbose]

theorem nodup_choices (arguments : Arguments) : (arguments.choices.map Choice.item).Nodup := by
  have value {α : Type} (place : Option α) (say : α → Choice) (item : Item)
      (about : ∀ value, (say value).item = item) :
      ((place.toList.map say).map Choice.item).Sublist [item] := by
    cases place with
    | none => exact List.nil_sublist _
    | some value => rw [Option.toList_some, List.map_singleton, List.map_singleton, about]
  have flag (raised : Bool) (choice : Choice) :
      ((if raised then [choice] else []).map Choice.item).Sublist [choice.item] := by
    cases raised with
    | false => exact List.nil_sublist _
    | true => exact List.Sublist.refl _
  have listed : (arguments.choices.map Choice.item).Sublist items := by
    simp only [choices, List.map_append]
    exact ((((value _ .input _ fun _ => rfl).append (value _ .output _ fun _ => rfl)).append
      (value _ .layout _ fun _ => rfl)).append (value _ .fields _ fun _ => rfl)).append
        (flag _ .wide) |>.append (flag _ .verbose)
  exact (by decide : items.Nodup).sublist listed

theorem foldl_say_choices (arguments : Arguments) :
    arguments.choices.foldl say empty = arguments := by
  obtain ⟨input, output, layout, fields, wide, verbose⟩ := arguments
  cases input <;> cases output <;> cases layout <;> cases fields <;> cases wide <;>
    cases verbose <;> rfl

/-- All that is chosen can be said in any order. -/
theorem foldl_say_of_perm {arguments : Arguments} {order : List Choice}
    (chosen : order.Perm arguments.choices) : order.foldl say empty = arguments := by
  have distinct := arguments.nodup_choices
  rw [← (chosen.map Choice.item).nodup_iff] at distinct
  refine (chosen.foldl_eq' (fun first inFirst second inSecond said => ?_) empty).trans
    arguments.foldl_say_choices
  by_cases same : first = second
  · rw [same]
  · exact say_comm said fun alike =>
      same (List.inj_on_of_nodup_map distinct inFirst inSecond alike)

/-! ### Spellings -/

/-- The value can stand in an argument of its own: it does not begin with a dash, or is one. -/
def Bare (value : String) : Prop := value.toList.head? = some '-' → value = "-"

/-- The choice has a long name and a value. -/
inductive Named : Choice → String → String → Prop
  | output {path : String} (some : path ≠ "") : Named (.output path) "output" path
  | layout (layout : Layout) : Named (.layout layout) "format" layout.word
  | fields {path : String} (some : path ≠ "") : Named (.fields path) "fields" path

/-- The choice has a letter and a value. -/
inductive Lettered : Choice → Char → String → Prop
  | output {path : String} (some : path ≠ "") : Lettered (.output path) 'o' path
  | layout (layout : Layout) : Lettered (.layout layout) 'f' layout.word

/-- The choice is spelt by a dash, these letters and what is attached to them, and these further
arguments. -/
inductive Short : Choice → List Char → List String → Prop
  | apart {choice : Choice} {letter : Char} {value : String}
      (lettered : Lettered choice letter value) (bare : Bare value) :
      Short choice [letter] [value]
  | equals {choice : Choice} {letter : Char} {value : String}
      (lettered : Lettered choice letter value) : Short choice (letter :: '=' :: value.toList) []
  | glued {choice : Choice} {letter : Char} {value : String}
      (lettered : Lettered choice letter value) (noDash : value.toList.head? ≠ some '-')
      (noEquals : value.toList.head? ≠ some '=') : Short choice (letter :: value.toList) []

/-- The choice is spelt by these arguments. -/
inductive Spelt : Choice → List String → Prop
  | apart {choice : Choice} {name value : String} (named : Named choice name value)
      (bare : Bare value) : Spelt choice ["--" ++ name, value]
  | equals {choice : Choice} {name value : String} (named : Named choice name value) :
      Spelt choice ["--" ++ name ++ "=" ++ value]
  | short {choice : Choice} {letters : List Char} {more : List String}
      (short : Short choice letters more) : Spelt choice (String.ofList ('-' :: letters) :: more)
  | wide : Spelt .wide ["--wide"]
  | verbose : Spelt .verbose ["--verbose"]
  | letter : Spelt .verbose ["-v"]
  | input {path : String} (some : path ≠ "") (bare : Bare path) : Spelt (.input path) [path]

/-- The choices are written one after the other in these arguments. The letter of the verbose flag
can stand in front of the letter of the next choice, and an input of any name can stand behind two
dashes, which is the end. -/
inductive Written : List Choice → List String → Prop
  | done : Written [] []
  | last {path : String} (some : path ≠ "") : Written [.input path] ["--", path]
  | next {choice : Choice} {order : List Choice} {words rest : List String}
      (spelt : Spelt choice words) (later : Written order rest) :
      Written (choice :: order) (words ++ rest)
  | bundled {choice : Choice} {order : List Choice} {letters : List Char}
      {more rest : List String} (short : Short choice letters more)
      (later : Written order rest) :
      Written (.verbose :: choice :: order)
        (String.ofList ('-' :: 'v' :: letters) :: (more ++ rest))

/-! ### Reading a spelling -/

/-- Where nothing is said of the choice yet, entering this value says it. -/
def Enters (choice : Choice) (slot : Slot) (value : String) : Prop :=
  ∀ entered : Arguments, entered.Lacks choice → entered.enter slot value = .ok (entered.say choice)

theorem fillName_none {path : String} (some : path ≠ "") :
    fillName none path = .ok (.some path) := by
  have written : path.isEmpty = false := by
    rw [← Bool.not_eq_true, String.isEmpty_iff]
    exact some
  unfold fillName
  rw [written]
  rfl

theorem enters_input {path : String} (some : path ≠ "") : Enters (.input path) .input path := by
  intro entered lacks
  unfold enter
  rw [lacks, fillName_none some]
  rfl

theorem enters_output {path : String} (some : path ≠ "") :
    Enters (.output path) .output path := by
  intro entered lacks
  unfold enter
  rw [lacks, fillName_none some]
  rfl

theorem enters_layout (layout : Layout) : Enters (.layout layout) .layout layout.word := by
  intro entered lacks
  unfold enter
  rw [lacks]
  cases layout <;> rfl

theorem enters_fields {path : String} (some : path ≠ "") :
    Enters (.fields path) .fields path := by
  intro entered lacks
  unfold enter
  rw [lacks, fillName_none some]
  rfl

section

variable {choice : Choice} {name value : String} {letter : Char} {slot : Slot}

theorem Named.enters (named : Named choice name value) :
    ∃ slot, Item.ofName? name.toList = some (.slot slot) ∧ '=' ∉ name.toList ∧
      Enters choice slot value := by
  cases named with
  | output some => exact ⟨.output, rfl, by decide, enters_output some⟩
  | layout layout => exact ⟨.layout, rfl, by decide, enters_layout layout⟩
  | fields some => exact ⟨.fields, rfl, by decide, enters_fields some⟩

theorem Named.name_ne_nil (named : Named choice name value) : name.toList ≠ [] := by
  cases named <;> decide

theorem Lettered.enters (lettered : Lettered choice letter value) :
    ∃ slot, Item.ofLetter? letter = some (.slot slot) ∧ letter ≠ '-' ∧ value ≠ "" ∧
      Enters choice slot value := by
  cases lettered with
  | output some => exact ⟨.output, rfl, by decide, some, enters_output some⟩
  | layout layout =>
    exact ⟨.layout, rfl, by decide, by cases layout <;> decide, enters_layout layout⟩

end

namespace Progress

variable {entered : Arguments} {choice : Choice} {slot : Slot} {value : String}

theorem read_of_bare {progress : Progress} (items : progress.inputsOnly = false)
    (bare : Bare value) : progress.read value = progress.value value := by
  have notDash (rest : List Char) (whole : value.toList = '-' :: rest) : rest = [] := by
    have same := bare (by rw [whole, List.head?_cons])
    rw [same] at whole
    exact (List.cons.inj whole).2.symm
  unfold read
  rw [items]
  simp only [Bool.false_eq_true, if_false]
  split
  · next dashes => cases notDash _ dashes
  · next dashes => cases notDash _ dashes
  · next dashes => cases notDash _ dashes
  · rfl

/-- A value that is waited for can follow in an argument of its own. -/
theorem finish_apart (enters : Enters choice slot value) (lacks : entered.Lacks choice)
    (bare : Bare value) (rest : List String) :
    ((resting entered).await slot none).bind (·.finish (value :: rest)) =
      (resting (entered.say choice)).finish rest := by
  have waiting : (resting entered).await slot none = .ok ⟨entered, some (slot, none), false⟩ := rfl
  have pending : (Progress.mk entered (some (slot, none)) false).value value =
    .ok ⟨entered, some (slot, some value), false⟩ := rfl
  have settled : (Progress.mk entered (some (slot, some value)) false).settle =
      .ok (resting (entered.say choice)) :=
    settle_eq_ok_iff.mpr (.inr ⟨slot, value, _, rfl, enters entered lacks, rfl⟩)
  rw [waiting]
  show finish _ _ = _
  rw [finish_cons, read_of_bare rfl bare, pending]
  exact finish_of_settle settled rest

theorem finish_attached (enters : Enters choice slot value) (lacks : entered.Lacks choice)
    (rest : List String) :
    ((resting entered).await slot (some value.toList)).bind (·.finish rest) =
      (resting (entered.say choice)).finish rest := by
  have done : (resting entered).await slot (some value.toList) =
      .ok (resting (entered.say choice)) := by
    unfold await
    rw [settle_resting]
    show (entered.enter slot (String.ofList value.toList)).bind _ = _
    rw [String.ofList_toList, enters entered lacks]
    rfl
  rw [done]
  rfl

theorem attachedTo_of_some {text : List Char} (some : text ≠ [])
    (noEquals : text.head? ≠ .some '=') : attachedTo text = .some text := by
  unfold attachedTo
  split
  · exact absurd rfl some
  · exact absurd rfl noEquals
  · rfl

end Progress

open Progress

section

variable {entered : Arguments} {choice : Choice}

theorem Short.letters_eq {letters : List Char} {more : List String}
    (short : Short choice letters more) :
    ∃ letter rest, letters = letter :: rest ∧ letter ≠ '-' := by
  cases short with
  | apart lettered _ | equals lettered | glued lettered _ _ =>
    obtain ⟨_, _, noDash, _⟩ := lettered.enters
    exact ⟨_, _, rfl, noDash⟩

theorem Short.finish {letters : List Char} {more : List String}
    (short : Short choice letters more) (lacks : entered.Lacks choice) (rest : List String) :
    ((resting entered).letters letters).bind (·.finish (more ++ rest)) =
      (resting (entered.say choice)).finish rest := by
  cases short with
  | apart lettered bare =>
    obtain ⟨slot, known, _, _, enters⟩ := lettered.enters
    rw [letters, known]
    exact finish_apart enters lacks bare rest
  | equals lettered =>
    obtain ⟨slot, known, _, _, enters⟩ := lettered.enters
    rw [letters, known]
    exact finish_attached enters lacks rest
  | glued lettered _ noEquals =>
    obtain ⟨slot, known, _, some, enters⟩ := lettered.enters
    rw [letters, known]
    dsimp only
    rw [attachedTo_of_some (mt String.toList_eq_nil_iff.mp some) noEquals]
    exact finish_attached enters lacks rest

theorem begin_resting {flag : Flag} {raised : Arguments} (done : entered.raise flag = .ok raised) :
    (resting entered).begin flag = .ok (resting raised) := by
  show (entered.raise flag).bind _ = _
  rw [done]
  rfl

theorem raise_wide (lacks : entered.Lacks .wide) :
    entered.raise .wide = .ok (entered.say .wide) := by
  unfold raise
  rw [show entered.wide = false from lacks]
  rfl

theorem raise_verbose (lacks : entered.Lacks .verbose) :
    entered.raise .verbose = .ok (entered.say .verbose) := by
  unfold raise
  rw [show entered.verbose = false from lacks]
  rfl

/-- Whatever its spelling, a choice is read as what it says. -/
theorem Spelt.finish {words : List String} (spelt : Spelt choice words)
    (lacks : entered.Lacks choice) (rest : List String) :
    (resting entered).finish (words ++ rest) = (resting (entered.say choice)).finish rest := by
  cases spelt with
  | @apart _ name value named bare =>
    obtain ⟨slot, known, noEquals, enters⟩ := named.enters
    have whole : ("--" ++ name).toList = '-' :: '-' :: name.toList := String.toList_append
    rw [List.cons_append, finish_cons, read_of_long rfl whole named.name_ne_nil,
      long_of_slot noEquals known]
    exact finish_apart enters lacks bare rest
  | @equals _ name value named =>
    obtain ⟨slot, known, noEquals, enters⟩ := named.enters
    have whole : ("--" ++ name ++ "=" ++ value).toList =
        '-' :: '-' :: (name.toList ++ ['='] ++ value.toList) := by
      simp only [String.toList_append]
      rfl
    have some : name.toList ++ ['='] ++ value.toList ≠ [] := by simp
    rw [List.cons_append, finish_cons, read_of_long rfl whole some,
      long_of_attached noEquals known]
    exact finish_attached enters lacks rest
  | @short _ letters more short =>
    obtain ⟨letter, others, rfl, noDash⟩ := short.letters_eq
    rw [List.cons_append, finish_cons, read_of_letters rfl String.toList_ofList noDash]
    exact short.finish lacks rest
  | wide =>
    have read : (resting entered).read "--wide" = (resting entered).begin .wide := rfl
    rw [List.cons_append, finish_cons, read, begin_resting (raise_wide lacks)]
    rfl
  | verbose =>
    rw [List.cons_append, finish_verbose rfl (.inr rfl), begin_resting (raise_verbose lacks)]
    rfl
  | letter =>
    rw [List.cons_append, finish_verbose rfl (.inl rfl), begin_resting (raise_verbose lacks)]
    rfl
  | @input path some bare =>
    have free : (resting entered).hasInput = false := by
      unfold hasInput resting
      rw [show entered.input = none from lacks]
      rfl
    have pending : (resting entered).value path =
        .ok ⟨entered, .some (.input, .some path), false⟩ := by
      show (resting entered).input path = _
      unfold Progress.input
      rw [free]
      rfl
    have settled : (Progress.mk entered (.some (.input, .some path)) false).settle =
        .ok (resting (entered.say (.input path))) :=
      settle_eq_ok_iff.mpr (.inr ⟨.input, path, _, rfl, enters_input some entered lacks, rfl⟩)
    rw [List.cons_append, finish_cons, read_of_bare rfl bare, pending]
    exact finish_of_settle settled rest

/-- Behind two dashes an input is read whatever its name. -/
theorem finish_last {path : String} (some : path ≠ "") (lacks : entered.Lacks (.input path)) :
    ((resting entered).finish ["--", path]).map Progress.entered =
      .ok (entered.say (.input path)) := by
  have free : (Progress.mk entered none true).hasInput = false := by
    unfold hasInput
    rw [show entered.input = none from lacks]
    rfl
  have pending : (Progress.mk entered none true).read path =
      .ok ⟨entered, .some (.input, .some path), true⟩ := by
    show (Progress.mk entered none true).input path = _
    unfold Progress.input
    rw [free]
    rfl
  have settled : (Progress.mk entered (.some (.input, .some path)) true).settle =
      .ok ⟨entered.say (.input path), none, true⟩ :=
    settle_eq_ok_iff.mpr (.inr ⟨.input, path, _, rfl, enters_input some entered lacks, rfl⟩)
  rw [finish_cons, read_dashes rfl]
  show (finish ⟨entered, none, true⟩ [path]).map _ = _
  rw [finish_cons, pending]
  dsimp only [Except.bind]
  rw [finish_nil, settled]
  rfl

/-- What is written is read as all of it said in turn, if it is about one item after the other of
which nothing is said yet. -/
theorem Written.finish {order : List Choice} {command : List String}
    (written : Written order command) (lacks : ∀ choice ∈ order, entered.Lacks choice)
    (distinct : (order.map Choice.item).Nodup) :
    ((resting entered).finish command).map Progress.entered = .ok (order.foldl say entered) := by
  induction written generalizing entered with
  | done => rfl
  | last some => exact finish_last some (lacks _ List.mem_cons_self)
  | @next choice order words rest spelt _ inductionHypothesis =>
    have ⟨here, behind⟩ := List.forall_mem_cons.mp lacks
    have ⟨fresh, distinct⟩ := List.nodup_cons.mp distinct
    rw [spelt.finish here]
    refine inductionHypothesis (fun other member => (behind other member).say fun same => ?_)
      distinct
    exact fresh (same ▸ List.mem_map_of_mem member)
  | @bundled choice order letters more rest short _ inductionHypothesis =>
    have ⟨flag, behind⟩ := List.forall_mem_cons.mp lacks
    have ⟨here, behind⟩ := List.forall_mem_cons.mp behind
    have ⟨flagFresh, distinct⟩ := List.nodup_cons.mp distinct
    have ⟨fresh, distinct⟩ := List.nodup_cons.mp distinct
    -- Behind the letter of the flag stands a short spelling of the next choice, without its dash.
    have apart (other : Choice) (member : other ∈ choice :: order) :
        Choice.verbose.item ≠ other.item := fun same =>
      flagFresh (same ▸ List.mem_map_of_mem member)
    have ⟨letter, others, same, noDash⟩ := short.letters_eq
    subst same
    rw [finish_bundle rfl rfl String.toList_ofList (by decide) String.toList_ofList noDash,
      begin_resting (raise_verbose flag)]
    show ((resting _).finish ((_ :: more) ++ rest)).map _ = _
    rw [(Spelt.short short).finish (here.say (apart _ List.mem_cons_self))]
    refine inductionHypothesis (fun other member => ?_) distinct
    exact ((behind other member).say (apart other (List.mem_cons_of_mem _ member))).say
      fun same => fresh (same ▸ List.mem_map_of_mem member)

end

end Arguments

/-! ### Settings -/

/-- The catalog that a run with these fields uses, and the world that is left: the one that the file
lists, or that of the RISC-V tables. -/
inductive Loads (world : World) : Option String → Catalog → World → Prop
  | builtIn : Loads world none .riscv world
  | file {path text : String} {left : World} {catalog : Catalog}
      (read : world.readText path = .ok (text, left)) (listed : Catalog.parse text = .ok catalog) :
      Loads world (some path) catalog left

theorem Loads.loadCatalog {arguments : Arguments} {world left : World} {catalog : Catalog}
    (loads : Loads world arguments.fields catalog left) :
    arguments.loadCatalog world = .ok (catalog, left) := by
  unfold Arguments.loadCatalog
  cases fields : arguments.fields with
  | none =>
    rw [fields] at loads
    cases loads
    rfl
  | some path =>
    rw [fields] at loads
    obtain - | ⟨read, listed⟩ := loads
    dsimp only
    rw [read]
    show ((Catalog.parse _).mapError _).bind _ = _
    rw [listed]
    rfl

/-- A command line that says each choice once, in any order and spelling, is read as what is
chosen, and if the catalog can be loaded it comes to the settings that were chosen. What is not
chosen has its default, and an input with the name of a single dash is none. -/
theorem spellings_resolve {arguments : Arguments} {order : List Arguments.Choice}
    {command : List String} {world left : World} {catalog : Catalog}
    (chosen : order.Perm arguments.choices) (written : Arguments.Written order command)
    (loads : Loads world arguments.fields catalog left) :
    Arguments.parse command = .ok arguments ∧
      ∃ settings, arguments.resolve world = .ok (settings, left) ∧
        settings.output = arguments.output ∧
        (∀ layout, settings.layout = layout ↔
          arguments.layout = some layout ∨ arguments.layout = none ∧ layout = .source) ∧
        settings.verbose = arguments.verbose ∧
        settings.catalog = catalog ∧
        (settings.rules = .wide ↔ arguments.wide = true) ∧
        (settings.rules = .mixed ↔ arguments.wide = false) ∧
        (settings.input = none ↔ arguments.input = none ∨ arguments.input = some "-") ∧
        ∀ path, settings.input = some path ↔ arguments.input = some path ∧ path ≠ "-" := by
  have distinct := arguments.nodup_choices
  rw [← (chosen.map Arguments.Choice.item).nodup_iff] at distinct
  have parsed : Arguments.parse command = .ok arguments := by
    rw [Arguments.parse_eq, written.finish (fun choice _ => Arguments.lacks_empty choice) distinct,
      Arguments.foldl_say_of_perm chosen]
  refine ⟨parsed, arguments.settingsWith catalog, ?_, rfl, fun layout => ?_, rfl, rfl, ?_, ?_, ?_,
    fun path => ?_⟩
  · rw [Arguments.resolve_eq, loads.loadCatalog]
    rfl
  · unfold Arguments.settingsWith
    cases arguments.layout <;> simp [eq_comm]
  · unfold Arguments.settingsWith
    cases arguments.wide <;> simp [Rules.wide, Rules.mixed]
  · unfold Arguments.settingsWith
    cases arguments.wide <;> simp [Rules.wide, Rules.mixed]
  · unfold Arguments.settingsWith
    cases arguments.input <;> simp
  · unfold Arguments.settingsWith
    rw [Option.filter_eq_some_iff, decide_eq_true_eq]

/-- A choice whose names are a dash, or begin with dashes. -/
def dashedArguments : Arguments := ⟨some "--wide", some "-x=y", some .json, some "-", false, true⟩

/-- The same, in the order in which it is said. -/
def dashedOrder : List Arguments.Choice :=
  [.fields "-", .verbose, .output "-x=y", .layout .json, .input "--wide"]

/-- There is a file with the name of a dash, and it lists one field. -/
def dashWorld : World :=
  ⟨⟨[(["-"], .file (encodeUtf8 "rd # first\n".toList))], [], []⟩, [], none⟩

theorem spellings_resolve_dashed :
    dashedOrder.Perm dashedArguments.choices ∧
      Arguments.Written dashedOrder
        ["--fields", "-", "-vo=-x=y", "--format=json", "--", "--wide"] ∧
      Loads dashWorld (some "-") ⟨["rd"], by decide⟩ dashWorld ∧
      Arguments.parse ["--fields", "-", "-vo=-x=y", "--format=json", "--", "--wide"] =
        .ok dashedArguments ∧
      ∃ settings, dashedArguments.resolve dashWorld = .ok (settings, dashWorld) ∧
        settings.layout = .json ∧ settings.rules = .mixed ∧ settings.input = some "--wide" := by
  have chosen : dashedOrder.Perm dashedArguments.choices := by decide
  have fields : Arguments.Spelt (.fields "-") ["--fields", "-"] :=
    .apart (.fields (by decide)) fun _ => rfl
  have output : Arguments.Short (.output "-x=y") ['o', '=', '-', 'x', '=', 'y'] [] :=
    .equals (.output (by decide))
  have layout : Arguments.Spelt (.layout .json) ["--format=json"] := .equals (.layout .json)
  have written : Arguments.Written dashedOrder
      ["--fields", "-", "-vo=-x=y", "--format=json", "--", "--wide"] :=
    .next fields (.bundled output (.next layout (.last (by decide))))
  have read : dashWorld.readText "-" = .ok ("rd # first\n", dashWorld) :=
    World.readText_of_find_file rfl
  have loads : Loads dashWorld (some "-") ⟨["rd"], by decide⟩ dashWorld := .file read rfl
  obtain ⟨parsed, settings, resolved, _, layout, _, _, _, rules, _, input⟩ :=
    spellings_resolve chosen written loads
  exact ⟨chosen, written, loads, parsed, settings, resolved, (layout .json).mpr (.inl rfl),
    rules.mpr rfl, (input "--wide").mpr ⟨rfl, by decide⟩⟩

end OpcodeTable
