/-
This file compares the two ways of building a catalog, from the list of names alone and with a table
beside it. Every step keeps the two in agreement: the table has a place for a name just when the
name stands there in the list. So what the table refuses is what the list would repeat, and both
ways accept the same lists, refuse the others for the same name, and answer every question alike.
-/

import Mathlib.Data.List.Nodup
import OpcodeTable.Catalog.Register
import OpcodeTable.Proofs.FieldOrder

namespace OpcodeTable

/-! ### The first repetition -/

namespace Catalog

variable {names : List String} {name : String}

/-- At this place stands a name that is among the names seen or those before it, and at no place
before it does one. -/
def RepeatsAt (seen names : List String) (place : Nat) (name : String) : Prop :=
  names[place]? = some name ∧ (name ∈ seen ∨ name ∈ names.take place) ∧
    ∀ earlier < place, ∀ other, names[earlier]? = some other →
      other ∉ seen ∧ other ∉ names.take earlier

theorem firstRepeat?_eq_some_iff {seen : List String} :
    firstRepeat? seen names = some name ↔ ∃ place, RepeatsAt seen names place name := by
  induction names generalizing seen with
  | nil => simp [firstRepeat?, RepeatsAt]
  | cons first later inductionHypothesis =>
    have start : RepeatsAt seen (first :: later) 0 name ↔ first = name ∧ name ∈ seen := by
      simp [RepeatsAt]
    have behind (place : Nat) : RepeatsAt seen (first :: later) (place + 1) name ↔
        first ∉ seen ∧ RepeatsAt (first :: seen) later place name := by
      rw [RepeatsAt, RepeatsAt, Nat.forall_lt_succ_left]
      simp only [List.getElem?_cons_succ, List.getElem?_cons_zero, List.take_succ_cons,
        List.take_zero, List.mem_cons, List.not_mem_nil, Option.some.injEq, forall_eq', not_or,
        not_false_eq_true, and_true]
      grind
    rw [firstRepeat?, ← Nat.or_exists_add_one, start]
    simp only [behind, exists_and_left, ← inductionHypothesis]
    by_cases member : first ∈ seen
    · rw [if_pos member]
      grind
    · rw [if_neg member]
      grind

/-- A list in which no name repeats one before it has no first repetition. -/
theorem firstRepeat?_eq_none_iff {seen : List String} :
    firstRepeat? seen names = none ↔ names.Nodup ∧ ∀ name ∈ names, name ∉ seen := by
  refine ⟨nodup_of_firstRepeat?_eq_none, fun ⟨distinct, unseen⟩ => ?_⟩
  induction names generalizing seen with
  | nil => rfl
  | cons first later inductionHypothesis =>
    have ⟨fresh, distinct⟩ := List.nodup_cons.mp distinct
    have ⟨firstUnseen, unseen⟩ := List.forall_mem_cons.mp unseen
    rw [firstRepeat?, if_neg firstUnseen]
    refine inductionHypothesis ⟨distinct, fun name member => ?_⟩ distinct fun name member => ?_
    all_goals
      rw [List.mem_cons, not_or]
      exact ⟨fun same => fresh (same ▸ member), unseen name member⟩

theorem ofNames_eq_error_iff {repeated : RepeatedField} :
    ofNames names = .error repeated ↔ firstRepeat? [] names = some repeated.name := by
  unfold ofNames
  split
  · next name found =>
    rw [found, Option.some.injEq]
    exact ⟨fun same => congrArg RepeatedField.name (Except.error.inj same),
      fun same => congrArg _ (congrArg RepeatedField.mk same)⟩
  · next none => simp [none]

/-- A list is refused for the name at the first place where one repeats a name before it. -/
theorem ofNames_eq_error_iff_repeats {repeated : RepeatedField} :
    ofNames names = .error repeated ↔
      ∃ place, names[place]? = some repeated.name ∧ repeated.name ∈ names.take place ∧
        ∀ earlier < place, ∀ other, names[earlier]? = some other → other ∉ names.take earlier := by
  rw [ofNames_eq_error_iff, firstRepeat?_eq_some_iff]
  simp only [RepeatsAt, List.not_mem_nil, false_or, not_false_eq_true, true_and]

theorem ofNames_eq_ok_iff {catalog : Catalog} :
    ofNames names = .ok catalog ↔ catalog.names = names := by
  unfold ofNames
  constructor
  · intro built
    split at built
    · cases built
    · cases built
      rfl
  · rintro rfl
    have none := firstRepeat?_eq_none_iff.mpr ⟨catalog.distinct, fun _ _ => List.not_mem_nil⟩
    split
    · next found => rw [none] at found; cases found
    · rfl

/-- Just the lists in which every name stands once have a catalog. -/
theorem exists_ofNames_iff : (∃ catalog, ofNames names = .ok catalog) ↔ names.Nodup := by
  simp only [ofNames_eq_ok_iff]
  exact ⟨fun ⟨catalog, same⟩ => same ▸ catalog.distinct, fun distinct => ⟨⟨names, distinct⟩, rfl⟩⟩

end Catalog

/-! ### Names with a table of places -/

namespace Register

/-- The table has a place for a name just when the name stands there. -/
def Agrees (register : Register) : Prop :=
  ∀ (name : String) (place : Nat),
    register.places[name]? = some place ↔ register.names[place]? = some name

theorem agrees_blank : blank.Agrees := by
  simp [Agrees, blank]

variable {register : Register} {name : String}

theorem Agrees.contains_iff (agrees : register.Agrees) :
    register.places.contains name = true ↔ name ∈ register.names := by
  rw [Std.HashMap.contains_eq_isSome_getElem?, Option.isSome_iff_exists, List.mem_iff_getElem?]
  exact exists_congr (agrees name)

/-! ### Entering names -/

theorem enter_of_mem (agrees : register.Agrees) (member : name ∈ register.names) :
    register.enter name = .error ⟨name⟩ := by
  rw [enter, if_pos (agrees.contains_iff.mpr member)]

theorem enter_of_not_mem (agrees : register.Agrees) (fresh : name ∉ register.names) :
    ∃ entered, register.enter name = .ok entered ∧ entered.names = register.names ++ [name] ∧
      entered.Agrees := by
  refine ⟨_, by rw [enter, if_neg (mt agrees.contains_iff.mp fresh)], rfl, ?_⟩
  intro other place
  have behind : (register.names ++ [name])[place]? = some other ↔
      register.names[place]? = some other ∨ place = register.names.length ∧ name = other := by
    grind
  dsimp only
  rw [Std.HashMap.getElem?_insert, behind, ← agrees]
  by_cases same : name = other
  · subst same
    have unplaced : register.places[name]? ≠ some place := fun placed =>
      fresh (List.mem_iff_getElem?.mpr ⟨place, (agrees name place).mp placed⟩)
    simp [unplaced, eq_comm]
  · simp [same]

/-- Entering names ends with all of them behind those before, or at the first that repeats one. -/
theorem enterAll_cases (agrees : register.Agrees) (seen : List String)
    (same : ∀ name, name ∈ seen ↔ name ∈ register.names) (names : List String) :
    (∃ name, Catalog.firstRepeat? seen names = some name ∧
        register.enterAll names = .error ⟨name⟩) ∨
      Catalog.firstRepeat? seen names = none ∧
        ∃ entered, register.enterAll names = .ok entered ∧
          entered.names = register.names ++ names ∧ entered.Agrees := by
  induction names generalizing register seen with
  | nil => exact .inr ⟨rfl, register, rfl, (List.append_nil _).symm, agrees⟩
  | cons name later inductionHypothesis =>
    rw [Catalog.firstRepeat?, enterAll]
    by_cases member : name ∈ register.names
    · rw [if_pos ((same name).mpr member), enter_of_mem agrees member]
      exact .inl ⟨name, rfl, rfl⟩
    · obtain ⟨entered, done, names, agrees⟩ := enter_of_not_mem agrees member
      rw [if_neg (mt (same name).mp member), done]
      have further := inductionHypothesis agrees (name :: seen) fun other => by
        rw [names, List.mem_append, List.mem_singleton, List.mem_cons, same, or_comm]
      rwa [names, List.append_assoc] at further

/-- A catalog has a register of the same names, which finds each at its rank. -/
theorem exists_ofNames {names : List String} {catalog : Catalog}
    (built : Catalog.ofNames names = .ok catalog) :
    ∃ register, ofNames names = .ok register ∧ register.names = names ∧
      ∀ name, register.places[name]? = catalog.rank? name := by
  have same : catalog.names = names := Catalog.ofNames_eq_ok_iff.mp built
  have fresh : Catalog.firstRepeat? [] names = none :=
    Catalog.firstRepeat?_eq_none_iff.mpr ⟨same ▸ catalog.distinct, fun _ _ => List.not_mem_nil⟩
  rcases enterAll_cases agrees_blank [] (fun _ => Iff.rfl) names with
    ⟨name, found, -⟩ | ⟨-, register, entered, whole, agrees⟩
  · rw [fresh] at found
    cases found
  · refine ⟨register, entered, whole, fun name => Option.ext fun place => ?_⟩
    rw [agrees, whole, Catalog.rank?_eq_some_iff, same]
    rfl

/-- A register is refused for the name that the catalog is refused for. -/
theorem ofNames_eq_error_iff {names : List String} {repeated : RepeatedField} :
    ofNames names = .error repeated ↔ Catalog.ofNames names = .error repeated := by
  rw [Catalog.ofNames_eq_error_iff]
  rcases enterAll_cases agrees_blank [] (fun _ => Iff.rfl) names with
    ⟨name, found, refused⟩ | ⟨none, register, entered, -⟩
  · rw [found, ofNames, refused, Except.error.injEq, Option.some.injEq]
    exact ⟨fun same => congrArg RepeatedField.name same, fun same => congrArg RepeatedField.mk same⟩
  · rw [none, ofNames, entered]
    simp

end Register

end OpcodeTable
