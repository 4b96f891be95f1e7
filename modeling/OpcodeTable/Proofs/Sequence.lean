/-
This file is about steps that are taken one after the other until one fails. Where several
things on one line are wrong the leftmost is reported: reading one token after the other stops
at the first that fails, and a list of names is searched from its front. Elements that bring
nothing are passed over without changing which one is leftmost, so what is said of the names of
a line can be said of its tokens. What the elements give keeps their order.
-/

namespace OpcodeTable

variable {ε α β : Type}

/-! ### Two steps -/

theorem bind_eq_ok_iff {first : Except ε α} {next : α → Except ε β} {result : β} :
    first.bind next = .ok result ↔ ∃ value, first = .ok value ∧ next value = .ok result := by
  cases first with
  | error fault => exact ⟨fun done => (nomatch done), fun ⟨_, done, _⟩ => nomatch done⟩
  | ok value =>
    exact ⟨fun done => ⟨value, rfl, done⟩, fun ⟨_, same, done⟩ => Except.ok.inj same ▸ done⟩

theorem bind_eq_error_iff {first : Except ε α} {next : α → Except ε β} {fault : ε} :
    first.bind next = .error fault ↔
      first = .error fault ∨ ∃ value, first = .ok value ∧ next value = .error fault := by
  cases first with
  | error own =>
    refine ⟨fun failed => .inl (congrArg _ (Except.error.inj failed)), ?_⟩
    rintro (failed | ⟨_, done, _⟩)
    · exact congrArg _ (Except.error.inj failed)
    · cases done
  | ok value =>
    refine ⟨fun failed => .inr ⟨value, rfl, failed⟩, ?_⟩
    rintro (failed | ⟨_, same, failed⟩)
    · cases failed
    · exact Except.ok.inj same ▸ failed

theorem map_eq_ok_iff {first : Except ε α} {change : α → β} {result : β} :
    first.map change = .ok result ↔ ∃ value, first = .ok value ∧ change value = result := by
  cases first with
  | error fault => exact ⟨fun done => (nomatch done), fun ⟨_, done, _⟩ => nomatch done⟩
  | ok value =>
    refine ⟨fun done => ⟨value, rfl, Except.ok.inj done⟩, ?_⟩
    rintro ⟨_, same, rfl⟩
    rw [Except.ok.inj same]
    rfl

theorem map_eq_error_iff {first : Except ε α} {change : α → β} {fault : ε} :
    first.map change = .error fault ↔ first = .error fault := by
  cases first with
  | error own =>
    exact ⟨fun failed => congrArg _ (Except.error.inj failed),
      fun failed => congrArg _ (Except.error.inj failed)⟩
  | ok value => exact ⟨fun failed => (nomatch failed), fun failed => nomatch failed⟩

theorem mapError_eq_ok_iff {δ : Type} {first : Except ε α} {place : ε → δ} {result : α} :
    first.mapError place = .ok result ↔ first = .ok result := by
  cases first with
  | error fault => exact ⟨fun done => (nomatch done), fun done => nomatch done⟩
  | ok value =>
    exact ⟨fun done => congrArg _ (Except.ok.inj done), fun done => congrArg _ (Except.ok.inj done)⟩

theorem mapError_eq_error_iff {δ : Type} {first : Except ε α} {place : ε → δ} {fault : δ} :
    first.mapError place = .error fault ↔ ∃ own, first = .error own ∧ fault = place own := by
  cases first with
  | error own =>
    refine ⟨fun failed => ⟨own, rfl, (Except.error.inj failed).symm⟩, ?_⟩
    rintro ⟨_, same, rfl⟩
    rw [Except.error.inj same]
    rfl
  | ok value => exact ⟨fun failed => (nomatch failed), fun ⟨_, failed, _⟩ => nomatch failed⟩

/-- A computation fails just when it has no result. -/
theorem exists_ok_iff {first : Except ε α} :
    (∃ value, first = .ok value) ↔ ¬ ∃ fault, first = .error fault := by
  cases first with
  | error fault =>
    exact iff_of_false (fun ⟨_, done⟩ => nomatch done) fun sound => sound ⟨fault, rfl⟩
  | ok value => exact iff_of_true ⟨value, rfl⟩ fun ⟨_, failed⟩ => nomatch failed

/-! ### The leftmost element of a kind -/

/-- The element is the leftmost one of the list that has the property. -/
inductive Leftmost (property : α → Prop) (x : α) : List α → Prop
  | here {later : List α} (found : property x) : Leftmost property x (x :: later)
  | later {y : α} {ys : List α} (passed : ¬ property y) (found : Leftmost property x ys) :
      Leftmost property x (y :: ys)

namespace Leftmost

variable {property : α → Prop} {x : α} {xs : List α}

theorem mem (leftmost : Leftmost property x xs) : x ∈ xs := by
  induction leftmost with
  | here _ => exact List.mem_cons_self
  | later _ _ inductionHypothesis => exact List.mem_cons_of_mem _ inductionHypothesis

theorem holds (leftmost : Leftmost property x xs) : property x := by
  induction leftmost with
  | here found => exact found
  | later _ _ inductionHypothesis => exact inductionHypothesis

theorem exists_of_mem (member : x ∈ xs) (found : property x) :
    ∃ first, Leftmost property first xs := by
  induction xs with
  | nil => cases member
  | cons y ys inductionHypothesis =>
    by_cases passed : property y
    · exact ⟨y, .here passed⟩
    · rcases List.mem_cons.mp member with rfl | member
      · exact absurd found passed
      · obtain ⟨first, leftmost⟩ := inductionHypothesis member
        exact ⟨first, .later passed leftmost⟩

theorem exists_iff : (∃ first, Leftmost property first xs) ↔ ∃ x ∈ xs, property x :=
  ⟨fun ⟨first, leftmost⟩ => ⟨first, leftmost.mem, leftmost.holds⟩,
    fun ⟨_, member, found⟩ => exists_of_mem member found⟩

theorem find?_eq_some_iff {property : α → Bool} :
    xs.find? property = some x ↔ Leftmost (property · = true) x xs := by
  induction xs with
  | nil => exact ⟨fun found => (nomatch found), fun leftmost => nomatch leftmost⟩
  | cons y ys inductionHypothesis =>
    by_cases found : property y = true
    · rw [List.find?_cons_of_pos found]
      constructor
      · intro same
        rw [← Option.some.inj same]
        exact .here found
      · rintro (_ | ⟨passed, _⟩)
        · rfl
        · exact absurd found passed
    · rw [List.find?_cons_of_neg found, inductionHypothesis]
      refine ⟨.later found, ?_⟩
      rintro (here | ⟨_, leftmost⟩)
      · exact absurd here found
      · exact leftmost

/-- Passing over the elements that bring nothing keeps what is leftmost. -/
theorem filterMap_iff {bring : α → Option β} {property : β → Prop} {y : β} :
    Leftmost property y (xs.filterMap bring) ↔
      ∃ x, Leftmost (fun x => ∃ y, bring x = some y ∧ property y) x xs ∧ bring x = some y := by
  induction xs with
  | nil => exact ⟨fun leftmost => (nomatch leftmost), fun ⟨_, leftmost, _⟩ => nomatch leftmost⟩
  | cons first rest inductionHypothesis =>
    cases brought : bring first with
    | none =>
      rw [List.filterMap_cons_none brought, inductionHypothesis]
      constructor
      · intro ⟨x, leftmost, same⟩
        refine ⟨x, .later (fun ⟨_, found, _⟩ => ?_) leftmost, same⟩
        rw [brought] at found
        cases found
      · intro ⟨x, leftmost, same⟩
        cases leftmost with
        | here _ =>
          rw [brought] at same
          cases same
        | later _ leftmost => exact ⟨x, leftmost, same⟩
    | some z =>
      rw [List.filterMap_cons_some brought]
      constructor
      · intro leftmost
        cases leftmost with
        | here found => exact ⟨first, .here ⟨y, brought, found⟩, brought⟩
        | later passed leftmost =>
          obtain ⟨x, leftmost, same⟩ := inductionHypothesis.mp leftmost
          refine ⟨x, .later (fun ⟨other, found, wanted⟩ => passed ?_) leftmost, same⟩
          rwa [Option.some.inj (brought.symm.trans found)]
      · intro ⟨x, leftmost, same⟩
        cases leftmost with
        | here found =>
          obtain ⟨other, found, wanted⟩ := found
          rw [← Option.some.inj (same.symm.trans brought)]
          exact .here (Option.some.inj (found.symm.trans same) ▸ wanted)
        | later passed leftmost =>
          exact .later (fun wanted => passed ⟨z, brought, wanted⟩)
            (inductionHypothesis.mpr ⟨x, leftmost, same⟩)

end Leftmost

/-! ### What the elements give -/

/-- Gone through in order, the elements of the first list give those of the second: each that
gives something gives the next one, and the others give nothing. -/
inductive InOrder (gives : α → β → Prop) : List α → List β → Prop
  | nil : InOrder gives [] []
  | given {x : α} {y : β} {xs : List α} {ys : List β} (here : gives x y)
      (later : InOrder gives xs ys) : InOrder gives (x :: xs) (y :: ys)
  | silent {x : α} {xs : List α} {ys : List β} (nothing : ∀ y, ¬ gives x y)
      (later : InOrder gives xs ys) : InOrder gives (x :: xs) ys

/-- An element gives one thing at most when a function says what it gives. -/
theorem inOrder_iff {gives : α → β → Prop} {give : α → Option β} {xs : List α} {ys : List β}
    (same : ∀ x ∈ xs, ∀ y, gives x y ↔ give x = some y) :
    InOrder gives xs ys ↔ xs.filterMap give = ys := by
  induction xs generalizing ys with
  | nil =>
    refine ⟨fun given => ?_, ?_⟩
    · cases given
      rfl
    · rintro rfl
      exact .nil
  | cons x rest inductionHypothesis =>
    have ⟨here, behind⟩ := List.forall_mem_cons.mp same
    constructor
    · rintro (_ | ⟨given, later⟩ | ⟨nothing, later⟩)
      · rw [List.filterMap_cons_some ((here _).mp given), (inductionHypothesis behind).mp later]
      · have none : give x = none :=
          Option.eq_none_iff_forall_ne_some.mpr fun y given => nothing y ((here y).mpr given)
        rw [List.filterMap_cons_none none, (inductionHypothesis behind).mp later]
    · rintro rfl
      have later := (inductionHypothesis behind).mpr rfl
      cases given : give x with
      | none =>
        rw [List.filterMap_cons_none given]
        refine .silent (fun y gave => ?_) later
        simp [(here y).mp gave] at given
      | some y =>
        rw [List.filterMap_cons_some given]
        exact .given ((here y).mpr given) later

theorem map_filter_eq (wanted : α → Prop) [DecidablePred wanted] (give : α → β) (xs : List α) :
    (xs.filter (wanted ·)).map give =
      xs.filterMap fun x => if wanted x then some (give x) else none := by
  induction xs with
  | nil => rfl
  | cons x rest inductionHypothesis =>
    by_cases here : wanted x
    · simp [here, inductionHypothesis]
    · simp [here, inductionHypothesis]

/-! ### Reading one after the other -/

theorem mapM_cons_eq (read : α → Except ε β) (x : α) (rest : List α) :
    (x :: rest).mapM read = (read x).bind fun y => (rest.mapM read).map (y :: ·) := by
  rw [List.mapM_cons]
  cases read x with
  | error fault => rfl
  | ok y => cases rest.mapM read <;> rfl

theorem mapM_eq_ok_iff {read : α → Except ε β} {xs : List α} {ys : List β} :
    xs.mapM read = .ok ys ↔ xs.map read = ys.map .ok := by
  induction xs generalizing ys with
  | nil =>
    rw [List.mapM_nil, List.map_nil, eq_comm (a := []), List.map_eq_nil_iff]
    exact ⟨fun same => (Except.ok.inj same).symm, fun empty => congrArg Except.ok empty.symm⟩
  | cons x rest inductionHypothesis =>
    simp only [mapM_cons_eq, bind_eq_ok_iff, map_eq_ok_iff, inductionHypothesis, List.map_cons]
    constructor
    · rintro ⟨y, first, zs, later, rfl⟩
      rw [first, later, List.map_cons]
    · intro same
      cases ys with
      | nil => cases same
      | cons y zs =>
        obtain ⟨first, later⟩ := List.cons.inj same
        exact ⟨y, first, zs, later, rfl⟩

/-- The leftmost failure is the failure of the whole. -/
theorem mapM_eq_error_iff {read : α → Except ε β} {xs : List α} {fault : ε} :
    xs.mapM read = .error fault ↔
      ∃ x, Leftmost (fun x => ∃ fault, read x = .error fault) x xs ∧ read x = .error fault := by
  induction xs with
  | nil => exact ⟨fun failed => (nomatch failed), fun ⟨_, leftmost, _⟩ => nomatch leftmost⟩
  | cons x rest inductionHypothesis =>
    rw [mapM_cons_eq, bind_eq_error_iff]
    simp only [map_eq_error_iff, inductionHypothesis]
    constructor
    · rintro (failed | ⟨y, done, z, leftmost, failed⟩)
      · exact ⟨x, .here ⟨fault, failed⟩, failed⟩
      · exact ⟨z, .later (exists_ok_iff.mp ⟨y, done⟩) leftmost, failed⟩
    · intro ⟨z, leftmost, failed⟩
      cases leftmost with
      | here _ => exact .inl failed
      | later passed leftmost =>
        obtain ⟨y, done⟩ := exists_ok_iff.mpr passed
        exact .inr ⟨y, done, z, leftmost, failed⟩

end OpcodeTable
