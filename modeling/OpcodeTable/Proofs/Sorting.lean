/-
This file is about sorting fields in the place where they are held. Every field is looked up
before one is moved, so a list with a field outside the catalog stays as it is, wherever that
field stands. When all are listed, each has a rank, and a stable sort by rank is the same as
counting how often each name stands in the list: both put the same names in the order of their
ranks, and only one list does that. In what order the fields were held therefore cannot be seen,
and fields that are sorted already stay where they are.
-/

import Mathlib.Data.List.Nodup
import OpcodeTable.Proofs.FieldOrder

namespace OpcodeTable

namespace Catalog

variable {catalog : Catalog} {fields : List String}

/-! ### Ranks of a list -/

/-- Fields with their ranks are what the lookups give just when the fields are those of the list
and each stands with its own rank. -/
theorem rankAll?_eq_some_iff {keyed : List (Nat × String)} :
    catalog.rankAll? fields = some keyed ↔
      keyed.map (·.2) = fields ∧ ∀ key ∈ keyed, catalog.rank? key.2 = some key.1 := by
  unfold rankAll?
  induction fields generalizing keyed with
  | nil =>
    rw [List.mapM_nil, List.map_eq_nil_iff]
    constructor
    · rintro ⟨⟩
      exact ⟨rfl, List.forall_mem_nil _⟩
    · rintro ⟨rfl, _⟩
      rfl
  | cons name rest inductionHypothesis =>
    rw [List.mapM_cons]
    simp only [Option.bind_eq_bind, Option.bind_eq_some_iff, inductionHypothesis,
      Option.map_eq_some_iff, Option.pure_def, Option.some.injEq]
    constructor
    · rintro ⟨_, ⟨rank, found, rfl⟩, later, ⟨rfl, own⟩, rfl⟩
      exact ⟨rfl, List.forall_mem_cons.mpr ⟨found, own⟩⟩
    · rintro ⟨names, own⟩
      obtain ⟨key, later, rfl, rfl, rfl⟩ := List.map_eq_cons_iff.mp names
      have ⟨found, own⟩ := List.forall_mem_cons.mp own
      exact ⟨key, ⟨key.1, found, rfl⟩, later, ⟨rfl, own⟩, rfl⟩

theorem exists_rankAll? (listed : ∀ name ∈ fields, name ∈ catalog) :
    ∃ keyed, catalog.rankAll? fields = some keyed := by
  simp only [rankAll?_eq_some_iff]
  induction fields with
  | nil => exact ⟨[], rfl, List.forall_mem_nil _⟩
  | cons name rest inductionHypothesis =>
    have ⟨first, later⟩ := List.forall_mem_cons.mp listed
    obtain ⟨rank, found⟩ := exists_rank?_iff.mpr first
    obtain ⟨keyed, rfl, own⟩ := inductionHypothesis later
    exact ⟨(rank, name) :: keyed, rfl, List.forall_mem_cons.mpr ⟨found, own⟩⟩

theorem map_rank?_of_own {keyed : List (Nat × String)}
    (own : ∀ key ∈ keyed, catalog.rank? key.2 = some key.1) :
    (keyed.map (·.2)).map catalog.rank? = (keyed.map (·.1)).map some := by
  rw [List.map_map, List.map_map]
  exact List.map_congr_left own

theorem exists_ranks (listed : ∀ name ∈ fields, name ∈ catalog) :
    ∃ ranks : List Nat, fields.map catalog.rank? = ranks.map some := by
  obtain ⟨keyed, read⟩ := exists_rankAll? listed
  obtain ⟨rfl, own⟩ := rankAll?_eq_some_iff.mp read
  exact ⟨keyed.map (·.1), map_rank?_of_own own⟩

theorem ranked_iff {ranks : List Nat} (own : fields.map catalog.rank? = ranks.map some) :
    catalog.Ranked fields ↔ ranks.Pairwise (· ≤ ·) := by
  have byRank : catalog.Ranked fields ↔
      (fields.map catalog.rank?).Pairwise fun first second => ∀ i j, first = some i →
        second = some j → i ≤ j := by
    rw [List.pairwise_map, Ranked]
  rw [byRank, own, List.pairwise_map]
  have plain (a b : Nat) : (∀ i j, some a = some i → some b = some j → i ≤ j) ↔ a ≤ b := by
    simp
  simp only [plain]

theorem nodup_ranks {ranks : List Nat} (own : fields.map catalog.rank? = ranks.map some)
    (distinct : fields.Nodup) : ranks.Nodup := by
  have keyed : (fields.map catalog.rank?).Nodup := by
    refine List.Nodup.map_on (fun first member second _ same => ?_) distinct
    obtain ⟨rank, _, found⟩ := List.mem_map.mp (own ▸ List.mem_map_of_mem member)
    exact rank?_injective found.symm (same ▸ found.symm)
  rw [own] at keyed
  exact keyed.of_map _

/-! ### Sorting by rank -/

theorem atMost_trans (first second third : Nat × String) (below : atMost first second = true)
    (above : atMost second third = true) : atMost first third = true :=
  decide_eq_true (Nat.le_trans (of_decide_eq_true below) (of_decide_eq_true above))

theorem atMost_total (first second : Nat × String) :
    (atMost first second || atMost second first) = true := by
  rw [atMost, atMost, Bool.or_eq_true, decide_eq_true_eq, decide_eq_true_eq]
  exact Nat.le_total first.1 second.1

theorem ranked_mergeSort {keyed : List (Nat × String)}
    (own : ∀ key ∈ keyed, catalog.rank? key.2 = some key.1) :
    catalog.Ranked ((keyed.mergeSort atMost).map (·.2)) := by
  have ascending : (keyed.mergeSort atMost).Pairwise fun first second => atMost first second :=
    List.pairwise_mergeSort atMost_trans atMost_total keyed
  have sortedOwn : ∀ key ∈ keyed.mergeSort atMost, catalog.rank? key.2 = some key.1 :=
    fun key member => own key (List.mem_mergeSort.mp member)
  refine (ranked_iff (map_rank?_of_own sortedOwn)).mpr (List.pairwise_map.mpr ?_)
  exact ascending.imp fun below => of_decide_eq_true below

/-- A stable sort by rank puts the names that are counted into the order of the catalog. -/
theorem sortByRank?_eq (listed : ∀ name ∈ fields, name ∈ catalog) :
    catalog.sortByRank? fields = some (catalog.arrange fields) := by
  obtain ⟨keyed, read⟩ := exists_rankAll? listed
  have ⟨names, own⟩ := rankAll?_eq_some_iff.mp read
  have perm : ((keyed.mergeSort atMost).map (·.2)).Perm fields :=
    names ▸ (List.mergeSort_perm keyed atMost).map _
  have same : (keyed.mergeSort atMost).map (·.2) = catalog.arrange fields :=
    eq_of_ranked (fun name member => listed name (perm.mem_iff.mp member))
      (perm.trans (arrange_perm_self listed).symm).count_eq (ranked_mergeSort own)
      (catalog.arrange_ranked fields)
  rw [sortByRank?, read, Option.map_some, same]

/-- Sorting in place fails as sorting does. What is held then is what sorting gives, and what was
held before if it gives nothing. -/
theorem run_sortInPlace (catalog : Catalog) (fields : List String) :
    catalog.sortInPlace.run.run fields =
      some ((catalog.sort fields).map fun _ => (), (catalog.sort fields).toOption.getD fields) := by
  change (catalog.hold fields).run.run fields = _
  unfold hold
  cases found : fields.find? (· ∉ catalog) with
  | none =>
    have listed : ∀ name ∈ fields, name ∈ catalog := fun name member =>
      of_not_not (mt decide_eq_true (List.find?_eq_none.mp found name member))
    rw [sort_eq_ok_iff.mpr ⟨listed, rfl⟩, sortByRank?_eq listed]
    rfl
  | some name =>
    have refused : catalog.sort fields = .error (.unknownField name) := by
      rw [sort, found]
    rw [refused]
    rfl

/-! ### One sorted list -/

theorem run_sortInPlace_of_listed (listed : ∀ name ∈ fields, name ∈ catalog) :
    catalog.sortInPlace.run.run fields = some (.ok (), catalog.arrange fields) := by
  rw [run_sortInPlace, sort_eq_ok_iff.mpr ⟨listed, rfl⟩]
  rfl

/-- Fields that are all listed are put into the order of their ranks, each as often as it stood;
the ranks go up at every field when no field stands twice. The same fields in any other order are
sorted into the same list, and a sorted list stays as it is. When a field is not listed, the
leftmost such field is the fault, and the fields stay as they were. -/
theorem sort_canonical (catalog : Catalog) (fields : List String) :
    ((∀ name ∈ fields, name ∈ catalog) →
        ∃ sorted, catalog.sort fields = .ok sorted ∧
          catalog.sortInPlace.run.run fields = some (.ok (), sorted) ∧ sorted.Perm fields ∧
          (∃ ranks : List Nat, sorted.map catalog.rank? = ranks.map some ∧
            ranks.Pairwise (· ≤ ·) ∧ (fields.Nodup → ranks.Pairwise (· < ·))) ∧
          (∀ others, others.Perm fields →
            catalog.sortInPlace.run.run others = some (.ok (), sorted)) ∧
          catalog.sortInPlace.run.run sorted = some (.ok (), sorted)) ∧
      ((∃ name ∈ fields, name ∉ catalog) →
        ∃ name, Leftmost (· ∉ catalog) name fields ∧
          catalog.sort fields = .error (.unknownField name) ∧
          catalog.sortInPlace.run.run fields = some (.error (.unknownField name), fields)) := by
  constructor
  · intro listed
    have perm : (catalog.arrange fields).Perm fields := arrange_perm_self listed
    have alike {others : List String} (same : others.Perm fields) :
        catalog.sortInPlace.run.run others = some (.ok (), catalog.arrange fields) := by
      have listed : ∀ name ∈ others, name ∈ catalog := fun name member =>
        listed name (same.mem_iff.mp member)
      rw [run_sortInPlace_of_listed listed, catalog.arrange_perm same]
    obtain ⟨ranks, own⟩ : ∃ ranks : List Nat,
        (catalog.arrange fields).map catalog.rank? = ranks.map some :=
      exists_ranks fun name member => listed name (perm.mem_iff.mp member)
    have ascending : ranks.Pairwise (· ≤ ·) :=
      (ranked_iff own).mp (catalog.arrange_ranked fields)
    refine ⟨_, sort_eq_ok_iff.mpr ⟨listed, rfl⟩, alike (.refl fields), perm,
      ⟨ranks, own, ascending, fun distinct => ?_⟩, fun others => alike, alike perm⟩
    have fresh : ranks.Nodup := nodup_ranks own (perm.nodup_iff.mpr distinct)
    exact (ascending.and fresh).imp fun ⟨below, other⟩ => Nat.lt_of_le_of_ne below other
  · intro ⟨unlisted, member, unknown⟩
    obtain ⟨name, leftmost⟩ : ∃ name, Leftmost (· ∉ catalog) name fields :=
      Leftmost.exists_of_mem member unknown
    have refused : catalog.sort fields = .error (.unknownField name) :=
      sort_eq_error_iff.mpr ⟨name, leftmost, rfl⟩
    refine ⟨name, leftmost, refused, ?_⟩
    rw [run_sortInPlace, refused]
    rfl

/-- With a field that stands twice, and with one between others that no catalog has. -/
theorem sort_canonical_twoLists :
    (∀ name ∈ ["rs2", "rd", "rs1", "rd"], name ∈ Catalog.riscv) ∧
      Catalog.riscv.sortInPlace.run.run ["rs2", "rd", "rs1", "rd"] =
        some (.ok (), ["rd", "rd", "rs1", "rs2"]) ∧
      (∃ name ∈ ["rs2", "seven", "rd", "eight"], name ∉ Catalog.riscv) ∧
      Catalog.riscv.sortInPlace.run.run ["rs2", "seven", "rd", "eight"] =
        some (.error (.unknownField "seven"), ["rs2", "seven", "rd", "eight"]) := by
  have listed : ∀ name ∈ ["rs2", "rd", "rs1", "rd"], name ∈ Catalog.riscv := by decide
  have unlisted : ∃ name ∈ ["rs2", "seven", "rd", "eight"], name ∉ Catalog.riscv := by decide
  refine ⟨listed, ?_, unlisted, ?_⟩
  · obtain ⟨sorted, same, held, _⟩ := (sort_canonical .riscv _).1 listed
    rw [held, ← Except.ok.inj same]
    rfl
  · obtain ⟨name, _, refused, held⟩ := (sort_canonical .riscv _).2 unlisted
    cases refused
    exact held

end Catalog

end OpcodeTable
