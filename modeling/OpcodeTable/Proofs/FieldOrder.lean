/-
This file says what the order of a catalog makes of a list of field names. Arranging keeps how
often each name stands in the list and puts the names in the order of their ranks, and since no
two names of a catalog have the same rank, no other list has both properties. A list with a name
outside the catalog is refused for the leftmost such name.
-/

import OpcodeTable.Catalog
import OpcodeTable.Proofs.Sequence

namespace OpcodeTable

namespace Catalog

variable {catalog : Catalog} {fields : List String}

/-- Whether the names stand in the order of their ranks. -/
def Ranked (catalog : Catalog) (fields : List String) : Prop :=
  fields.Pairwise fun first second => ∀ i j, catalog.rank? first = some i →
    catalog.rank? second = some j → i ≤ j

/-! ### Ranks -/

theorem rank?_eq_some_iff {name : String} {rank : Nat} :
    catalog.rank? name = some rank ↔ catalog.names[rank]? = some name := by
  rw [rank?, List.idxOf?_eq_some_iff, List.getElem?_eq_some_iff]
  refine ⟨fun ⟨bound, same, _⟩ => ⟨bound, same⟩, fun ⟨bound, same⟩ => ⟨bound, same, ?_⟩⟩
  intro other before again
  have same := (List.getElem_inj catalog.distinct).mp (again.trans same.symm)
  omega

theorem exists_rank?_iff {name : String} :
    (∃ rank, catalog.rank? name = some rank) ↔ name ∈ catalog := by
  simp only [rank?_eq_some_iff, ← List.mem_iff_getElem?]
  exact Iff.rfl

/-- Two names of one rank are one name. -/
theorem rank?_injective {first second : String} {rank : Nat}
    (firstRank : catalog.rank? first = some rank) (secondRank : catalog.rank? second = some rank) :
    first = second := by
  rw [rank?_eq_some_iff] at firstRank secondRank
  exact Option.some.inj (firstRank.symm.trans secondRank)

/-! ### Arranging -/

theorem arrange_ranked (catalog : Catalog) (fields : List String) :
    catalog.Ranked (catalog.arrange fields) := by
  unfold Ranked arrange
  rw [List.pairwise_flatMap]
  constructor
  · intro name _
    refine List.pairwise_replicate.mpr (.inr fun i j first second => ?_)
    exact Nat.le_of_eq (Option.some.inj (first.symm.trans second))
  · rw [List.pairwise_iff_getElem]
    intro i j iBound jBound before first firstMember second secondMember rank other
    rw [List.eq_of_mem_replicate firstMember, List.eq_of_mem_replicate secondMember]
    intro firstRank secondRank
    rw [rank?_eq_some_iff.mpr (List.getElem?_eq_getElem iBound)] at firstRank
    rw [rank?_eq_some_iff.mpr (List.getElem?_eq_getElem jBound)] at secondRank
    rw [← Option.some.inj firstRank, ← Option.some.inj secondRank]
    exact Nat.le_of_lt before

/-- Nothing is lost when all names are listed. -/
theorem arrange_perm_self (listed : ∀ name ∈ fields, name ∈ catalog) :
    (catalog.arrange fields).Perm fields := by
  refine List.perm_iff_count.mpr fun name => ?_
  rw [count_arrange]
  split
  · rfl
  · next unlisted => exact (List.count_eq_zero.mpr (mt (listed name) unlisted)).symm

/-- Only how often each name stands in the list matters. -/
theorem arrange_perm (catalog : Catalog) {others : List String} (same : fields.Perm others) :
    catalog.arrange fields = catalog.arrange others := by
  unfold arrange
  simp only [same.count_eq]

/-- Names of the catalog in the order of their ranks are determined by how often each stands
among them. -/
theorem eq_of_ranked {first second : List String} (listed : ∀ name ∈ first, name ∈ catalog)
    (counts : ∀ name, first.count name = second.count name) (firstRanked : catalog.Ranked first)
    (secondRanked : catalog.Ranked second) : first = second := by
  have same : first.Perm second := List.perm_iff_count.mpr counts
  refine same.eq_of_pairwise (fun one other oneMember otherMember below above => ?_) firstRanked
    secondRanked
  obtain ⟨i, oneRank⟩ := exists_rank?_iff.mpr (listed one oneMember)
  obtain ⟨j, otherRank⟩ := exists_rank?_iff.mpr (listed other (same.mem_iff.mpr otherMember))
  have level := Nat.le_antisymm (below i j oneRank otherRank) (above j i otherRank oneRank)
  exact rank?_injective oneRank (level ▸ otherRank)

/-! ### Sorting -/

theorem sort_eq_error_iff {fault : Fault} :
    catalog.sort fields = .error fault ↔
      ∃ name, Leftmost (· ∉ catalog) name fields ∧ fault = .unknownField name := by
  have leftmost (name : String) : fields.find? (· ∉ catalog) = some name ↔
      Leftmost (· ∉ catalog) name fields := by
    rw [Leftmost.find?_eq_some_iff]
    simp only [decide_eq_true_eq]
  unfold sort
  cases found : fields.find? (· ∉ catalog) with
  | none =>
    refine ⟨fun impossible => (nomatch impossible), fun ⟨name, first, _⟩ => ?_⟩
    rw [(leftmost name).mpr first] at found
    cases found
  | some name =>
    constructor
    · exact fun same => ⟨name, (leftmost name).mp found, (Except.error.inj same).symm⟩
    · rintro ⟨other, first, rfl⟩
      rw [Option.some.inj (found.symm.trans ((leftmost other).mpr first))]

theorem sort_eq_ok_iff {arranged : List String} :
    catalog.sort fields = .ok arranged ↔
      (∀ name ∈ fields, name ∈ catalog) ∧ arranged = catalog.arrange fields := by
  have listed : fields.find? (· ∉ catalog) = none ↔ ∀ name ∈ fields, name ∈ catalog := by
    simp only [List.find?_eq_none, decide_eq_true_eq, Decidable.not_not]
  rw [← listed]
  unfold sort
  cases fields.find? (· ∉ catalog) with
  | none => exact ⟨fun same => ⟨rfl, (Except.ok.inj same).symm⟩, fun ⟨_, same⟩ => same ▸ rfl⟩
  | some name =>
    exact ⟨fun impossible => (nomatch impossible), fun ⟨impossible, _⟩ => nomatch impossible⟩

/-- Names in another order are sorted into the same list or refused like before, though another
of them may be the leftmost one that is not listed. -/
theorem sort_of_perm (catalog : Catalog) {others : List String} (same : fields.Perm others) :
    (∃ arranged, catalog.sort fields = .ok arranged ∧ catalog.sort others = .ok arranged) ∨
      ∃ name other, catalog.sort fields = .error (.unknownField name) ∧
        catalog.sort others = .error (.unknownField other) := by
  by_cases listed : ∀ name ∈ fields, name ∈ catalog
  · refine .inl ⟨catalog.arrange fields, sort_eq_ok_iff.mpr ⟨listed, rfl⟩,
      sort_eq_ok_iff.mpr ⟨fun name member => ?_, catalog.arrange_perm same⟩⟩
    exact listed name (same.mem_iff.mpr member)
  · simp only [Classical.not_forall, exists_prop] at listed
    obtain ⟨unlisted, member, unknown⟩ := listed
    obtain ⟨name, leftmost⟩ : ∃ name, Leftmost (· ∉ catalog) name fields :=
      Leftmost.exists_of_mem member unknown
    obtain ⟨other, otherLeftmost⟩ : ∃ other, Leftmost (· ∉ catalog) other others :=
      Leftmost.exists_of_mem (same.mem_iff.mp member) unknown
    exact .inr ⟨name, other, sort_eq_error_iff.mpr ⟨name, leftmost, rfl⟩,
      sort_eq_error_iff.mpr ⟨other, otherLeftmost, rfl⟩⟩

end Catalog

end OpcodeTable
