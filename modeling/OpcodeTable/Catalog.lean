/-
This file holds field catalogs. A catalog lists the fields that records may have, each once,
and its order is the order of the fields in every record. That no name stands twice is part of
the type: it makes ranks injective, and so a list of names has only one order by rank.
-/

import OpcodeTable.Fault
import OpcodeTable.Text.Lines
import OpcodeTable.Text.Space

namespace OpcodeTable

open Text

/-- The field names in the order of their ranks. -/
structure Catalog where
  names : List String
  distinct : names.Nodup

/-- A name that a catalog lists twice. -/
structure RepeatedField where
  name : String
  deriving DecidableEq, Repr

/-- The wording of a refused catalog. -/
def RepeatedField.message (repeated : RepeatedField) : String :=
  "field '" ++ repeated.name ++ "' listed twice in catalog"

namespace Catalog

/-! ### Building -/

/-- The first name that stands among the names seen or the names before it. -/
def firstRepeat? (seen : List String) : List String → Option String
  | [] => none
  | name :: later => if name ∈ seen then some name else firstRepeat? (name :: seen) later

theorem nodup_of_firstRepeat?_eq_none {names : List String} :
    ∀ {seen : List String}, firstRepeat? seen names = none →
      names.Nodup ∧ ∀ name ∈ names, name ∉ seen := by
  induction names with
  | nil => exact fun _ => ⟨List.nodup_nil, fun _ member => nomatch member⟩
  | cons name later inductionHypothesis =>
    intro seen none
    rw [firstRepeat?] at none
    split at none
    · exact nomatch none
    · next fresh =>
      have ⟨distinct, unseen⟩ := inductionHypothesis none
      refine ⟨List.nodup_cons.mpr
        ⟨fun member => unseen name member List.mem_cons_self, distinct⟩, fun other member => ?_⟩
      rcases List.mem_cons.mp member with rfl | member
      · exact fresh
      · exact fun inSeen => unseen other member (List.mem_cons_of_mem _ inSeen)

/-- The catalog of the given names, in their order. -/
def ofNames (names : List String) : Except RepeatedField Catalog :=
  match found : firstRepeat? [] names with
  | some name => .error ⟨name⟩
  | none => .ok ⟨names, (nodup_of_firstRepeat?_eq_none found).1⟩

/-- What a line of a catalog file names: the text before a hash sign, without the space around
it. -/
def entry (line : String) : List Char := trim (line.toList.takeWhile (· ≠ '#'))

/-- Read a catalog file: one name per line, lines without a name passed over. -/
def parse (text : String) : Except RepeatedField Catalog :=
  ofNames ((((lines text).map entry).filter (!·.isEmpty)).map String.ofList)

/-- The catalog of the RISC-V instruction tables. -/
def riscv : Catalog where
  names :=
    ["rd", "rd_p", "rd_n0", "rd_n2", "rd_rs1", "rd_rs1_p", "rd_rs1_n0",
      "rs1", "rs1_n0", "rs1_p", "c_rs1_n0",
      "rs2", "rs2_p", "c_rs2", "c_rs2_n0",
      "imm20", "jimm20", "imm12", "csr", "imm12hilo", "bimm12hilo",
      "c_bimm9hilo", "c_imm12", "c_imm6hilo", "c_nzimm10hilo", "c_nzimm18hilo", "c_nzimm6hilo",
      "c_nzuimm6hilo", "c_nzuimm10", "c_uimm7hilo", "c_uimm8hilo", "c_uimm8sp_s", "c_uimm9sp_s",
      "c_uimm8sphilo", "c_uimm9sphilo",
      "shamtd", "shamtw",
      "fm", "pred", "succ",
      "aq", "rl",
      "zimm"]
  distinct := by decide

/-! ### Ranks -/

/-- The place of a name in the order. -/
def rank? (catalog : Catalog) (name : String) : Option Nat := catalog.names.idxOf? name

instance : Membership String Catalog := ⟨fun catalog name => name ∈ catalog.names⟩

instance (name : String) (catalog : Catalog) : Decidable (name ∈ catalog) :=
  inferInstanceAs (Decidable (name ∈ catalog.names))

/-- The names of the catalog, each as often as it stands among the fields. -/
def arrange (catalog : Catalog) (fields : List String) : List String :=
  catalog.names.flatMap fun name => List.replicate (fields.count name) name

/-- Put fields into the order of their ranks. The first one that the catalog does not list is
the fault. -/
def sort (catalog : Catalog) (fields : List String) : Except Fault (List String) :=
  match fields.find? (· ∉ catalog) with
  | some name => .error (.unknownField name)
  | none => .ok (catalog.arrange fields)

/-- The fields, each with its rank, when all of them have one. -/
def rankAll? (catalog : Catalog) (fields : List String) : Option (List (Nat × String)) :=
  fields.mapM fun name => (catalog.rank? name).map (·, name)

/-- Whether the rank of the first is at most that of the second. -/
def atMost (first second : Nat × String) : Bool := first.1 ≤ second.1

/-- The fields by their ranks, those of one rank in the order in which they stood. There is no
result when the rank of a field is looked up that has none. -/
def sortByRank? (catalog : Catalog) (fields : List String) : Option (List String) :=
  (catalog.rankAll? fields).map fun keyed => (keyed.mergeSort atMost).map (·.2)

/-- Hold the fields by their ranks. The first one that the catalog does not list is the fault; no
rank is looked up then, and what was held stays. -/
def hold (catalog : Catalog) (fields : List String) :
    ExceptT Fault (StateT (List String) Option) Unit :=
  match fields.find? (· ∉ catalog) with
  | some name => throw (.unknownField name)
  | none => do set (← catalog.sortByRank? fields)

/-- Sort the fields in the place where they are held. -/
def sortInPlace (catalog : Catalog) : ExceptT Fault (StateT (List String) Option) Unit := do
  catalog.hold (← get)

/-- A field that the catalog lists is arranged as often as it stands, and no other field is. -/
theorem count_arrange (catalog : Catalog) (fields : List String) (name : String) :
    (catalog.arrange fields).count name = if name ∈ catalog then fields.count name else 0 := by
  have general : ∀ names : List String, names.Nodup →
      (names.flatMap fun other => List.replicate (fields.count other) other).count name =
        if name ∈ names then fields.count name else 0 := by
    intro names distinct
    induction names with
    | nil => rfl
    | cons first rest inductionHypothesis =>
      have ⟨fresh, distinct⟩ := List.nodup_cons.mp distinct
      rw [List.flatMap_cons, List.count_append, List.count_replicate,
        inductionHypothesis distinct]
      by_cases same : first = name
      · subst same
        simp [fresh]
      · simp [same, Ne.symm same]
  exact general catalog.names catalog.distinct

end Catalog

end OpcodeTable
