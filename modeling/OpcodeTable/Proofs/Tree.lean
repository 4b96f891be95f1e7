/-
This file says what opening a name for writing and filling it do to the tree of files: of all the
places only the one that the name leads to can change, and if a file stands there, or nothing does,
then the file that stands there afterwards holds what was put into it, whatever it held before.
-/

import OpcodeTable.Command.Files
import OpcodeTable.Proofs.Sequence

namespace OpcodeTable

open Text

namespace Files

variable {files opened : Files} {place other : Place} {name : String} {content old : Bytes}

/-! ### One place -/

/-- What is put at a place other than the root stands there. -/
theorem node?_set (files : Files) (below : place ≠ []) (node : Node) :
    (files.set place node).node? place = some node := by
  unfold node? set
  rw [if_neg below, List.lookup_cons_self]

theorem node?_set_of_ne (files : Files) (apart : other ≠ place) (node : Node) :
    (files.set place node).node? other = files.node? other := by
  unfold node? set
  have differ : (other == place) = false := beq_false_of_ne apart
  simp only [List.lookup_cons, differ]

/-- At the root stands a directory and nothing else. -/
theorem ne_nil_of_node?
    (ordinary : ∀ node, files.node? place = some node → ∃ old, node = .file old) :
    place ≠ [] := by
  rintro rfl
  obtain ⟨_, impossible⟩ := ordinary .directory (if_pos rfl)
  cases impossible

/-- A file holds what it is filled with. -/
theorem node?_fill (file : files.node? place = some (.file old)) (content : Bytes) :
    (files.fill place content).node? place = some (.file content) := by
  have below : place ≠ [] := ne_nil_of_node? fun node stands =>
    ⟨old, Option.some.inj (stands.symm.trans file)⟩
  unfold fill
  rw [file]
  exact node?_set files below _

theorem node?_fill_of_ne (files : Files) (apart : other ≠ place) (content : Bytes) :
    (files.fill place content).node? other = files.node? other := by
  unfold fill
  split
  · exact node?_set_of_ne files apart _
  · rfl

theorem workingDirectory_fill (files : Files) (place : Place) (content : Bytes) :
    (files.fill place content).workingDirectory = files.workingDirectory := by
  unfold fill
  split <;> rfl

/-! ### Opening -/

/-- What can become of the tree when a place is opened for writing: something comes into being
where nothing stood, or what stands there is emptied. -/
theorem openAt_cases (done : files.openAt place = .ok opened) :
    (files.node? place = none ∧ opened = files.set place (.file [])) ∨
      ((∃ node, files.node? place = some node) ∧ opened = files.fill place []) := by
  unfold openAt at done
  split at done
  · next free =>
    unfold make at done
    split at done
    · cases done
    · exact .inl ⟨free, (Except.ok.inj done).symm⟩
  · next node stands =>
    split at done
    · cases done
    · exact .inr ⟨⟨node, stands⟩, (Except.ok.inj done).symm⟩

theorem node?_openAt_of_ne (done : files.openAt place = .ok opened) (apart : other ≠ place) :
    opened.node? other = files.node? other := by
  rcases openAt_cases done with ⟨_, rfl⟩ | ⟨_, rfl⟩
  · exact node?_set_of_ne files apart _
  · exact node?_fill_of_ne files apart _

theorem workingDirectory_openAt (done : files.openAt place = .ok opened) :
    opened.workingDirectory = files.workingDirectory := by
  rcases openAt_cases done with ⟨_, rfl⟩ | ⟨_, rfl⟩
  · rfl
  · exact workingDirectory_fill ..

/-- An ordinary file is empty when it is open, and so is one that comes into being. -/
theorem node?_openAt (done : files.openAt place = .ok opened)
    (ordinary : ∀ node, files.node? place = some node → ∃ old, node = .file old) :
    opened.node? place = some (.file []) := by
  rcases openAt_cases done with ⟨free, rfl⟩ | ⟨⟨node, stands⟩, rfl⟩
  · exact node?_set files (ne_nil_of_node? ordinary) _
  · obtain ⟨old, rfl⟩ := ordinary node stands
    exact node?_fill stands []

/-- A name is opened where it leads. -/
theorem create_eq_ok_iff :
    files.create name = .ok (opened, place) ↔
      endsInSlash name = false ∧ files.locate name (steps name) = .ok place ∧
        files.openAt place = .ok opened := by
  unfold create
  split
  · next slash =>
    rw [slash]
    refine iff_of_false (fun done => ?_) fun ⟨noSlash, _⟩ => nomatch noSlash
    obtain ⟨_, _, impossible⟩ := bind_eq_ok_iff.mp done
    cases impossible
  · next noSlash =>
    rw [Bool.eq_false_iff.mpr noSlash]
    constructor
    · intro done
      obtain ⟨place, found, done⟩ := bind_eq_ok_iff.mp done
      obtain ⟨opened, ready, done⟩ := bind_eq_ok_iff.mp done
      cases done
      exact ⟨rfl, found, ready⟩
    · intro ⟨_, found, ready⟩
      rw [found]
      exact congrArg (·.map fun opened => (opened, place)) ready

end Files

end OpcodeTable
