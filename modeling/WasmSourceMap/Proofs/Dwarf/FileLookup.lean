import WasmSourceMap.Dwarf.LineTable
import WasmSourceMap.Proofs.Results

/-!
# Looking up files

A file of a row is looked up by its number, and then its directory. This fails if the table is
incomplete, and never because data cannot be decoded.
-/

namespace WasmSourceMap.Dwarf.LineTable

lemma directoryPlace_error {t : LineTable} {value : Value} {fault : Fault}
    (h : t.directoryPlace value = .error fault) : fault = .wrongKind ∧ value.toInt? = none := by
  unfold directoryPlace at h
  split at h
  · cases h
  · rename_i other
    cases h
    exact ⟨rfl, other⟩

lemma directoryAt_error {t : LineTable} {place : Int} {fault : Fault}
    (h : t.directoryAt place = .error fault) :
    fault = .wrongKind ∧ t.header.directories = none := by
  unfold directoryAt at h
  split at h
  · cases h
  · split at h
    · rename_i missing
      cases h
      exact ⟨rfl, missing⟩
    · cases h

/-- Why a file cannot be looked up: the table has no files or no directories, or it does not say
which directory the file is in. -/
lemma fileEntry_error {t : LineTable} {index : Nat} {fault : Fault}
    (h : t.fileEntry index = .error fault) :
    fault = .wrongKind ∧ (t.files = none ∨ t.header.directories = none) ∨
      ∃ files file, t.files = some files ∧ file ∈ files ∧
        (fault = .missingField ∧ file.directory = none ∨
          fault = .wrongKind ∧ ∃ value, file.directory = some value ∧ value.toInt? = none) := by
  unfold fileEntry at h
  split at h
  · cases h
  · split at h
    · rename_i missing
      cases h
      exact .inl ⟨rfl, .inl missing⟩
    · rename_i files given
      split at h
      · cases h
      · rename_i file there
        have mem := List.mem_of_getElem? there
        split at h
        · rename_i absent
          cases h
          exact .inr ⟨files, file, given, mem, .inl ⟨rfl, absent⟩⟩
        · rename_i value directory
          rcases Except.bind_error h with unplaced | ⟨place, _, h⟩
          · obtain ⟨rfl, other⟩ := directoryPlace_error unplaced
            exact .inr ⟨files, file, given, mem, .inr ⟨rfl, value, directory, other⟩⟩
          rcases Except.bind_error h with unlisted | ⟨found, _, h⟩
          · obtain ⟨rfl, missing⟩ := directoryAt_error unlisted
            exact .inl ⟨rfl, .inr missing⟩
          · cases h

/-- A file that cannot be looked up is no reason to leave a unit out. -/
lemma fileEntry_lasting {t : LineTable} {index : Nat} {fault : Fault}
    (h : t.fileEntry index = .error fault) : fault.isSkippable = false := by
  rcases fileEntry_error h with ⟨rfl, _⟩ | ⟨_, _, _, _, ⟨rfl, _⟩ | ⟨rfl, _⟩⟩ <;> rfl

end WasmSourceMap.Dwarf.LineTable
