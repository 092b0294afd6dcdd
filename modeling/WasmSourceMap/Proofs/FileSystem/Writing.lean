import WasmSourceMap.Proofs.FileSystem

/-!
# Writing files

A path that was written leads to the file with its content (`openFile_put_of_leadsTo`), and a path
of a file leads where it did (`openFile_put_of_writable`). A path whose last component is no link
leads to a location with the name of this component (`LeadsTo.last`).
-/

namespace WasmSourceMap.FileSystem

/-- A path leads to a location: to the file there, or to where one can be made. -/
def LeadsTo (fs : FileSystem) (path : WideString) (location : Location) : Prop :=
  ∃ place, fs.place path = .ok place ∧ place.target? = some location

/-- Whether the last component of a path is a link in the directory of the others. -/
def isLink (fs : FileSystem) (path : WideString) : Bool :=
  match fs.placeOf path (componentsOf path).dropLast,
    (componentsOf path).getLast?.bind WideString.nameBytes? with
  | .ok (.directory directory), some name => (fs.link? (directory.entry name)).isSome
  | _, _ => false

variable {fs fs' : FileSystem} {path : WideString} {location l : Location} {content old : Bytes}
  {names : List FileName}

/-- A path that does not end with a slash has a name at its end. -/
lemma IsPath.isNamed (h : IsPath path (componentsOf path) names)
    (noSlash : path.points.getLast? ≠ some FilePath.slash) :
    ∃ front component others name, componentsOf path = front ++ [component] ∧
      names = others ++ [name] ∧ front.mapM WideString.nameBytes? = some others ∧
      component.nameBytes? = some name ∧ name ≠ [] := by
  obtain ⟨piece, last, _, whole⟩ := Text.getLast?_splitOn FilePath.slash path.points
  have notEmpty : piece ≠ [] := by
    rintro rfl
    rcases whole with none | ⟨front, ends⟩
    · exact h.notEmpty (congrArg WideString.mk none)
    · exact noSlash (by rw [ends, List.getLast?_concat])
  have isLast : (componentsOf path).getLast? = some ⟨piece⟩ := by
    unfold componentsOf
    rw [List.getLast?_map, last]
    rfl
  obtain ⟨front, split⟩ := List.getLast?_eq_some_iff.1 isLast
  have inNames := h.names
  rw [split] at inNames
  obtain ⟨others, name, isFront, isName, rfl⟩ := mapM_concat inNames
  refine ⟨front, ⟨piece⟩, others, name, split, rfl, isFront, isName, ?_⟩
  rintro rfl
  exact notEmpty (congrArg WideString.points (WideString.eq_empty_of_nameBytes? isName))

lemma IsPath.isNamed_names (h : IsPath path (componentsOf path) names)
    (noSlash : path.points.getLast? ≠ some FilePath.slash) : IsNamed names := by
  obtain ⟨_, _, others, name, _, rfl, _, _, notBlank⟩ := h.isNamed noSlash
  unfold IsNamed
  rw [List.getLast?_concat]
  exact fun blank => notBlank (Option.some.inj blank)

lemma leadsTo_of_openFile (h : fs.openFile path = .ok (location, old)) : fs.LeadsTo path location :=
  ⟨_, place_of_openFile h, rfl⟩

lemma LeadsTo.unique (h : fs.LeadsTo path location) (h' : fs.LeadsTo path l) : l = location := by
  obtain ⟨place, found, leads⟩ := h
  obtain ⟨place', found', leads'⟩ := h'
  cases found.symm.trans found'
  exact Option.some.inj (leads'.symm.trans leads)

lemma LeadsTo.writable (h : fs.LeadsTo path location) : fs.Writable location := by
  obtain ⟨place, found, leads⟩ := h
  obtain ⟨names, _, walks⟩ := placeOf_ok found
  exact walks.writable rfl leads

/-- A path that does not end with a link leads to a location with its last name. -/
lemma LeadsTo.last (h : fs.LeadsTo path location)
    (noSlash : path.points.getLast? ≠ some FilePath.slash) (noLink : fs.isLink path = false) :
    ∃ component name, (componentsOf path).getLast? = some component ∧
      component.nameBytes? = some name ∧ IsEntry name ∧ location.names.getLast? = some name := by
  obtain ⟨place, found, leads⟩ := h
  obtain ⟨names, isPath, walks⟩ := placeOf_ok found
  obtain ⟨front, component, others, name, split, rfl, isFront, isName, notBlank⟩ :=
    isPath.isNamed noSlash
  obtain ⟨directory, isEntry, before, own⟩ := walks.last rfl leads rfl notBlank
  have isLast : (componentsOf path).getLast? = some component := by
    rw [split, List.getLast?_concat]
  have isFront : IsPath path (componentsOf path).dropLast others := by
    rw [split, List.dropLast_concat]
    exact ⟨isPath.short, isFront, isPath.noZero, isPath.notEmpty⟩
  unfold isLink at noLink
  rw [isFront.placeOf_walks before, isLast, Option.bind_some, isName] at noLink
  refine ⟨component, name, isLast, isName, isEntry, ?_⟩
  rw [own (Option.isNone_iff_eq_none.1 (Option.isSome_eq_false_iff.1 noLink))]
  exact List.getLast?_concat

/-- Writing a path puts the content at the location that the path leads to. -/
lemma write_ok (h : fs.write path content = .ok fs') :
    path.points.getLast? ≠ some FilePath.slash ∧
      ∃ location, fs.LeadsTo path location ∧ fs' = fs.put location content := by
  unfold write at h
  split at h
  · cases h
  rename_i noSlash
  refine ⟨noSlash, ?_⟩
  split at h
  · cases h
  · rename_i found
    exact ⟨_, ⟨_, found, rfl⟩, (Except.ok.inj h).symm⟩
  · rename_i found
    exact ⟨_, ⟨_, found, rfl⟩, (Except.ok.inj h).symm⟩
  · cases h

/-- A path that was written leads to the file with its content. -/
lemma openFile_put_of_leadsTo (leads : fs.LeadsTo path location)
    (noSlash : path.points.getLast? ≠ some FilePath.slash) (content : Bytes) :
    (fs.put location content).openFile path = .ok (location, content) := by
  have writable := leads.writable
  obtain ⟨place, found, leads⟩ := leads
  obtain ⟨names, isPath, walks⟩ := placeOf_ok found
  have goal : place.written location content = .file location content := by
    cases place with
    | directory => cases leads
    | file l old =>
      cases leads
      exact congrArg (Place.file _) (if_pos rfl)
    | missing l =>
      cases leads
      exact if_pos rfl
  have walks := walks.put rfl writable (fun _ => isPath.isNamed_names noSlash) content
  rw [goal] at walks
  exact openFile_of_place (isPath.placeOf_walks walks)

/-- What was written is read. -/
lemma read_of_write (written : fs.write path content = .ok fs') : fs'.read path = .ok content := by
  obtain ⟨noSlash, location, leads, rfl⟩ := write_ok written
  unfold read
  rw [openFile_put_of_leadsTo leads noSlash]
  rfl

/-- A path that was written can be written again. -/
lemma write_of_write (written : fs.write path content = .ok fs') (new : Bytes) :
    ∃ fs'', fs'.write path new = .ok fs'' := by
  obtain ⟨noSlash, location, leads, rfl⟩ := write_ok written
  refine ⟨(fs.put location content).put location new, ?_⟩
  unfold write
  rw [if_neg noSlash, place_of_openFile (openFile_put_of_leadsTo leads noSlash content)]

section

variable (h : fs.Same fs')

include h

lemma Same.enter (l : Location) (name : FileName) (rest : List FileName) :
    fs'.enter l name rest = fs.enter l name rest := by
  obtain ⟨directories, more⟩ := Prod.mk.inj h.tree
  obtain ⟨links, current⟩ := Prod.mk.inj more
  unfold FileSystem.enter link? hasDirectory
  simp only [h.content?, directories, links, current]

lemma Same.walk (links : Nat) : fs'.walk links = fs.walk links := by
  have walkWith (follow : Location → SymbolicLink → List FileName → Except FileCause Place) :
      fs'.walkWith follow = fs.walkWith follow := by
    funext place names
    induction names generalizing place with
    | nil => rw [FileSystem.walkWith, FileSystem.walkWith]
    | cons name rest ih =>
      cases place with
      | file | missing => rfl
      | directory l => simp only [FileSystem.walkWith, ih, h.enter]
  induction links with
  | zero => exact walkWith _
  | succ links ih =>
    unfold FileSystem.walk
    rw [walkWith, ih]

/-- If no file has another content, all paths lead where they did. -/
lemma Same.place (path : WideString) : fs'.place path = fs.place path := by
  have current : fs'.current = fs.current := (Prod.mk.inj (Prod.mk.inj h.tree).2).2
  unfold FileSystem.place placeOf startOf
  simp only [h.walk, current]

lemma Same.openFile (path : WideString) : fs'.openFile path = fs.openFile path := by
  unfold FileSystem.openFile
  rw [h.place]

end

end WasmSourceMap.FileSystem
