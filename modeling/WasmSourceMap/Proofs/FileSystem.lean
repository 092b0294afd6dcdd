import WasmSourceMap.Proofs.FileSystem.Walks
import WasmSourceMap.Proofs.Text.Wide

/-!
# Files with a new content

What refuses a path does not look at the files, and the place of a path is found by a walk
(`placeOf_ok`). Giving a file another content moves no file: a file that can be opened can be opened
again under the same path, with the content that it got (`openFile_put`), and so can all other files
(`openFile_put_of_writable`).
-/

namespace WasmSourceMap.FileSystem

/-- A path that is looked up, with the names of some of its components. -/
structure IsPath (path : WideString) (components : List WideString) (names : List FileName) :
    Prop where
  short : ∃ bytes, path.nameBytes? = some bytes ∧ ¬ maxPathBytes < bytes.length
  names : components.mapM WideString.nameBytes? = some names
  noZero : .char '\x00' ∉ path.points
  notEmpty : path ≠ ""

section

variable {fs fs' : FileSystem} {path : WideString} {components : List WideString}
  {names : List FileName} {place : Place} {location l : Location} {old content : Bytes}

lemma IsPath.placeOf (h : IsPath path components names) :
    fs.placeOf path components =
      (fs.walk maxLinks (.directory (fs.startOf path)) names).mapError
        fun cause => .refused cause (some path) := by
  obtain ⟨bytes, inBytes, short⟩ := h.short
  unfold FileSystem.placeOf
  dsimp only
  rw [inBytes, h.names]
  dsimp only
  rw [if_neg (mt List.contains_iff_mem.1 h.noZero), if_neg h.notEmpty, if_neg short]
  cases fs.walk maxLinks (.directory (fs.startOf path)) names <;> rfl

/-- A place is found by a walk from the directory that the path starts in. -/
lemma placeOf_ok (h : fs.placeOf path components = .ok place) :
    ∃ names, IsPath path components names ∧
      fs.Walks maxLinks (.directory (fs.startOf path)) names place := by
  unfold placeOf at h
  dsimp only at h
  split at h
  case h_2 => cases h
  rename_i bytes names inBytes inNames
  split at h
  · cases h
  rename_i noZero
  split at h
  · cases h
  rename_i notEmpty
  split at h
  · cases h
  rename_i short
  have isPath : IsPath path components names :=
    ⟨⟨bytes, inBytes, short⟩, inNames, mt List.contains_iff_mem.2 noZero, notEmpty⟩
  split at h
  · rename_i walked
    cases h
    exact ⟨names, isPath, walks_of_walk walked⟩
  · cases h

lemma IsPath.placeOf_walks (h : IsPath path components names)
    (walks : fs.Walks maxLinks (.directory (fs.startOf path)) names place) :
    fs.placeOf path components = .ok place := by
  rw [h.placeOf, walks.walk]
  rfl

lemma place_of_openFile (h : fs.openFile path = .ok (location, old)) :
    fs.place path = .ok (.file location old) := by
  unfold openFile at h
  split at h
  · cases h
  · rename_i found
    cases h
    exact found
  · cases h
  · cases h

lemma openFile_of_place (h : fs.place path = .ok (.file location content)) :
    fs.openFile path = .ok (location, content) := by
  unfold openFile
  rw [h]

/-- A file that can be read can be opened. -/
lemma openFile_of_read (h : fs.read path = .ok old) :
    ∃ location, fs.openFile path = .ok (location, old) := by
  unfold read at h
  cases opened : fs.openFile path with
  | error fault =>
    rw [opened] at h
    cases h
  | ok found =>
    rw [opened] at h
    cases h
    exact ⟨found.1, rfl⟩

/-- A file that can be read exists. -/
lemma pathExists_of_read (h : fs.read path = .ok old) : fs.pathExists path = .ok true := by
  obtain ⟨location, opened⟩ := openFile_of_read h
  unfold pathExists test
  rw [place_of_openFile opened]

lemma content?_of_openFile (h : fs.openFile path = .ok (location, old)) :
    fs.content? location = some old := by
  obtain ⟨names, _, walks⟩ := placeOf_ok (place_of_openFile h)
  exact walks.content? rfl

lemma writable_of_openFile (h : fs.openFile path = .ok (location, old)) : fs.Writable location := by
  refine .inl ?_
  rw [content?_of_openFile h]
  exact Option.some_ne_none _

/-- A path of a file leads where it did after something was written. -/
lemma openFile_put_of_writable (writable : fs.Writable location)
    (h : fs.openFile path = .ok (l, old)) (content : Bytes) :
    (fs.put location content).openFile path = .ok (l, if l = location then content else old) := by
  obtain ⟨names, isPath, walks⟩ := placeOf_ok (place_of_openFile h)
  exact openFile_of_place (isPath.placeOf_walks (walks.put rfl writable nofun content))

/-- A file that can be opened can be opened again after it got another content. -/
theorem openFile_put (h : fs.openFile path = .ok (location, old)) (content : Bytes) :
    (fs.put location content).openFile path = .ok (location, content) := by
  rw [openFile_put_of_writable (writable_of_openFile h) h, if_pos rfl]

/-- What is fixed of a file system: the directories, the links, and the current directory. -/
def tree (fs : FileSystem) : List Location × List (Location × Link) × Location :=
  (fs.directories, fs.links, fs.current)

/-- No file has another content, and the directories and links are the same. -/
structure Same (fs fs' : FileSystem) : Prop where
  content? : ∀ l, fs'.content? l = fs.content? l
  tree : fs'.tree = fs.tree

/-- No file but the one at a location has another content, and the directories and links are the
same. -/
structure SameBut (location : Location) (fs fs' : FileSystem) : Prop where
  content? : ∀ l, l ≠ location → fs'.content? l = fs.content? l
  tree : fs'.tree = fs.tree

lemma same_put (h : fs.content? location = some content) : fs.Same (fs.put location content) := by
  refine ⟨fun l => ?_, rfl⟩
  by_cases here : l = location
  · rw [here, content?_put_self, h]
  · exact content?_put_of_ne here

lemma sameBut_put (content : Bytes) : fs.SameBut location (fs.put location content) :=
  ⟨fun _ other => content?_put_of_ne other, rfl⟩

lemma Same.sameBut (h : fs.Same fs') : fs.SameBut location fs' := ⟨fun l _ => h.content? l, h.tree⟩

lemma SameBut.trans {fs'' : FileSystem} (h : fs.SameBut location fs')
    (h' : fs'.SameBut location fs'') : fs.SameBut location fs'' :=
  ⟨fun l other => (h'.content? l other).trans (h.content? l other), h'.tree.trans h.tree⟩

/-- Nothing was written, or the file got the content that it has. -/
inductive Rewritten (fs : FileSystem) (location : Location) (content : Bytes) :
    FileSystem → Prop where
  | kept : Rewritten fs location content fs
  | put {new : Bytes} (same : new = content) : Rewritten fs location content (fs.put location new)

lemma Rewritten.same (h : fs.Rewritten location content fs')
    (inFile : fs.openFile path = .ok (location, content)) : fs.Same fs' := by
  cases h with
  | kept => exact ⟨fun _ => rfl, rfl⟩
  | put same =>
    rw [same]
    exact same_put (content?_of_openFile inFile)

lemma Rewritten.openFile (h : fs.Rewritten location content fs')
    (inFile : fs.openFile path = .ok (location, content)) :
    fs'.openFile path = .ok (location, content) := by
  cases h with
  | kept => exact inFile
  | put same =>
    rw [same]
    exact openFile_put inFile content

end

section

variable {fs : FileSystem} {path : WideString} {fault : FileFault}

/-- The components of a path that has bytes have bytes. -/
lemma exists_names (inBytes : path.nameBytes?.isSome = true) :
    ∃ names, (componentsOf path).mapM WideString.nameBytes? = some names := by
  rw [← Option.isSome_iff_exists, isSome_mapM, List.all_eq_true]
  intro component mem
  obtain ⟨piece, inPath, rfl⟩ := List.mem_map.1 mem
  exact WideString.isSome_nameBytes?_of_subset
    (fun _ h => (Text.mem_of_mem_splitOn inPath h).1) inBytes

lemma refused_of_place (h : fs.place path = .error fault) (inBytes : path.nameBytes?.isSome = true)
    (noZero : .char '\x00' ∉ path.points) : ∃ cause, fault = .refused cause (some path) := by
  obtain ⟨bytes, inBytes'⟩ := Option.isSome_iff_exists.1 inBytes
  obtain ⟨names, inNames⟩ := exists_names inBytes
  unfold place placeOf at h
  dsimp only at h
  rw [inBytes', inNames] at h
  dsimp only at h
  rw [if_neg (mt List.contains_iff_mem.1 noZero)] at h
  split at h
  · cases h
    exact ⟨_, rfl⟩
  split at h
  · cases h
    exact ⟨_, rfl⟩
  split at h
  · cases h
  · cases h
    exact ⟨_, rfl⟩

/-- The system refuses a path that leads to no file. A path with a zero character or a surrogate
without a byte is none at all. -/
lemma refused_of_openFile (h : fs.openFile path = .error fault)
    (inBytes : path.nameBytes?.isSome = true) (noZero : .char '\x00' ∉ path.points) :
    ∃ cause, fault = .refused cause (some path) := by
  unfold openFile at h
  split at h
  · rename_i found
    cases h
    exact refused_of_place found inBytes noZero
  · cases h
  · cases h
    exact ⟨_, rfl⟩
  · cases h
    exact ⟨_, rfl⟩

end

end WasmSourceMap.FileSystem
