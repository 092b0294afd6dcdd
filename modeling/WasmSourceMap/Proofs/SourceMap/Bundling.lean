import WasmSourceMap.Proofs.FileSystem
import WasmSourceMap.Proofs.Results
import WasmSourceMap.Proofs.SourceMap.Segments
import WasmSourceMap.Proofs.SourceMap.Text

/-!
# Contents of sources

With a bundle a source map holds the text of each of its sources. The contents are read from the
paths as the points have them, before a library is taken off, so they belong to the different
paths in the order of first appearance (`paths_segments`). A file that the system does not let be
read has no content, whatever the cause. The one path that is not given to the system at all is a
path with a zero character: a table with such a path has a source map without a bundle and none
with it.
-/

namespace WasmSourceMap

namespace Text

variable {α : Type}

lemma mem_joinWith_of_mem (sep : α) {c : α} {piece : List α} {pieces : List (List α)}
    (mem : piece ∈ pieces) (h : c ∈ piece) : c ∈ joinWith sep pieces := by
  induction pieces with
  | nil => cases mem
  | cons first rest ih =>
    cases rest with
    | nil =>
      obtain rfl := List.mem_singleton.1 mem
      exact h
    | cons next more =>
      rw [joinWith]
      rcases List.mem_cons.1 mem with rfl | mem
      · exact List.mem_append_left _ h
      · exact List.mem_append_right _ (List.mem_cons_of_mem sep (ih mem))

/-- What is no separator is in a text if it is in a piece of it. -/
lemma mem_iff_splitOn [DecidableEq α] {sep c : α} (other : c ≠ sep) (cs : List α) :
    c ∈ cs ↔ ∃ piece ∈ splitOn sep cs, c ∈ piece := by
  constructor
  · intro h
    rw [← joinWith_splitOn sep cs] at h
    exact (mem_joinWith h).resolve_left other
  · rintro ⟨piece, mem, h⟩
    exact (mem_of_mem_splitOn mem h).1

end Text

namespace FilePath

variable {point : CodePoint}

/-- The text of a path has nothing but its components, slashes and a dot. -/
lemma mem_toString (noSlash : point ≠ slash) (noDot : point ≠ .char '.') (p : FilePath) :
    point ∈ p.toString.points ↔ ∃ component ∈ p.components, point ∈ component.points := by
  unfold toString
  split
  · rename_i empty
    rw [empty.2]
    exact ⟨fun mem => absurd (List.mem_singleton.1 mem) noDot, fun ⟨_, mem, _⟩ => nomatch mem⟩
  · rw [List.mem_append]
    constructor
    · rintro (front | inside)
      · exact absurd (List.eq_of_mem_replicate front) noSlash
      · obtain ⟨piece, joined, h⟩ := (Text.mem_joinWith inside).resolve_left noSlash
        obtain ⟨component, mem, rfl⟩ := List.mem_map.1 joined
        exact ⟨component, mem, h⟩
    · rintro ⟨component, mem, h⟩
      exact .inr (Text.mem_joinWith_of_mem slash (List.mem_map.2 ⟨component, mem, rfl⟩) h)

/-- What a text has apart from slashes and dots, its path has. -/
lemma mem_toString_ofString (noSlash : point ≠ slash) (noDot : point ≠ .char '.')
    (text : WideString) : point ∈ (ofString text).toString.points ↔ point ∈ text.points := by
  rw [mem_toString noSlash noDot, Text.mem_iff_splitOn noSlash]
  constructor
  · rintro ⟨component, known, h⟩
    obtain ⟨piece, mem, rfl⟩ := List.mem_map.1 known
    exact ⟨piece, (List.mem_filter.1 mem).1, h⟩
  · rintro ⟨piece, mem, h⟩
    refine ⟨⟨piece⟩, List.mem_map.2 ⟨piece, List.mem_filter.2 ⟨mem, ?_⟩, rfl⟩, h⟩
    -- A piece with such a code point is neither empty nor a lone dot.
    unfold counts
    rw [Bool.and_eq_true, bne_iff_ne, bne_iff_ne]
    constructor <;> rintro rfl
    · cases h
    · exact noDot (List.mem_singleton.1 h)

/-- A path has bytes if its text has. -/
lemma isSome_nameBytes?_toString {text : WideString} (inBytes : text.nameBytes?.isSome = true) :
    (ofString text).toString.nameBytes?.isSome = true := by
  rw [WideString.isSome_nameBytes?, List.all_eq_true] at inBytes ⊢
  intro point mem
  by_cases isSlash : point = slash
  · rw [isSlash]
    rfl
  by_cases isDot : point = .char '.'
  · rw [isDot]
    rfl
  · exact inBytes point ((mem_toString_ofString isSlash isDot text).1 mem)

end FilePath

namespace SourceTable

/-- The table has the new ones of the paths behind those that it had, each once. -/
lemma paths_addAll (t : SourceTable) (paths : List String) :
    (t.addAll paths).paths = t.paths ++ (paths.filter (· ∉ t.paths)).eraseDups := by
  induction paths generalizing t with
  | nil => exact (List.append_nil _).symm
  | cons path rest ih =>
    rw [addAll_cons]
    by_cases h : path ∈ t.paths
    · rw [(t.add_of_mem path h).2, ih, List.filter_cons_of_neg (by simpa using h)]
    · have later : (rest.filter (· ∉ t.paths ++ [path])) =
          rest.filter fun other => !other == path && decide (other ∉ t.paths) := by
        apply List.filter_congr
        intro other _
        simp [and_comm, ← Bool.beq_eq_decide_eq]
      rw [ih, t.add_of_not_mem path h, List.filter_cons_of_pos (by simpa using h),
        List.eraseDups_cons, List.filter_filter, List.append_assoc, later]
      rfl

end SourceTable

/-- The different paths of the points with a source, in the order of first appearance. -/
def PositionTable.sourcePaths (t : PositionTable) : List String :=
  ((t.points.filter Point.hasSource).filterMap Point.source).eraseDups

namespace SourceMap

variable {fs : FileSystem} {t : PositionTable}

/-- The content of a source: the text of the file of its path if it can be read, with a replacement
for bytes that have no meaning, and nothing in every other case. -/
def ContentOf (fs : FileSystem) (path : String) (content : Option String) : Prop :=
  ∀ text, content = some text ↔ ∃ data, fs.read (FilePath.ofString path).toString = .ok data ∧
    text = Text.Utf8.decode data

lemma map_fst_sourced {points : List Point}
    (paths : ∀ p ∈ points, p.hasSource = true → p.source.isSome = true) :
    (points.filterMap sourced).map Prod.fst =
      (points.filter Point.hasSource).filterMap Point.source := by
  have found := source_of_mem_sourced paths
  rw [← map_snd_sourced, List.filterMap_map]
  generalize points.filterMap sourced = known at found
  induction known with
  | nil => rfl
  | cons q rest ih =>
    obtain ⟨here, later⟩ := List.forall_mem_cons.1 found
    rw [List.map_cons, ih later]
    exact (List.filterMap_cons_some (f := Point.source ∘ Prod.snd) here).symm

/-- The sources of a table, before libraries are taken off, are its different paths. -/
lemma paths_segments (paths : ∀ p ∈ t.points, p.hasSource = true → p.source.isSome = true) :
    (segments t).2.paths = t.sourcePaths := by
  rw [segments, sources_segmentsFrom, map_fst_sourced paths, SourceTable.paths_addAll]
  show [] ++ (List.filter _ _).eraseDups = _
  rw [List.nil_append, List.filter_eq_self.2 (by simp)]
  rfl

/-- A zero character in a text is one in its path. -/
lemma zero_mem_toString (path : String) :
    .char '\x00' ∈ (FilePath.ofString path).toString.points ↔ '\x00' ∈ path.toList := by
  rw [FilePath.mem_toString_ofString (by decide) (by decide)]
  constructor
  · intro mem
    obtain ⟨c, h, same⟩ := List.mem_map.1 mem
    rwa [← CodePoint.char.inj same]
  · exact fun mem => List.mem_map_of_mem mem

lemma read_of_zero {path : WideString} (inBytes : path.nameBytes?.isSome = true)
    (zero : .char '\x00' ∈ path.points) : fs.read path = .error .zeroInPath := by
  obtain ⟨names, inNames⟩ := FileSystem.exists_names inBytes
  obtain ⟨bytes, inBytes⟩ := Option.isSome_iff_exists.1 inBytes
  have refused : fs.place path = .error .zeroInPath := by
    unfold FileSystem.place FileSystem.placeOf
    dsimp only
    rw [inBytes, inNames]
    exact if_pos (List.contains_iff_mem.2 zero)
  unfold FileSystem.read FileSystem.openFile
  rw [refused]
  rfl

lemma readSource_of_zero {path : String} (zero : '\x00' ∈ path.toList) :
    readSource fs path = .error .zeroInPath := by
  have inBytes := FilePath.isSome_nameBytes?_toString (WideString.isSome_nameBytes?_ofString path)
  unfold readSource
  rw [read_of_zero inBytes ((zero_mem_toString path).2 zero)]

/-- Whatever the system answers for a path without a zero character is a content or none. -/
lemma readSource_of_noZero {path : String} (noZero : '\x00' ∉ path.toList) :
    ∃ content, readSource fs path = .ok content ∧ ContentOf fs path content := by
  have inBytes := FilePath.isSome_nameBytes?_toString (WideString.isSome_nameBytes?_ofString path)
  unfold readSource ContentOf
  cases answer : fs.read (FilePath.ofString path).toString with
  | ok data =>
    refine ⟨_, rfl, fun text => ?_⟩
    constructor
    · intro same
      exact ⟨data, rfl, (Option.some.inj same).symm⟩
    · rintro ⟨_, same, rfl⟩
      rw [Except.ok.inj same]
  | error fault =>
    obtain ⟨cause, rfl⟩ := FileSystem.refused_of_openFile (Except.error_of_map answer) inBytes
      (mt (zero_mem_toString path).1 noZero)
    exact ⟨none, rfl, fun text => ⟨nofun, nofun⟩⟩

lemma zeroInPath_of_readSource {path : String} {fault : EncodeFault}
    (h : readSource fs path = .error fault) : fault = .zeroInPath := by
  by_cases zero : '\x00' ∈ path.toList
  · rw [readSource_of_zero zero] at h
    exact (Except.error.inj h).symm
  · obtain ⟨content, read, _⟩ : ∃ content, readSource fs path = .ok content ∧
        ContentOf fs path content := readSource_of_noZero zero
    cases read.symm.trans h

/-- With a bundle a table is encoded as without one, and then the contents are read. -/
lemma encode_bundle {file : Option String} {m : SourceMap}
    (encoded : encode fs false file t = .ok m) :
    encode fs true file t = ((segments t).2.paths.mapM (readSource fs)).map fun contents =>
      { m with sourcesContent := some contents } := by
  unfold encode at encoded ⊢
  split at encoded
  · cases encoded
  · rename_i complete
    cases encoded
    rw [if_neg complete]
    dsimp only [bundle]
    rw [if_pos rfl]
    cases (segments t).2.paths.mapM (readSource fs) <;> rfl

/-- A bundle does not change a source map but for the contents, one for each source, if no path
has a zero character. If some path has one, there is no bundle. -/
theorem encode_bundled (fs : FileSystem) (file : Option String)
    (paths : ∀ p ∈ t.points, p.hasSource = true → p.source.isSome = true) :
    ∃ m, encode fs false file t = .ok m ∧
      m.sources = t.sourcePaths.map SourcePath.stripLibrary ∧ m.sourcesContent = none ∧
      ((∀ path ∈ t.sourcePaths, '\x00' ∉ path.toList) →
        ∃ contents, encode fs true file t = .ok { m with sourcesContent := some contents } ∧
          List.Forall₂ (ContentOf fs) t.sourcePaths contents) ∧
      ((∃ path ∈ t.sourcePaths, '\x00' ∈ path.toList) →
        encode fs true file t = .error .zeroInPath) := by
  have encoded := encode_of_sourced fs file paths
  have bundled := encode_bundle encoded
  rw [paths_segments paths] at encoded bundled
  refine ⟨_, encoded, rfl, rfl, fun noZero => ?_, fun ⟨path, mem, zero⟩ => ?_⟩
  · have each : ∀ path ∈ t.sourcePaths, ∃ content,
        readSource fs path = .ok content ∧ ContentOf fs path content :=
      fun path mem => readSource_of_noZero (noZero path mem)
    obtain ⟨contents, read, known⟩ := Except.exists_mapM_ok each
    rw [read] at bundled
    exact ⟨contents, bundled, known⟩
  · rw [bundled]
    cases read : t.sourcePaths.mapM (readSource fs) with
    | ok contents =>
      obtain ⟨content, here⟩ := Except.ok_of_mem_mapM read mem
      cases (readSource_of_zero zero).symm.trans here
    | error fault =>
      obtain ⟨other, _, failed⟩ := Except.mapM_error read
      rw [zeroInPath_of_readSource failed]
      rfl

/-- A file of a library with a byte of no meaning, and a directory. -/
def bundledFiles : FileSystem where
  files := [(.of ["std:a.c"], [0x68, 0xff])]
  directories := [.of ["d"]]

/-- Points in the file, in the directory and in what is not there or cannot be. -/
def bundledPoints : List Point :=
  [⟨some "std:a.c", 0, 1, 1, false⟩, ⟨some "d", 1, 1, 1, false⟩, ⟨some "", 2, 1, 1, false⟩,
    ⟨none, 3, 0, 0, false⟩, ⟨some "std:a.c", 4, 2, 1, false⟩, ⟨some "gone.c", 5, 1, 1, false⟩,
    ⟨some "std:a.c/b", 6, 1, 1, true⟩]

/-- The content of the file is found under its whole path and is shown under its name; the others
have none. -/
theorem encode_bundled_unreadable :
    (∀ p ∈ (PositionTable.ofList bundledPoints).points,
      p.hasSource = true → p.source.isSome = true) ∧
    ∃ m contents, encode bundledFiles false none (.ofList bundledPoints) = .ok m ∧
      m.sources.head? = some "a.c" ∧
      encode bundledFiles true none (.ofList bundledPoints) =
        .ok { m with sourcesContent := some contents } ∧
      contents = [some "h\uFFFD", none, none, none, none] ∧
      List.Forall₂ (ContentOf bundledFiles) (PositionTable.ofList bundledPoints).sourcePaths
        contents := by
  have paths : ∀ p ∈ (PositionTable.ofList bundledPoints).points,
      p.hasSource = true → p.source.isSome = true := by decide +kernel
  obtain ⟨m, encoded, sources, _, bundled, _⟩ := encode_bundled bundledFiles none paths
  have noZero : ∀ path ∈ (PositionTable.ofList bundledPoints).sourcePaths,
      '\x00' ∉ path.toList := by decide +kernel
  obtain ⟨contents, encoded', known⟩ := bundled noZero
  have first : ((PositionTable.ofList bundledPoints).sourcePaths.map
      SourcePath.stripLibrary).head? = some "a.c" := by decide +kernel
  have all : (encode bundledFiles true none (.ofList bundledPoints)).map (·.sourcesContent) =
      .ok (some [some "h\uFFFD", none, none, none, none]) := by decide +kernel
  rw [encoded'] at all
  exact ⟨paths, m, contents, encoded, sources ▸ first, encoded',
    Option.some.inj (Except.ok.inj all), known⟩

/-- A table with a path that has a zero character is encoded without a bundle only. -/
theorem encode_zeroInPath :
    let t := PositionTable.ofList [⟨some "a\x00.c", 1, 1, 1, false⟩]
    (∀ p ∈ t.points, p.hasSource = true → p.source.isSome = true) ∧
      (encode .empty false none t).map (·.sources) = .ok ["a\x00.c"] ∧
      encode .empty true none t = .error .zeroInPath := by
  decide +kernel

end SourceMap

end WasmSourceMap
