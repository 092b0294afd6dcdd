import WasmSourceMap.Patcher
import WasmSourceMap.Proofs.Container.Appending
import WasmSourceMap.Proofs.FileSystem
import WasmSourceMap.Proofs.Results

/-!
# Patching one file over many sessions

Sessions about a file are started and patch it, in any order. The invariant (`Holds`) is that the
file holds the base, or the base and one section of the name of the patcher, and that a session that
is open knows how long this section is. One step keeps it (`Step.run_holds`), so a run of steps does
(`run_holds`); and what a patch leaves does not depend on what came before it (`patch_ok`).
-/

namespace WasmSourceMap

open Container (Module Section CustomSection relocationMark oneBody)

namespace Container.Module

variable {base : Bytes} {m : Module} {c : CustomSection} {name : String}

lemma eight_le_of_parse (h : parse base = .ok m) : 8 ≤ base.length := by
  obtain ⟨_, _, _, _, _, h₁, _⟩ := parse_ok h
  exact (Reader.demand_done h₁).1

lemma isNamed_placed (named : c.name = name) (start : Nat) :
    (c.placed start).isNamed name = true := by
  rw [Section.isNamed, Bool.and_eq_true]
  exact ⟨rfl, beq_iff_eq.2 named⟩

/-- The only section of a name is found. -/
lemma sectionNamed_append_self (fresh : m.sectionNamed name = none) (named : c.name = name) :
    (m.append c).sectionNamed name = some (c.placed m.data.length) := by
  unfold sectionNamed append at *
  rw [List.find?_append, fresh, Option.none_or]
  exact List.find?_cons_of_pos (isNamed_placed named _)

lemma filter_append_self (fresh : m.sectionNamed name = none) (named : c.name = name) :
    (m.append c).sections.filter (Section.isNamed name) = [c.placed m.data.length] := by
  have noOther : m.sections.filter (Section.isNamed name) = [] :=
    List.filter_eq_nil_iff.2 (List.find?_eq_none.1 fresh)
  unfold append
  rw [List.filter_append, noOther, List.nil_append]
  exact List.filter_cons_of_pos (isNamed_placed named _)

end Container.Module

namespace Patcher

/-- What can be done with a file: a session about it is started, or the session that is open patches
it. -/
inductive Step where
  | opening
  | patching (url : String)

/-- The session that is open, if there is one, and the files. -/
structure Sessions where
  patcher : Option Patcher
  files : FileSystem

/-- Do a step with the file of a path. -/
def Step.run (path : WideString) (name : String) (s : Sessions) : Step → Except Fault Sessions
  | .opening => do
    let (patcher, _) ← openFile s.files path (some name)
    return { s with patcher }
  | .patching url =>
    match s.patcher with
    | none => .error .notFromFile
    | some patcher => do
      let patched := patcher.patch s.files url none
      let after ← patched.result
      return { patcher := after, files := patched.files }

/-- Do some steps one after the other. -/
def run (path : WideString) (name : String) (s : Sessions) (steps : List Step) :
    Except Fault Sessions :=
  steps.foldlM (Step.run path name) s

/-- The bytes of a section that may not be there. -/
def tailBytes : Option CustomSection → Bytes
  | none => []
  | some c => c.bytes

/-- What a session knows of the section at the end of its file. -/
def known (path : WideString) (name : String) (tail : Option CustomSection) : Patcher where
  path := .ofString path
  appendedLength := tail.map fun c => c.bytes.length
  sectionName := some name

/-- The file holds the base and a section of the name, if any, and the session that is open knows
the section. -/
def Holds (path : WideString) (name : String) (base : Bytes) (s : Sessions) : Prop :=
  ∃ (tail : Option CustomSection) (location : Location),
    (∀ c ∈ tail, c.name = name) ∧
    s.files.openFile (FilePath.ofString path).toString = .ok (location, base ++ tailBytes tail) ∧
    ∀ p ∈ s.patcher, p = known path name tail

section

variable {path : WideString} {name : String} {base : Bytes} {m : Module} {fs : FileSystem}
  {location : Location}
  {tail : Option CustomSection}

lemma ofModule_base (fresh : m.sectionNamed name = none) :
    ofModule m (.ofString path) path (some name) = (known path name none, []) := by
  unfold ofModule
  rw [Option.bind_some, fresh]
  rfl

lemma ofModule_append {c : CustomSection} (fresh : m.sectionNamed name = none)
    (named : c.name = name) :
    ofModule (m.append c) (.ofString path) path (some name) = (known path name (some c), []) := by
  have last : (m.append c).sections.getLast? = some (c.placed m.data.length) :=
    List.getLast?_concat
  unfold ofModule
  rw [Option.bind_some, Module.sectionNamed_append_self fresh named]
  dsimp only
  rw [if_pos last, c.totalSize_placed]
  rfl

lemma openFile_of_parse {data : Bytes} (read : fs.read (FilePath.ofString path).toString = .ok data)
    (parsed : Module.parse data = .ok m) :
    openFile fs path (some name) = .ok (ofModule m (.ofString path) path (some name)) := by
  have opened : openFile fs path (some name) = ((Module.parse data).mapError Fault.container >>=
      fun m => pure (ofModule m (.ofString path) path (some name))) := by
    unfold openFile
    dsimp only
    rw [read]
    rfl
  rw [opened, parsed]
  rfl

/-- A session that is started knows the section at the end of the file. -/
lemma openFile_ok (parsed : Module.parse base = .ok m) (fresh : m.sectionNamed name = none)
    (notLinking : name ≠ "linking") (notRelocation : ¬relocationMark.toList <+: name.toList)
    (named : ∀ c ∈ tail, c.name = name)
    (inFile : fs.openFile (FilePath.ofString path).toString =
      .ok (location, base ++ tailBytes tail)) :
    openFile fs path (some name) = .ok (known path name tail, []) := by
  have read : fs.read (FilePath.ofString path).toString = .ok (base ++ tailBytes tail) := by
    unfold FileSystem.read
    rw [inFile]
    rfl
  cases tail with
  | none =>
    rw [tailBytes, List.append_nil] at read
    rw [openFile_of_parse read parsed, ofModule_base fresh]
  | some c =>
    have same := named c rfl
    have after := Module.parse_append parsed c (same ▸ notLinking) (same ▸ notRelocation)
    rw [openFile_of_parse read after, ofModule_append fresh same]

lemma resize_append (front rest : Bytes) : resize front.length (front ++ rest) = front := by
  unfold resize
  rw [List.take_left, Nat.sub_eq_zero_of_le (by rw [List.length_append]; omega)]
  exact List.append_nil front

/-- The length of the file without the section at its end is that of the base. -/
lemma cutLength_known (long : 8 ≤ base.length) :
    (known path name tail).cutLength name (base ++ tailBytes tail).length = .ok base.length := by
  have cut : ((base ++ tailBytes tail).length : Int) -
      (known path name tail).appendedLength.getD 0 = base.length := by
    rw [List.length_append]
    cases tail with
    | none => exact Int.sub_zero _
    | some c =>
      show ((base.length + c.bytes.length : Nat) : Int) - c.bytes.length = base.length
      omega
  unfold cutLength
  dsimp only
  rw [cut, if_neg (by omega), if_pos (by rw [List.length_append]; omega)]
  rfl

lemma known_ofUrl (url : String) :
    known path name (some (.ofUrl name url)) =
      { known path name tail with appendedLength := some (UrlSection.encode name url).length } := by
  rw [← CustomSection.bytes_ofUrl]
  rfl

/-- What a patch leaves: the base and the new section. -/
lemma patch_ok (parsed : Module.parse base = .ok m)
    (inFile : fs.openFile (FilePath.ofString path).toString =
      .ok (location, base ++ tailBytes tail))
    (url : String) :
    (known path name tail).patch fs url none =
      ⟨.ok (known path name (some (.ofUrl name url))), [],
        fs.put location (base ++ UrlSection.encode name url)⟩ := by
  have inPlace : (known path name tail).patchFile fs name url location (base ++ tailBytes tail)
      none = ⟨.ok (known path name (some (.ofUrl name url))), [],
        fs.put location (base ++ UrlSection.encode name url)⟩ := by
    unfold patchFile
    rw [cutLength_known (Module.eight_le_of_parse parsed)]
    dsimp only
    rw [resize_append, known_ofUrl]
  unfold patch
  dsimp only [known]
  rw [inFile]
  exact inPlace

/-- A session that is started keeps the invariant. -/
lemma opening_holds (parsed : Module.parse base = .ok m) (fresh : m.sectionNamed name = none)
    (notLinking : name ≠ "linking") (notRelocation : ¬relocationMark.toList <+: name.toList)
    {s : Sessions} (holds : Holds path name base s) :
    ∃ p s', Step.run path name s .opening = .ok s' ∧ Holds path name base s' ∧
      s'.patcher = some p := by
  obtain ⟨tail, location, named, inFile, _⟩ := holds
  have opened := openFile_ok parsed fresh notLinking notRelocation named inFile
  refine ⟨known path name tail, ⟨known path name tail, s.files⟩, ?_, ?_, rfl⟩
  · show (openFile s.files path (some name) >>= _ : Except Fault Sessions) = _
    rw [opened]
    rfl
  · exact ⟨tail, location, named, inFile, fun p e => (Option.some.inj e).symm⟩

/-- A patch leaves the base and the new section, and keeps the invariant. -/
lemma patching_holds (parsed : Module.parse base = .ok m) {s : Sessions} {p : Patcher}
    (holds : Holds path name base s) (isOpen : s.patcher = some p) (url : String) :
    ∃ s', Step.run path name s (.patching url) = .ok s' ∧ Holds path name base s' ∧
      s'.patcher = some (known path name (some (.ofUrl name url))) ∧
      s'.files.read (FilePath.ofString path).toString =
        .ok (base ++ UrlSection.encode name url) := by
  obtain ⟨tail, location, named, inFile, knows⟩ := holds
  obtain rfl := knows p isOpen
  have put := FileSystem.openFile_put inFile (base ++ UrlSection.encode name url)
  refine ⟨⟨known path name (some (.ofUrl name url)),
    s.files.put location (base ++ UrlSection.encode name url)⟩, ?_, ?_, rfl, ?_⟩
  · unfold Step.run
    rw [isOpen]
    dsimp only
    rw [patch_ok parsed inFile]
    rfl
  · refine ⟨some (.ofUrl name url), location, ?_, ?_, fun p e => (Option.some.inj e).symm⟩
    · rintro c ⟨⟩
      exact CustomSection.name_ofUrl name url
    · rw [tailBytes, CustomSection.bytes_ofUrl]
      exact put
  · unfold FileSystem.read
    rw [put]
    rfl

/-- Any run of steps of an open session keeps the invariant. -/
lemma run_holds (parsed : Module.parse base = .ok m) (fresh : m.sectionNamed name = none)
    (notLinking : name ≠ "linking") (notRelocation : ¬relocationMark.toList <+: name.toList)
    (steps : List Step) {s : Sessions} {p : Patcher} (holds : Holds path name base s)
    (isOpen : s.patcher = some p) :
    ∃ p' s', run path name s steps = .ok s' ∧ Holds path name base s' ∧ s'.patcher = some p' := by
  induction steps generalizing s p with
  | nil => exact ⟨p, s, rfl, holds, isOpen⟩
  | cons step rest ih =>
    have next : ∃ p' s', Step.run path name s step = .ok s' ∧ Holds path name base s' ∧
        s'.patcher = some p' := by
      cases step with
      | opening => exact opening_holds parsed fresh notLinking notRelocation holds
      | patching url =>
        obtain ⟨s', done, after, isOpen', _⟩ := patching_holds parsed holds isOpen url
        exact ⟨_, s', done, after, isOpen'⟩
    obtain ⟨p', s', done, after, isOpen'⟩ := next
    obtain ⟨p'', s'', later, ends⟩ := ih after isOpen'
    refine ⟨p'', s'', ?_, ends⟩
    unfold run
    rw [List.foldlM_cons, done]
    exact later

end

/-- The address in the payload of a section that names a source map. -/
lemma decode_payload (url : String) :
    ∃ n count, Leb128.decodeAt (UrlSection.counted (Text.Utf8.encode url)) 0 = .ok (n, count) ∧
      ((UrlSection.counted (Text.Utf8.encode url)).drop count).length = n ∧
      Text.Utf8.decode? ((UrlSection.counted (Text.Utf8.encode url)).drop count) = some url := by
  have front := Leb128.decode_append (Leb128.decode_encode (Text.Utf8.encode url).length)
    (Text.Utf8.encode url)
  refine ⟨(Text.Utf8.encode url).length, (Leb128.encode (Text.Utf8.encode url).length).length, ?_⟩
  unfold UrlSection.counted
  rw [List.drop_left]
  refine ⟨?_, rfl, Text.Utf8.decode?_encode url⟩
  unfold Leb128.decodeAt
  rw [List.drop_zero, front]
  exact congrArg (fun k => Except.ok (_, k)) (Nat.zero_add _)

/-- Whatever was done to a file over any number of sessions, after a patch it holds the base and the
new section and nothing else. The whole is a module whose only section of the name is its last one,
a new session knows how long this section is, and its payload is the address. -/
theorem read_of_run {base : Bytes} {m : Module} {name : String} {path : WideString}
    {fs : FileSystem}
    (parsed : Module.parse base = .ok m) (fresh : m.sectionNamed name = none)
    (notLinking : name ≠ "linking") (notRelocation : ¬relocationMark.toList <+: name.toList)
    (tail : Option CustomSection) (named : ∀ c ∈ tail, c.name = name)
    (inFile : fs.read (FilePath.ofString path).toString = .ok (base ++ tailBytes tail))
    (steps : List Step) (url : String) :
    ∃ s, run path name ⟨none, fs⟩ (.opening :: steps ++ [.patching url]) = .ok s ∧
      s.files.read (FilePath.ofString path).toString =
        .ok (base ++ UrlSection.encode name url) ∧
      (∃ m' last n count, Module.parse (base ++ UrlSection.encode name url) = .ok m' ∧
        m'.sections.getLast? = some last ∧ m'.sections.filter (Section.isNamed name) = [last] ∧
        Leb128.decodeAt (m'.payload last) 0 = .ok (n, count) ∧
        ((m'.payload last).drop count).length = n ∧
        Text.Utf8.decode? ((m'.payload last).drop count) = some url) ∧
      ∃ p, openFile s.files path (some name) = .ok (p, []) ∧
        p.appendedLength = some ((UrlSection.encode name url).length : Int) := by
  obtain ⟨location, inFile⟩ := FileSystem.openFile_of_read inFile
  have start : Holds path name base ⟨none, fs⟩ := ⟨tail, location, named, inFile, nofun⟩
  -- The invariant is carried from the first opening to the last patch, which settles the content.
  obtain ⟨p₁, s₁, first, holds₁, isOpen₁⟩ :=
    opening_holds parsed fresh notLinking notRelocation start
  obtain ⟨p₂, s₂, between, holds₂, isOpen₂⟩ :=
    run_holds parsed fresh notLinking notRelocation steps holds₁ isOpen₁
  obtain ⟨s₃, last, _, _, content⟩ := patching_holds parsed holds₂ isOpen₂ url
  have all : run path name ⟨none, fs⟩ (.opening :: steps ++ [.patching url]) = .ok s₃ := by
    unfold run at between ⊢
    rw [List.cons_append, List.foldlM_cons, first]
    show (steps ++ [Step.patching url]).foldlM (Step.run path name) s₁ = _
    rw [List.foldlM_append, between]
    show [Step.patching url].foldlM (Step.run path name) s₂ = _
    rw [List.foldlM_cons, last]
    rfl
  refine ⟨s₃, all, content, ?_, ?_⟩
  · have only := Module.filter_append_self fresh (CustomSection.name_ofUrl name url)
    have appended := Module.parse_append parsed (.ofUrl name url)
      (by rwa [CustomSection.name_ofUrl]) (by rwa [CustomSection.name_ofUrl])
    obtain ⟨n, count, decoded⟩ := decode_payload url
    rw [← CustomSection.bytes_ofUrl]
    refine ⟨m.append (.ofUrl name url), _, n, count, appended, List.getLast?_concat, only, ?_⟩
    rw [Module.payload_placed]
    exact decoded
  · rw [← CustomSection.bytes_ofUrl] at content ⊢
    obtain ⟨location, inFile⟩ := FileSystem.openFile_of_read content
    have named : ∀ c ∈ some (CustomSection.ofUrl name url), c.name = name := by
      rintro c ⟨⟩
      exact CustomSection.name_ofUrl name url
    exact ⟨_, openFile_ok parsed fresh notLinking notRelocation named inFile, rfl⟩

/-- A section of another writer, who pads the lengths, with a payload that is no address. -/
def padded : CustomSection where
  sizeField := [0x94, 0x80, 0x00]
  nameField := [0x90, 0x00]
  nameBytes := Text.Utf8.encode "sourceMappingURL"
  payload := [0xff, 0x00]
  countsContent := by decide +kernel
  countsName := by decide +kernel

/-- A file that ends with this section. -/
def paddedFile : FileSystem :=
  FileSystem.empty.addFile (.of ["app.wasm"]) (oneBody ++ tailBytes (some padded))

/-- Two sessions patch the file, one after the other. -/
theorem read_of_run_padded :
    (∃ m, Module.parse oneBody = .ok m ∧ m.sectionNamed "sourceMappingURL" = none) ∧
      "sourceMappingURL" ≠ "linking" ∧ ¬relocationMark.toList <+: "sourceMappingURL".toList ∧
      (∀ c ∈ some padded, c.name = "sourceMappingURL") ∧
      paddedFile.read (FilePath.ofString "app.wasm").toString =
        .ok (oneBody ++ tailBytes (some padded)) ∧
      ∃ s, run "app.wasm" "sourceMappingURL" ⟨none, paddedFile⟩
          [.opening, .patching "first.map", .opening, .patching "second.map"] = .ok s ∧
        s.files.read (FilePath.ofString "app.wasm").toString =
          .ok (oneBody ++ UrlSection.encode "sourceMappingURL" "second.map") := by
  have named : ∀ c ∈ some padded, c.name = "sourceMappingURL" := by
    rintro c ⟨⟩
    decide +kernel
  have inFile : paddedFile.read (FilePath.ofString "app.wasm").toString =
      .ok (oneBody ++ tailBytes (some padded)) := by
    decide +kernel
  have accepted : (Module.parse oneBody >>= fun m => pure (m.sectionNamed "sourceMappingURL")) =
      .ok none := by
    decide +kernel
  obtain ⟨m, parsed, fresh⟩ := Except.bind_ok accepted
  have fresh := Except.ok.inj fresh
  obtain ⟨s, done, content, _⟩ := read_of_run parsed fresh (by decide) (by decide) (some padded)
    named inFile [.patching "first.map", .opening] "second.map"
  exact ⟨⟨m, parsed, fresh⟩, by decide, by decide, named, inFile, s, done, content⟩

end Patcher

end WasmSourceMap
