import WasmSourceMap.Proofs.Container.Appending
import WasmSourceMap.Proofs.Position.Skipping
import WasmSourceMap.Proofs.Results
import WasmSourceMap.Session

/-!
# A map does not see a section of another name

Debug information is looked for by the names of its sections. A custom section of another name at
the end of a module changes neither which sections are found nor what they hold, so the debug
information is loaded as before (`load_append`), and with it all that a session says is the same
(`report_append`).
-/

namespace WasmSourceMap

open Container (Module Section CustomSection relocationMark oneBody)

namespace Container.Module

variable {data : Bytes} {m : Module} {c : CustomSection}

lemma sectionNamed_append {name : String} (other : c.name ≠ name) :
    (m.append c).sectionNamed name = m.sectionNamed name := by
  have notNamed : ¬((c.placed m.data.length).isNamed name) = true := by
    rw [Section.isNamed, Bool.and_eq_true, beq_iff_eq, beq_iff_eq]
    exact fun e => other e.2
  unfold sectionNamed append
  rw [List.find?_append, List.find?_cons_of_neg notNamed]
  exact Option.or_none

lemma mem_of_sectionNamed {name : String} {s : Section} (h : m.sectionNamed name = some s) :
    s ∈ m.sections :=
  List.mem_of_find?_eq_some h

/-- The payload of a section that ends inside the data. -/
lemma payload_append {s : Section} (inside : s.stop ≤ m.data.length) :
    (m.append c).payload s = m.payload s := by
  -- A payload that would begin after its end is empty, wherever it lies.
  rcases Nat.le_total s.dataOffset s.stop with le | ge
  · unfold payload append
    rw [List.drop_append_of_le_length (by omega), List.take_append_of_le_length]
    rw [List.length_drop]
    omega
  · unfold payload
    rw [Nat.sub_eq_zero_of_le ge, List.take_zero, List.take_zero]

lemma relocationsOf_append {s : Section} (hs : s ∈ m.sections) :
    (m.append c).relocationsOf s = m.relocationsOf s := by
  have same : (m.append c).sectionIndex s = m.sectionIndex s := by
    unfold sectionIndex append
    rw [List.idxOf_append, if_pos hs]
  unfold relocationsOf
  rw [same]
  rfl

lemma codeOffset_append : (m.append c).codeOffset = m.codeOffset := by
  unfold codeOffset append
  rw [List.reverse_append]
  rfl

end Container.Module

namespace Dwarf

/-- The name is not that of a debug section, plain or split. -/
def IsForeign (name : String) : Prop :=
  ∀ kind : SectionKind, name ≠ kind.name ∧ name ≠ kind.splitName

namespace Sections

variable {data : Bytes} {m : Module} {c : CustomSection}

lemma loadRelocated_append (parsed : Module.parse data = .ok m) (foreign : IsForeign c.name) :
    loadRelocated (m.append c) = loadRelocated m := by
  funext s kind
  unfold loadRelocated
  rw [Module.sectionNamed_append (foreign kind).1]
  cases found : m.sectionNamed kind.name with
  | none => rfl
  | some s =>
    have mem := Module.mem_of_sectionNamed found
    have inside := Module.stop_le_of_parse parsed mem
    rw [← Module.data_of_parse parsed] at inside
    dsimp only
    rw [Module.relocationsOf_append mem, Module.payload_append inside]
    rfl

lemma findSplit?_append (parsed : Module.parse data = .ok m) (foreign : IsForeign c.name) :
    findSplit? (m.append c) = findSplit? m := by
  funext kind
  unfold findSplit?
  rw [Module.sectionNamed_append (foreign kind).2]
  cases found : m.sectionNamed kind.splitName with
  | none => rfl
  | some s =>
    have mem := Module.mem_of_sectionNamed found
    have inside := Module.stop_le_of_parse parsed mem
    rw [← Module.data_of_parse parsed] at inside
    rw [Option.map_some, Option.map_some, Module.payload_append inside]

end Sections

/-- The debug information of a module is loaded as before. -/
lemma View.load_append {data : Bytes} {m : Module} {c : CustomSection}
    (parsed : Module.parse data = .ok m) (foreign : IsForeign c.name)
    (parent supplementary : Option Module) :
    load (m.append c) parent supplementary = load m parent supplementary := by
  have own : loadSections (m.append c) parent = loadSections m parent := by
    unfold loadSections Sections.load Sections.loadSplit
    rw [Sections.loadRelocated_append parsed foreign, Sections.findSplit?_append parsed foreign]
  unfold load
  rw [own]

end Dwarf

namespace Session

/-- What is said about a module: the text of its map, or why there is none, and what is told on the
way. -/
def report (data : Bytes) (parent supplementary : Option Bytes) (fs : FileSystem) (bundled : Bool)
    (file : Option String) : Except Fault (Except Fault String × List Notice) :=
  (ofBytes data parent supplementary).map fun s =>
    let answer := s.sourceMap fs bundled file
    (answer.result.map SourceMap.toText, answer.notices)

variable {data : Bytes} {m : Module} {c : CustomSection}

/-- A session is the same but for its module. -/
lemma ofBytes_append (parsed : Module.parse data = .ok m)
    (appended : Module.parse (data ++ c.bytes) = .ok (m.append c))
    (foreign : Dwarf.IsForeign c.name) (parent supplementary : Option Bytes) :
    ofBytes (data ++ c.bytes) parent supplementary =
      (ofBytes data parent supplementary).map fun s => { s with module := m.append c } := by
  have offset : codeOffsetOf (m.append c) = codeOffsetOf m := by
    unfold codeOffsetOf
    rw [Module.codeOffset_append]
  have view : viewOf (m.append c) = viewOf m := by
    funext parent supplementary
    unfold viewOf
    rw [Dwarf.View.load_append parsed foreign]
  unfold ofBytes parseModule
  rw [parsed, appended]
  show (codeOffsetOf (m.append c) >>= _ : Except Fault Session) =
    (codeOffsetOf m >>= _ : Except Fault Session).map _
  rw [offset, view]
  -- The session holds the module, which is another; all steps before are the same.
  simp only [Except.map_bind]
  rfl

/-- A session says the same with a custom section after the module. -/
lemma report_append (parsed : Module.parse data = .ok m)
    (appended : Module.parse (data ++ c.bytes) = .ok (m.append c))
    (foreign : Dwarf.IsForeign c.name) (parent supplementary : Option Bytes) (fs : FileSystem)
    (bundled : Bool) (file : Option String) :
    report (data ++ c.bytes) parent supplementary fs bundled file =
      report data parent supplementary fs bundled file := by
  unfold report
  rw [ofBytes_append parsed appended foreign]
  cases ofBytes data parent supplementary <;> rfl

/-- The section that names the source map is invisible to the map. With it a module has one more
section and is otherwise the same, and whatever the companions are, the same is said about it, also
if there is no map. -/
theorem report_append_url (parsed : Module.parse data = .ok m) {name : String}
    (notLinking : name ≠ "linking") (notRelocation : ¬relocationMark.toList <+: name.toList)
    (foreign : Dwarf.IsForeign name) (url : String) :
    (∃ m' s, Module.parse (data ++ UrlSection.encode name url) = .ok m' ∧
      m'.sections = m.sections ++ [s] ∧ s.id = Section.customId ∧ s.name = name ∧
      m'.codeOffset = m.codeOffset ∧ m'.contents = m.contents ∧ m'.symbols = m.symbols ∧
      m'.relocations = m.relocations) ∧
    ∀ parent supplementary fs bundled file,
      report (data ++ UrlSection.encode name url) parent supplementary fs bundled file =
        report data parent supplementary fs bundled file := by
  let c := CustomSection.ofUrl name url
  have named : c.name = name := CustomSection.name_ofUrl name url
  rw [← CustomSection.bytes_ofUrl]
  rw [← named] at notLinking notRelocation foreign
  have appended := Module.parse_append parsed c notLinking notRelocation
  refine ⟨⟨m.append c, c.placed m.data.length, appended, rfl, rfl, named, ?_, rfl, rfl, rfl⟩, ?_⟩
  · exact Module.codeOffset_append
  · exact report_append parsed appended foreign

/-- A module with a function and three units, of which the second cannot be decoded. -/
def skippedUnit : Bytes := oneBody ++ Position.brokenBetween.drop 8

/-- The map of the two other units and what is told about the second one, with the section as
without, and with another module beside it. -/
theorem report_skippedUnit_url :
    (∃ m, Module.parse skippedUnit = .ok m) ∧ "sourceMappingURL" ≠ "linking" ∧
      ¬relocationMark.toList <+: "sourceMappingURL".toList ∧ Dwarf.IsForeign "sourceMappingURL" ∧
      report (skippedUnit ++ UrlSection.encode "sourceMappingURL" "app.wasm.map") none
          (some oneBody) .empty false (some "app.wasm") =
        .ok (.ok ("\x7b\"version\":3,\"file\":\"app.wasm\",\"sourceRoot\":\"\",\"names\":[]," ++
          "\"sources\":[\"a.c\",\"c.c\"],\"mappings\":\"UACD,CCAA\"\x7d"),
          [.skippedUnit 0x10]) := by
  have foreign : Dwarf.IsForeign "sourceMappingURL" := by
    intro kind
    cases kind <;> exact ⟨by decide, by decide⟩
  have accepted : (Module.parse skippedUnit >>= fun m => pure m.sections.length) = .ok 4 := by
    decide +kernel
  obtain ⟨m, parsed, _⟩ := Except.bind_ok accepted
  refine ⟨⟨m, parsed⟩, by decide, by decide, foreign, ?_⟩
  rw [(report_append_url parsed (by decide) (by decide) foreign "app.wasm.map").2]
  decide +kernel

end Session

end WasmSourceMap
