import WasmSourceMap.Proofs.Position.DecodedRows
import WasmSourceMap.Proofs.SourceMap.RoundTrip
import WasmSourceMap.Proofs.SourceMap.Text
import WasmSourceMap.Session

/-!
# What a source map says about a module

The text of a source map is read back as its object (`parse?_toText`), whose mappings are those of
the table. With the table made of the points of the decoded rows, the text says of an address what
the last row there says, or nothing if that row has no line or no file (`mem_mappings_iff`).
-/

namespace WasmSourceMap

namespace PositionTable

/-- The mappings of a table, in the order of the addresses. -/
def mappings (t : PositionTable) : List (Mapping (Option String)) :=
  (t.points.filter Point.hasSource).map Mapping.ofPoint

lemma pairwise_mappings (t : PositionTable) :
    t.mappings.Pairwise fun x y => x.address < y.address :=
  List.pairwise_map.2 (t.ascending.filter _)

/-- A row has a mapping if it has a line and its file a path. -/
lemma ofPoint_point {codeOffset : Int} {r : SourcedRow} {path : String}
    (found : r.path = .ok (some path)) :
    Mapping.ofPoint (r.point codeOffset) =
      ⟨0, r.address codeOffset, some (SourcePath.stripLibrary path), r.row.line, r.row.column⟩ := by
  rw [SourcedRow.point, found]
  rfl

lemma hasSource_point {codeOffset : Int} {r : SourcedRow} :
    (r.point codeOffset).hasSource = true ↔
      r.row.line ≠ 0 ∧ ∃ path, r.path = .ok (some path) := by
  unfold SourcedRow.point SourcedRow.pointWith Point.hasSource
  rcases r.path with _ | _ | path <;> simp [Except.toOption]

/-- The mappings of the points of some rows say of an address what the last row there says. -/
lemma mem_mappings_iff (codeOffset : Int) (rows : List SourcedRow)
    (x : Mapping (Option String)) :
    x ∈ (ofList (rows.map (·.point codeOffset))).mappings ↔
      ∃ r path, lastAt (·.address codeOffset) rows x.address = some r ∧ r.row.line ≠ 0 ∧
        r.path = .ok (some path) ∧
        x = ⟨0, r.address codeOffset, some (SourcePath.stripLibrary path), r.row.line,
          r.row.column⟩ := by
  have last : ∀ p, p ∈ (ofList (rows.map (·.point codeOffset))).points ↔
      ∃ r, lastAt (·.address codeOffset) rows p.address = some r ∧ r.point codeOffset = p := by
    intro p
    rw [mem_ofList, lastAt_map, Option.map_eq_some_iff]
    rfl
  unfold mappings
  rw [List.mem_map]
  constructor
  · rintro ⟨p, m, rfl⟩
    obtain ⟨m, source⟩ := List.mem_filter.1 m
    obtain ⟨r, here, rfl⟩ := (last p).1 m
    obtain ⟨line, path, found⟩ := hasSource_point.1 source
    exact ⟨r, path, here, line, found, ofPoint_point found⟩
  · rintro ⟨r, path, here, line, found, rfl⟩
    refine ⟨r.point codeOffset, List.mem_filter.2 ⟨?_, ?_⟩, ofPoint_point found⟩
    · exact (last _).2 ⟨r, here, rfl⟩
    · exact hasSource_point.2 ⟨line, path, found⟩

end PositionTable

namespace Session

variable {data : Bytes} {parent supplementary : Option Bytes} {s : Session}

/-- A session knows the code offset of its module and begins with nothing in its memory. -/
lemma ofBytes_ok (h : ofBytes data parent supplementary = .ok s) :
    Container.Module.parse data = .ok s.module ∧ s.module.codeOffset = .ok s.codeOffset ∧
      s.memory = {} := by
  unfold ofBytes at h
  obtain ⟨m, parsed, h⟩ := Except.bind_ok h
  obtain ⟨offset, found, h⟩ := Except.bind_ok h
  obtain ⟨parent, _, h⟩ := Except.bind_ok h
  obtain ⟨supplementary, _, h⟩ := Except.bind_ok h
  obtain ⟨view, _, h⟩ := Except.bind_ok h
  cases h
  exact ⟨Except.ok_of_mapError parsed, Except.ok_of_mapError found, rfl⟩

/-- A map that is built encodes a table that is built. -/
lemma sourceMap_ok {fs : FileSystem} {bundled : Bool} {file : Option String} {map : SourceMap}
    (h : (s.sourceMap fs bundled file).result = .ok map) :
    ∃ t, (Position.build s.view s.codeOffset s.memory).table = .ok t ∧
      SourceMap.encode fs bundled file t = .ok map := by
  obtain ⟨t, inTable, encoded⟩ := Except.bind_ok h
  exact ⟨t, Except.ok_of_mapError inTable, Except.ok_of_mapError encoded⟩

end Session

/-- The text of the map, decoded, has in strictly ascending order one mapping for each address whose
last row has a line and a file with a path, and no other mapping. -/
def SourceMap.TellsRows (map : SourceMap) (codeOffset : Int) (rows : List SourcedRow) : Prop :=
  ∃ (members : List (String × Json)) (text : String) (sources : List String)
    (mappings : List (Mapping (Option String))),
    Json.parse? map.toText = some (.object members) ∧
    Json.find? members "mappings" = some (.string text) ∧
    Json.find? members "sources" = some (.array (sources.map .string)) ∧
    Mapping.decode text (sources.map some) = .ok mappings ∧
    mappings.Pairwise (fun x y => x.address < y.address) ∧
    ∀ x, x ∈ mappings ↔ ∃ r path,
      lastAt (·.address codeOffset) rows x.address = some r ∧ r.row.line ≠ 0 ∧
      r.path = .ok (some path) ∧
      x = ⟨0, r.address codeOffset, some (SourcePath.stripLibrary path), r.row.line, r.row.column⟩

namespace Session

/-- A map tells the truth about the line tables of its module: it tells the rows of all units,
except units that cannot be decoded for a reason that is skippable. -/
theorem tellsRows_of_sourceMap {data : Bytes} {parent supplementary : Option Bytes} {s : Session}
    {fs : FileSystem} {file : Option String} {map : SourceMap}
    (opened : ofBytes data parent supplementary = .ok s)
    (built : (s.sourceMap fs false file).result = .ok map) :
    s.module.codeOffset = .ok s.codeOffset ∧
      map.TellsRows s.codeOffset (s.view.decodedRows {}) ∧
      ∀ fault, .error fault ∈ s.view.decodeUnits s.view.units.1 {} → fault.isSkippable = true := by
  obtain ⟨_, offset, fresh⟩ := ofBytes_ok opened
  obtain ⟨t, inTable, encoded⟩ := sourceMap_ok built
  rw [fresh] at inTable
  obtain ⟨rfl, skippable⟩ := Position.table_of_build inTable
  obtain ⟨m, same, decoded⟩ := SourceMap.decode_encode fs file (SourceMap.sourced_of_encode encoded)
  rw [same] at encoded
  cases encoded
  refine ⟨offset, ⟨map.members, map.mappings, map.sources, _, map.parse?_toText,
    map.find?_mappings, map.find?_sources, decoded, ?_, ?_⟩, skippable⟩
  · exact PositionTable.pairwise_mappings _
  · exact PositionTable.mem_mappings_iff _ _

/-- A module with one function and one unit, whose lines end with the end of a sequence. Each
section begins on a line of its own. -/
def oneUnit : Bytes :=
  [0x00, 0x61, 0x73, 0x6d, 0x01, 0x00, 0x00, 0x00,
    0x0a, 0x09, 0x01, 0x07, 0x00, 0x01, 0x01, 0x01, 0x01, 0x01, 0x0b,
    0x00, 0x1c, 0x0d, 0x2e, 0x64, 0x65, 0x62, 0x75, 0x67, 0x5f, 0x61, 0x62, 0x62, 0x72, 0x65, 0x76,
    0x01, 0x11, 0x00, 0x03, 0x08, 0x1b, 0x08, 0x10, 0x17, 0x11, 0x01, 0x00, 0x00, 0x00,
    0x00, 0x2b, 0x0b, 0x2e, 0x64, 0x65, 0x62, 0x75, 0x67, 0x5f, 0x69, 0x6e, 0x66, 0x6f, 0x1b, 0x00,
    0x00, 0x00, 0x04, 0x00, 0x00, 0x00, 0x00, 0x00, 0x04, 0x01, 0x75, 0x30, 0x2e, 0x63, 0x00, 0x2f,
    0x77, 0x6f, 0x72, 0x6b, 0x00, 0x00, 0x00, 0x00, 0x00, 0x00, 0x00, 0x00, 0x00,
    0x00, 0x4d, 0x0b, 0x2e, 0x64, 0x65, 0x62, 0x75, 0x67, 0x5f, 0x6c, 0x69, 0x6e, 0x65, 0x3d, 0x00,
    0x00, 0x00, 0x03, 0x00, 0x2b, 0x00, 0x00, 0x00, 0x01, 0x01, 0xfb, 0x0e, 0x0d, 0x00, 0x01, 0x01,
    0x01, 0x01, 0x00, 0x00, 0x00, 0x01, 0x00, 0x00, 0x01, 0x73, 0x72, 0x63, 0x00, 0x00, 0x6d, 0x61,
    0x69, 0x6e, 0x2e, 0x63, 0x00, 0x01, 0x00, 0x00, 0x75, 0x74, 0x69, 0x6c, 0x2e, 0x68, 0x00, 0x00,
    0x00, 0x00, 0x00, 0x00, 0x05, 0x02, 0x03, 0x00, 0x00, 0x00, 0x21, 0x2f, 0x00, 0x01, 0x01]

/-- The map of the module, whose last mapping is that of the end of the sequence. -/
theorem tellsRows_oneUnit :
    ∃ s map, ofBytes oneUnit none none = .ok s ∧
      (s.sourceMap .empty false (some "app.wasm")).result = .ok map ∧
      map.mappings = "cACD,CACA,CAAA" ∧ s.module.codeOffset = .ok s.codeOffset ∧
      map.TellsRows s.codeOffset (s.view.decodedRows {}) ∧
      ∀ fault, .error fault ∈ s.view.decodeUnits s.view.units.1 {} → fault.isSkippable = true := by
  have all : ((ofBytes oneUnit none none >>= fun s =>
      (s.sourceMap .empty false (some "app.wasm")).result) >>= fun map => pure map.mappings) =
        .ok "cACD,CACA,CAAA" := by
    decide +kernel
  obtain ⟨map, both, same⟩ := Except.bind_ok all
  obtain ⟨s, opened, built⟩ := Except.bind_ok both
  exact ⟨s, map, opened, built, Except.ok.inj same, tellsRows_of_sourceMap opened built⟩

end Session

end WasmSourceMap
