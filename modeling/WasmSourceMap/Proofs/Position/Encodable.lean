import WasmSourceMap.Container.Module
import WasmSourceMap.Proofs.Position.Outcomes
import WasmSourceMap.Proofs.SourceMap.RoundTrip
import WasmSourceMap.Proofs.SourcePath.NormalForm

/-!
# Tables that are built can be encoded

Each point of a table that is built comes from a row, with numbers that fit 32 bits and with a path
unless it has line zero (`Encodable`). The path is a joined one, hence in normal form. So the
encoder finds the path of every point with a source, and what is decoded afterwards has the same
bounds.
-/

namespace WasmSourceMap

open Dwarf (View LineTable Row UnitHeader Memory)

/-- A point as the encoder wants it. -/
structure Point.Encodable (p : Point) : Prop where
  address : FitsWord p.address
  line : FitsWord p.line
  column : FitsWord p.column
  source : p.hasSource = true →
    ∃ path, p.source = some path ∧ SourcePath.normalize path = path ∧ '\\' ∉ path.toList

/-- A mapping with a known source and numbers that fit 32 bits. -/
structure Mapping.Bounded (x : Mapping (Option String)) : Prop where
  source : x.source.isSome = true
  address : FitsWord x.address
  line : FitsWord x.line
  column : FitsWord x.column

namespace Point.Encodable

variable {p : Point}

lemma source_isSome (h : p.Encodable) (hasSource : p.hasSource = true) :
    p.source.isSome = true := by
  obtain ⟨path, e, _⟩ := h.source hasSource
  rw [e]
  rfl

lemma bounded (h : p.Encodable) (hasSource : p.hasSource = true) :
    (Mapping.ofPoint p).Bounded where
  source := by
    rw [show (Mapping.ofPoint p).source = p.source.map SourcePath.stripLibrary from rfl,
      Option.isSome_map]
    exact h.source_isSome hasSource
  address := h.address
  line := h.line
  column := h.column

end Point.Encodable

namespace Position

variable {v : View} {codeOffset : Int}

/-- A path that is found is a joined one. -/
lemma pathOf_some {t : LineTable} {directory : Option String} {file : Nat} {path : String}
    (h : pathOf t directory file = .ok (some path)) :
    ∃ name listed, path = SourcePath.join name listed directory := by
  obtain ⟨entry, _, joined⟩ := Except.bind_ok (Except.ok_of_mapError h)
  obtain ⟨e, _, rfl⟩ := Option.map_eq_some_iff.1 (Except.ok.inj joined)
  exact ⟨e.name, e.directory, rfl⟩

/-- A row that becomes a point becomes one that can be encoded. -/
lemma encodable_of_pointOfRow {t : LineTable} {directory : Option String} {r : Row} {p : Point}
    (h : pointOfRow t directory codeOffset r = .ok p) : p.Encodable := by
  unfold pointOfRow checkedPoint at h
  obtain ⟨address, inAddress, h⟩ := Except.bind_ok h
  obtain ⟨line, inLine, h⟩ := Except.bind_ok h
  obtain ⟨column, inColumn, h⟩ := Except.bind_ok h
  obtain ⟨source, inPath, h⟩ := Except.bind_ok h
  obtain ⟨rfl, address⟩ := checkWord_ok inAddress
  obtain ⟨rfl, line⟩ := checkWord_ok inLine
  obtain ⟨rfl, column⟩ := checkWord_ok inColumn
  cases h
  constructor
  case address =>
    -- The end of a sequence moves back only from an address above zero.
    dsimp only
    split
    · unfold FitsWord at *
      omega
    · exact address
  case line =>
    dsimp only
    split
    · exact ⟨Int.le_refl 0, by decide⟩
    · exact line
  case column => exact column
  case source =>
    intro hasSource
    cases source with
    | none => cases hasSource
    | some path =>
      obtain ⟨name, listed, rfl⟩ := pathOf_some inPath
      exact ⟨_, rfl, SourcePath.normalize_join name listed directory⟩

lemma encodable_of_unitPoints {u : UnitHeader} {points : List Point} {m after : Memory}
    (h : (unitPoints v codeOffset u).run m = (.ok points, after)) :
    ∀ p ∈ points, p.Encodable := by
  rw [run_unitPoints] at h
  rcases decoded : (v.unitRows u).run m with ⟨fault | rows, _⟩ <;> rw [decoded] at h
  · cases h
  · intro p mem
    obtain ⟨r, _, placed⟩ := Except.mem_mapM_ok (Prod.mk.inj h).1 mem
    exact encodable_of_pointOfRow placed

/-- A unit of a build has what its own decoding gives. -/
lemma run_of_mem_outcomes {units : List UnitHeader} {m : Memory} {o : Outcome}
    (h : o ∈ outcomes v codeOffset units m) :
    ∃ before after, (unitPoints v codeOffset o.unit).run before = (o.points, after) := by
  induction units generalizing m with
  | nil => cases h
  | cons u rest ih =>
    rcases decoded : (unitPoints v codeOffset u).run m with ⟨points, after⟩
    rw [outcomes_cons decoded] at h
    rcases List.mem_cons.1 h with rfl | h
    · exact ⟨m, after, decoded⟩
    · exact ih h

lemma encodable_of_given {units : List UnitHeader} {m : Memory} {o : Outcome} {p : Point}
    (h : o ∈ outcomes v codeOffset units m) (given : p ∈ o.given) : p.Encodable := by
  obtain ⟨before, after, decoded⟩ := run_of_mem_outcomes h
  unfold Outcome.given at given
  cases result : o.points with
  | error fault =>
    rw [result] at given
    cases given
  | ok points =>
    rw [result] at decoded given
    exact encodable_of_unitPoints decoded p given

/-- Every point of a table that is built can be encoded. -/
lemma encodable_of_build {m : Memory} {t : PositionTable}
    (h : (build v codeOffset m).table = .ok t) : ∀ p ∈ t.points, p.Encodable := by
  unfold build at h
  rw [table_buildFrom] at h
  split at h
  · cases h
  · rw [finish_ok h]
    intro p mem
    obtain ⟨o, inUnits, given⟩ := List.mem_flatMap.1 (PositionTable.mem_of_mem_ofList mem)
    exact encodable_of_given inUnits given

/-- A table that is built can be encoded, whatever it is built from: the numbers of all its points
fit 32 bits, a point with a line has a path in normal form with forward slashes only, the encoder
gives a map, and the mappings of the map have known sources and numbers that fit 32 bits. -/
theorem encode_of_build {m : Memory} {t : PositionTable}
    (h : (build v codeOffset m).table = .ok t) (fs : FileSystem) (file : Option String) :
    (∀ p ∈ t.points, p.Encodable) ∧
      ∃ map mappings, SourceMap.encode fs false file t = .ok map ∧
        Mapping.decode map.mappings (map.sources.map some) = .ok mappings ∧
        ∀ x ∈ mappings, x.Bounded := by
  have points := encodable_of_build h
  obtain ⟨map, encoded, decoded⟩ :=
    SourceMap.decode_encode fs file fun p mem => (points p mem).source_isSome
  refine ⟨points, map, _, encoded, decoded, fun x mem => ?_⟩
  obtain ⟨p, inTable, rfl⟩ := List.mem_map.1 mem
  obtain ⟨inTable, hasSource⟩ := List.mem_filter.1 inTable
  exact (points p inTable).bounded hasSource

/-- A module with one unit, whose file is given by a path with backslashes and dots. The end of its
sequence moves back onto the sequence. Each section begins on a line of its own. -/
def backslashes : Bytes :=
  [0x00, 0x61, 0x73, 0x6d, 0x01, 0x00, 0x00, 0x00,
    0x00, 0x16, 0x0d, 0x2e, 0x64, 0x65, 0x62, 0x75, 0x67, 0x5f, 0x61, 0x62, 0x62, 0x72, 0x65, 0x76,
    0x01, 0x11, 0x00, 0x10, 0x17, 0x00, 0x00, 0x00,
    0x00, 0x1c, 0x0b, 0x2e, 0x64, 0x65, 0x62, 0x75, 0x67, 0x5f, 0x69, 0x6e, 0x66, 0x6f, 0x0c, 0x00,
    0x00, 0x00, 0x04, 0x00, 0x00, 0x00, 0x00, 0x00, 0x04, 0x01, 0x00, 0x00, 0x00, 0x00,
    0x00, 0x35, 0x0b, 0x2e, 0x64, 0x65, 0x62, 0x75, 0x67, 0x5f, 0x6c, 0x69, 0x6e, 0x65, 0x25, 0x00,
    0x00, 0x00, 0x03, 0x00, 0x1b, 0x00, 0x00, 0x00, 0x01, 0x01, 0x01, 0x04, 0x01, 0x73, 0x72, 0x63,
    0x5c, 0x2e, 0x2e, 0x5c, 0x6c, 0x69, 0x62, 0x00, 0x00, 0x2e, 0x5c, 0x61, 0x2e, 0x63, 0x00, 0x01,
    0x00, 0x00, 0x00, 0x05, 0x00, 0x01, 0x01]

/-- The directory is given as src\..\lib and the name as .\a.c. -/
theorem encode_of_build_backslashes :
    ∃ m v t map, Container.Module.parse backslashes = .ok m ∧ View.load m none none = .ok v ∧
      (build v 0 {}).table = .ok t ∧
      t.points = [⟨some "lib/a.c", 0, 2, 0, true⟩, ⟨some "lib/a.c", 1, 2, 0, false⟩] ∧
      (∀ p ∈ t.points, p.Encodable) ∧ SourceMap.encode .empty false (some "app.wasm") t = .ok map ∧
      Mapping.decode map.mappings (map.sources.map some) =
        .ok [⟨0, 0, some "lib/a.c", 2, 0⟩, ⟨0, 1, some "lib/a.c", 2, 0⟩] ∧
      ∀ x ∈ ([⟨0, 0, some "lib/a.c", 2, 0⟩, ⟨0, 1, some "lib/a.c", 2, 0⟩] :
        List (Mapping (Option String))), x.Bounded := by
  have all : (Container.Module.parse backslashes).toOption.bind (fun m =>
      (View.load m none none).toOption.bind fun v => (build v 0 {}).table.toOption.bind fun t =>
        (SourceMap.encode .empty false (some "app.wasm") t).toOption.map fun map =>
          (t.points, Mapping.decode map.mappings (map.sources.map some))) =
      some ([⟨some "lib/a.c", 0, 2, 0, true⟩, ⟨some "lib/a.c", 1, 2, 0, false⟩],
        .ok [⟨0, 0, some "lib/a.c", 2, 0⟩, ⟨0, 1, some "lib/a.c", 2, 0⟩]) := by
    decide +kernel
  obtain ⟨m, isModule, all⟩ := Option.bind_eq_some_iff.1 all
  obtain ⟨v, isView, all⟩ := Option.bind_eq_some_iff.1 all
  obtain ⟨t, isTable, all⟩ := Option.bind_eq_some_iff.1 all
  obtain ⟨map, isMap, both⟩ := Option.map_eq_some_iff.1 all
  obtain ⟨points, decoded⟩ := Prod.mk.inj both
  have built := Except.ok_of_toOption isTable
  obtain ⟨encodable, map', mappings, encoded, decoded', bounded⟩ :=
    encode_of_build built .empty (some "app.wasm")
  cases (Except.ok_of_toOption isMap).symm.trans encoded
  cases decoded.symm.trans decoded'
  exact ⟨m, v, t, map, Except.ok_of_toOption isModule, Except.ok_of_toOption isView, built, points,
    encodable, encoded, decoded, bounded⟩

end Position

end WasmSourceMap
