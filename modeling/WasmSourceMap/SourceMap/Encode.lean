import WasmSourceMap.FileSystem
import WasmSourceMap.Position.Table
import WasmSourceMap.SourceMap.Artifact
import WasmSourceMap.SourcePath
import WasmSourceMap.Vlq

/-!
# Encoding of position tables

A table becomes one line of segments, one for each point with a source position. A segment holds the
differences of address, source, line and column to the segment before it. Sources are numbered in
the order in which they first appear.
-/

namespace WasmSourceMap

/-- Different paths in the order of first appearance; the place of a path is its number. -/
structure SourceTable where
  paths : List String
deriving DecidableEq, Repr

namespace SourceTable

/-- The number of a path, and the table with the path in it. -/
def add (t : SourceTable) (path : String) : Nat × SourceTable :=
  match t.paths.idxOf? path with
  | some id => (id, t)
  | none => (t.paths.length, ⟨t.paths ++ [path]⟩)

end SourceTable

namespace SourceMap

/-- Why a table cannot be encoded: a point with a line has no path, or a path cannot be a file. -/
inductive EncodeFault where
  | missingPath
  | zeroInPath
deriving DecidableEq, Repr

/-- The values of a segment: address, source, line and column. -/
structure Fields where
  address : Int
  source : Int
  line : Int
  column : Int
deriving DecidableEq, Repr

/-- What the first segment counts from; lines and columns start with one. -/
def Fields.start : Fields := ⟨0, 0, 1, 1⟩

/-- The segment that leads from some values to others. -/
def segment (previous next : Fields) : List Char :=
  Vlq.encodeChars (next.address - previous.address) ++
    Vlq.encodeChars (next.source - previous.source) ++
    Vlq.encodeChars (next.line - previous.line) ++
    Vlq.encodeChars (next.column - previous.column)

/-- A point with its path; a point without source position is left out. -/
def sourced (p : Point) : Option (String × Point) :=
  if p.hasSource then some (p.source.getD "", p) else none

/-- The segments of points with their paths, and the sources after them. -/
def segmentsFrom (sources : SourceTable) (previous : Fields) :
    List (String × Point) → List (List Char) × SourceTable
  | [] => ([], sources)
  | (path, p) :: rest =>
    let (id, sources) := sources.add path
    let next : Fields := ⟨p.address, id, p.line, p.column⟩
    let (segments, sources) := segmentsFrom sources next rest
    (segment previous next :: segments, sources)

/-- A source file as text; none if it cannot be read. The path of a source is a text, so nothing but
a zero character keeps it from being a path. -/
def readSource (fs : FileSystem) (path : String) : Except EncodeFault (Option String) :=
  match fs.read (FilePath.ofString path).toString with
  | .ok content => .ok (some (Text.Utf8.decode content))
  | .error (.refused ..) => .ok none
  | .error _ => .error .zeroInPath

/-- The contents of all sources, if they are wanted. -/
def bundle (fs : FileSystem) (wanted : Bool) (paths : List String) :
    Except EncodeFault (Option (List (Option String))) :=
  if wanted then (paths.mapM (readSource fs)).map some else .ok none

/-- The segments of a table and its sources. -/
def segments (t : PositionTable) : List (List Char) × SourceTable :=
  segmentsFrom ⟨[]⟩ .start (t.points.filterMap sourced)

/-- The source map of a table. -/
def encode (fs : FileSystem) (bundled : Bool) (file : Option String) (t : PositionTable) :
    Except EncodeFault SourceMap :=
  if t.points.any fun p => p.hasSource && p.source.isNone then .error .missingPath
  else
    let (segments, table) := segments t
    match bundle fs bundled table.paths with
    | .error fault => .error fault
    | .ok sourcesContent =>
      .ok {
        sources := table.paths.map SourcePath.stripLibrary
        mappings := String.ofList (Text.joinWith ',' segments)
        file, sourcesContent }

end SourceMap

end WasmSourceMap
