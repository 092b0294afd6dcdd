import WasmSourceMap.Json.Printer

/-!
# Source maps

A source map ties positions of a generated file to positions of its sources. As text it is a JSON
object in compact form; the file and the contents of the sources are left out if they are not given.
-/

namespace WasmSourceMap

/-- A source map. A source whose content could not be read has none. -/
structure SourceMap where
  sources : List String
  mappings : String
  file : Option String := none
  sourcesContent : Option (List (Option String)) := none
  version : Int := 3
  sourceRoot : String := ""
  names : List String := []
deriving DecidableEq, Repr

namespace SourceMap

/-- A text that may be missing. -/
def optionalText : Option String → Json
  | some text => .string text
  | none => .null

/-- The members of the object, in their order. -/
def members (m : SourceMap) : List (String × Json) :=
  [("version", .integer m.version)] ++
    (m.file.map fun file => ("file", Json.string file)).toList ++
    [("sourceRoot", .string m.sourceRoot), ("names", .array (m.names.map .string)),
      ("sources", .array (m.sources.map .string))] ++
    (m.sourcesContent.map fun contents =>
      ("sourcesContent", Json.array (contents.map optionalText))).toList ++
    [("mappings", .string m.mappings)]

def toJson (m : SourceMap) : Json := .object m.members

def toText (m : SourceMap) : String := m.toJson.compact

end SourceMap

end WasmSourceMap
