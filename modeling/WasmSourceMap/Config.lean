import WasmSourceMap.Fault
import WasmSourceMap.Text.Split
import WasmSourceMap.UrlSection

/-!
# Configuration

Options that a file can set. The file is a JSON object; a key counts in any spelling that separates
its words by capitals or by underscores. A value is kept as it is, whatever its kind. A missing file
sets nothing. Without a path the file is looked for in the directory of the program.
-/

namespace WasmSourceMap

/-- The options. -/
structure Config where
  bundleSources : Json := .bool false
  sourceMapSuffix : Json := .string ".map"
  dumpMappings : Json := .bool false
  sectionName : Json := .string UrlSection.defaultName
  useMmap : Json := .bool false
deriving Repr

namespace Config

/-- Whether two configurations are the same. -/
def same (a b : Config) : Bool :=
  a.bundleSources == b.bundleSources && a.sourceMapSuffix == b.sourceMapSuffix &&
    a.dumpMappings == b.dumpMappings && a.sectionName == b.sectionName && a.useMmap == b.useMmap

/-- The words of a key after its first character: a capital starts a new word. -/
def separate (cs : List Char) : List Char :=
  cs.flatMap fun c => if c.isUpper then ['_', c.toLower] else [c]

/-- A key with its words in lower case and separated by underscores. -/
def snakeCase (key : String) : String :=
  match key.toList with
  | [] => ""
  | c :: rest => String.ofList (c.toLower :: separate rest)

/-- Set the option of a key; an unknown key sets nothing. -/
def set (c : Config) (key : String) (value : Json) : Config :=
  if key = "bundle_sources" then { c with bundleSources := value }
  else if key = "source_map_suffix" then { c with sourceMapSuffix := value }
  else if key = "dump_mappings" then { c with dumpMappings := value }
  else if key = "section_name" then { c with sectionName := value }
  else if key = "use_mmap" then { c with useMmap := value }
  else c

/-- The configuration of an object; a later member counts. -/
def ofMembers (members : List (String × Json)) : Config :=
  members.foldl (fun c m => c.set (snakeCase m.1) m.2) {}

/-- The configuration of the bytes of a file. -/
def ofBytes (path : WideString) (data : Bytes) : Except Fault Config :=
  match (Text.Utf8.decode? data).bind Json.parse? with
  | none => .error (.badConfig path)
  | some (.object members) => .ok (ofMembers members)
  | some _ => .error .configNotObject

/-- The file of a program that is in a directory. -/
def defaultPath (package : FilePath) : FilePath := package.child "config.json"

/-- The configuration of a file, which is that of the program if no path is given. -/
def load (package : FilePath) (fs : FileSystem) (path : Option FilePath) : Except Fault Config := do
  let text := (path.getD (defaultPath package)).toString
  if ← FileAction.test.lift text (fs.pathExists text) then
    ofBytes text (← FileAction.readConfig.lift text (fs.read text))
  else return {}

/-- The options with their names. -/
def options (c : Config) : List (String × Json) := [
  ("bundle_sources", c.bundleSources),
  ("source_map_suffix", c.sourceMapSuffix),
  ("dump_mappings", c.dumpMappings),
  ("section_name", c.sectionName),
  ("use_mmap", c.useMmap)]

/-- A word with a capital at its start. -/
def capitalize : List Char → List Char
  | [] => []
  | c :: rest => c.toUpper :: rest.map Char.toLower

/-- A name with its words put together, each after the first with a capital. -/
def camelCase (name : String) : String :=
  match Text.splitOn '_' name.toList with
  | [] => ""
  | first :: rest => String.ofList (first ++ rest.flatMap capitalize)

/-- The members of a saved configuration. -/
def members (c : Config) : List (String × Json) := c.options.map fun o => (camelCase o.1, o.2)

/-- The object of a configuration. -/
def toJson (c : Config) : Json := .object c.members

/-- The file system after a configuration is written. -/
def save (c : Config) (fs : FileSystem) (path : FilePath) : Except Fault FileSystem :=
  let text := path.toString
  FileAction.writeConfig.lift text (fs.write text (Text.Utf8.encode c.toJson.indented))

/-- The name of the section, if it is a text. -/
def sectionName? (c : Config) : Option String :=
  match c.sectionName with
  | .string s => some s
  | _ => none

end Config

end WasmSourceMap
