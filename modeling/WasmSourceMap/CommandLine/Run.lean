import WasmSourceMap.CommandLine.Arguments
import WasmSourceMap.Config
import WasmSourceMap.Session

/-!
# Running the command line

A run reads a module, writes its source map and can patch the module. It is a computation over the
files and the lines printed so far, which stay as they are when it stops. All that a run reads and
builds is in a draft before it writes anything. What is written to a file or to the output has to
have bytes in UTF-8, which a name from the command line need not have.
-/

namespace WasmSourceMap.CommandLine

/-- How a run ends: with a status, or with a fault that nobody foresaw. -/
inductive Exit where
  | status (code : Nat)
  | unforeseen (fault : Fault)
deriving DecidableEq, Repr

/-- The files and the lines printed so far, and whether the output takes texts only. -/
structure Console where
  files : FileSystem
  lines : List WideString
  strict : Bool := false

/-- A run that may stop early. -/
abbrev Run (α : Type) := ExceptT Exit (StateM Console) α

namespace Run

/-- Print lines, up to the first that the output does not take. -/
def print (lines : List WideString) : Run Unit := do
  let c ← get
  let taken := if c.strict then lines.takeWhile WideString.isText else lines
  set { c with lines := c.lines ++ taken }
  if taken.length < lines.length then throw (.unforeseen .notUtf8)

/-- Go on with a value. A fault stops the run; a reported one is printed. -/
def ofExcept {α : Type} : Except Fault α → Run α
  | .ok a => pure a
  | .error fault => do
    if fault.isReported then
      print ["ERROR: " ++ fault.message]
      throw (.status 1)
    else throw (.unforeseen fault)

def stop (message : WideString) : Run Unit := do
  print ["ERROR: " ++ message]
  throw (.status 1)

def tell (notices : List Notice) : Run Unit := print (notices.map Notice.text)

def putFiles (files : FileSystem) : Run Unit := modify fun c => { c with files }

end Run

/-- What a run meets besides its arguments and the files: the directory of the program, whether the
output takes texts only, and where the system fails while the run writes: when so many bytes of the
source map are in its file, and during the patch. -/
structure Machine where
  package : FilePath := .ofString "/usr/lib/wasm2map"
  strict : Bool := false
  writing : Option Nat := none
  patching : Option Interruption := none

/-- What a run has before it writes anything. A name of the module that is no text is not in the
source map, and nothing but a part of it can be written then. -/
structure Draft where
  config : Config
  mapPath : FilePath
  map : SourceMap
  session : Session

/-- The path of the source map beside a module. -/
def besideModule (wasm suffix : WideString) : Except Fault FilePath :=
  let path := FilePath.ofString wasm
  match path.withName? (path.name ++ suffix) with
  | some beside => .ok beside
  | none => .error .badMapName

/-- A configured suffix, if it is a string. -/
def suffix? : Json → Option WideString
  | .string suffix => some suffix
  | .wide suffix => some suffix
  | _ => none

/-- The path of the source map beside a module with a configured suffix. -/
def defaultMapPath (wasm : WideString) (suffix : Json) : Except Fault FilePath :=
  match suffix? suffix with
  | some suffix => besideModule wasm suffix
  | none => .error .suffixNotText

/-- The address of the source map: its name behind the base without slashes at its end. -/
def mapUrl (baseUrl : WideString) (mapPath : FilePath) : WideString :=
  ⟨(baseUrl.points.reverse.dropWhile (· == FilePath.slash)).reverse⟩ ++ "/" ++ mapPath.name

/-- A string that is given and not empty. -/
def given : Option WideString → Option WideString
  | some text => if text = "" then none else some text
  | none => none

/-- The configuration with the options that are flags on the command line. -/
def Options.override (o : Options) (c : Config) : Config :=
  let c := if o.bundleSources then { c with bundleSources := .bool true } else c
  let c := if o.mmap then { c with useMmap := .bool true } else c
  if o.dumpMappings then { c with dumpMappings := .bool true } else c

/-- The configuration of a run. -/
def Options.configuration (o : Options) (package : FilePath) (files : FileSystem) :
    Except Fault Config :=
  (Config.load package files ((given o.config).map FilePath.ofString)).map o.override

/-- The path that the source map is written to. -/
def Options.mapFile (o : Options) (c : Config) : Except Fault FilePath :=
  match given o.mapPath with
  | some path => .ok (FilePath.ofString path)
  | none => defaultMapPath o.wasm c.sourceMapSuffix

/-- The name of the module, if it is a text. -/
def Options.name? (o : Options) : Option String := (FilePath.ofString o.wasm).name.text?

/-- The mappings of a source map as lines. -/
def mappingLines (m : SourceMap) : Except Fault (List WideString) :=
  match Mapping.format m.toJson with
  | .ok lines => .ok lines
  | .error fault => .error (.mapping fault)

def loadSession (o : Options) (c : Config) : Run Session := do
  Run.print ["Initializing WebAssembly file..."]
  let files := (← get).files
  let (session, notices) ←
    Run.ofExcept (Session.load files o.wasm o.splitParent o.supplementary c.sectionName?)
  Run.tell notices
  Run.print ["Detected WebAssembly (WASM) format",
    "Code section offset: 0x" ++ Text.Hexadecimal.ofNat session.codeOffset]
  return session

/-- Build the source map of a session. -/
def buildMap (o : Options) (c : Config) (session : Session) : Run (SourceMap × Session) := do
  Run.print ["Generating source map..."]
  let answer := session.sourceMap (← get).files c.bundleSources.isTruthy o.name?
  Run.tell answer.notices
  let map ← Run.ofExcept answer.result
  Run.print ["Sources: " ++ toString map.sources.length]
  return (map, answer.session)

/-- Check the options and put together what they ask for. -/
def prepare (o : Options) (package : FilePath) : Run Draft := do
  if o.patch && (given o.baseUrl).isNone then Run.stop "--patch requires --base-url"
  if (given o.baseUrl).isSome && !o.patch then Run.stop "--base-url requires --patch"
  let path := (FilePath.ofString o.wasm).toString
  let found ← Run.ofExcept (FileAction.test.lift path ((← get).files.isFile path))
  if !found then Run.stop ("WebAssembly file not found: " ++ o.wasm)
  let config ← Run.ofExcept (o.configuration package (← get).files)
  let mapPath ← Run.ofExcept (o.mapFile config)
  let session ← loadSession o config
  let (map, session) ← buildMap o config session
  return { config, mapPath, map, session }

/-- The line that says where the source map is. -/
def announcement (mapPath : FilePath) : WideString := "Source map written to " ++ mapPath.toString

/-- Put a content in the file of the source map and stop. -/
def leaveMap (d : Draft) (content : Bytes) (fault : Fault) : Run Unit := do
  let path := d.mapPath.toString
  Run.putFiles (← Run.ofExcept (FileAction.writeMap.lift path ((← get).files.write path content)))
  Run.ofExcept (.error fault)

/-- Write the source map of a draft. The file is there and empty when it turns out that the name of
the module has no bytes. -/
def writeMap (o : Options) (d : Draft) (failing : Option Nat) : Run Unit := do
  match o.name?, failing with
  | none, _ => leaveMap d [] .notUtf8
  | some _, some written =>
    leaveMap d ((Text.Utf8.encode d.map.toText).take written)
      (.file .writeMap d.mapPath.toString (.refused .inputOutput none))
  | some _, none =>
    Run.putFiles (← Run.ofExcept (d.map.save (← get).files d.mapPath.toString))
    Run.print [announcement d.mapPath]

def dumpMappings (map : SourceMap) : Run Unit := do
  Run.print (← Run.ofExcept (mappingLines map))

/-- Patch the module of a draft. The section is put together before the file is opened, its name
first. -/
def patchModule (o : Options) (d : Draft) (interruption : Option Interruption) : Run Unit := do
  let url := mapUrl (o.baseUrl.getD "") d.mapPath
  Run.print ["Patching " ++ d.config.sectionName.shown ++ " section: " ++ url]
  match d.config.sectionName, url.text? with
  | .wide _, _ | .string _, none => Run.ofExcept (.error .notUtf8)
  | _, text =>
    let (answer, files) := d.session.patch (← get).files (text.getD "") interruption
    Run.putFiles files
    Run.tell answer.notices
    Run.ofExcept answer.result

/-- Do what follows the source map: show its mappings and patch the module, if this is wanted. -/
def complete (o : Options) (d : Draft) (interruption : Option Interruption) : Run Unit := do
  if d.config.dumpMappings.isTruthy then dumpMappings d.map
  if o.patch then patchModule o d interruption
  Run.print ["Done!"]

/-- Carry out the options. -/
def execute (o : Options) (machine : Machine) : Run Unit := do
  let d ← prepare o machine.package
  writeMap o d machine.writing
  complete o d machine.patching

/-- The name and the version of the program. -/
def versionText : String := "wasm2map 0.1.0"

/-- Run with some arguments on some files: how it ends, and the files and lines after it. -/
def runWith (machine : Machine) (arguments : List WideString) (files : FileSystem) :
    Exit × Console :=
  match parse arguments with
  | .misuse => (.status 2, { files, lines := [] })
  | .help => (.status 0, { files, lines := [] })
  | .version => (.status 0, { files, lines := [versionText] })
  | .run options =>
    match (execute options machine).run { files, lines := [], strict := machine.strict } with
    | (.ok (), console) => (.status 0, console)
    | (.error exit, console) => (exit, console)

/-- Run where nothing fails. -/
def run (arguments : List WideString) (files : FileSystem) : Exit × Console :=
  runWith {} arguments files

end WasmSourceMap.CommandLine
