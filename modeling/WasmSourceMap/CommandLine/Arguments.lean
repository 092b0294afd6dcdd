import WasmSourceMap.Text.Digits
import WasmSourceMap.Text.Wide

/-!
# Command line arguments

Options may be shortened to a unique beginning of their long name. A value follows its option as the
next argument, behind an equals sign, or right behind a short option; short options without value
can share a dash. What is not an option is the module, and two dashes end the options. Arguments are
wide strings, since the names of files need not be texts.
-/

namespace WasmSourceMap.CommandLine

/-- The options. -/
inductive OptionName where
  | help
  | map
  | patch
  | baseUrl
  | bundleSources
  | splitParent
  | supplementary
  | mmap
  | dumpMappings
  | version
  | config
deriving DecidableEq, Repr

namespace OptionName

/-- Whether an option has a value. -/
def takesValue : OptionName → Bool
  | .map | .baseUrl | .splitParent | .supplementary | .config => true
  | _ => false

/-- The long names, without their dashes. -/
def longNames : List (WideString × OptionName) :=
  [("help", .help), ("map", .map), ("patch", .patch), ("base-url", .baseUrl),
   ("bundle-sources", .bundleSources), ("dwo-parent", .splitParent), ("sup-file", .supplementary),
   ("mmap", .mmap), ("dump-mappings", .dumpMappings), ("version", .version), ("config", .config)]

/-- The option of a letter. -/
def ofLetter? : CodePoint → Option OptionName
  | .char 'h' => some .help
  | .char 'm' => some .map
  | .char 'p' => some .patch
  | .char 'b' => some .baseUrl
  | _ => none

end OptionName

/-- What the arguments ask for. -/
structure Options where
  wasm : WideString := ""
  mapPath : Option WideString := none
  patch : Bool := false
  baseUrl : Option WideString := none
  bundleSources : Bool := false
  splitParent : Option WideString := none
  supplementary : Option WideString := none
  mmap : Bool := false
  dumpMappings : Bool := false
  config : Option WideString := none
deriving DecidableEq, Repr

/-- What becomes of the arguments. -/
inductive Request where
  | run (options : Options)
  | help
  | version
  | misuse
deriving DecidableEq, Repr

/-- A value that is part of the argument of its option, and whether an equals sign is before it. -/
structure Attached where
  equals : Bool
  value : List CodePoint
deriving DecidableEq, Repr

/-- An argument on its own: the module or another file, an option, or what looks like an option and
is none. -/
inductive Reading where
  | file
  | option (name : OptionName) (short : Bool) (attached : Option Attached)
  | unknown
deriving DecidableEq, Repr

/-- What is behind the first equals sign. -/
def afterEquals (points : List CodePoint) : Option Attached :=
  match points.dropWhile (· != .char '=') with
  | [] => none
  | _ :: value => some ⟨true, value⟩

/-- A decimal digit in any script. -/
def isDigit : CodePoint → Bool
  | .char c => Text.isDecimalDigit c
  | .surrogate _ => false

/-- A list of digits that is not empty, with or without an end of line behind it. -/
def isDigits (points : List CodePoint) : Bool :=
  let rest := points.dropWhile isDigit
  points.head?.any isDigit && (rest == [] || rest == [.char '\n'])

/-- A number with a minus sign, which is no option: digits with at most one point before the last of
them. -/
def isNegativeNumber : List CodePoint → Bool
  | .char '-' :: points =>
    isDigits points ||
      match points.dropWhile isDigit with
      | .char '.' :: fraction => isDigits fraction
      | _ => false
  | _ => false

/-- What has the form of an option without being one: a number or a text with blanks is a file. -/
def readUnknown (points : List CodePoint) : Reading :=
  if isNegativeNumber points || points.contains (.char ' ') then .file else .unknown

/-- An argument with two dashes; none if it is the beginning of several long names. -/
def readLong (argument body : List CodePoint) : Option Reading :=
  let name := body.takeWhile (· != .char '=')
  match OptionName.longNames.find? fun entry => entry.1.points == name with
  | some entry => some (.option entry.2 false (afterEquals body))
  | none =>
    match OptionName.longNames.filter fun entry => name.isPrefixOf entry.1.points with
    | [] => some (readUnknown argument)
    | [entry] => some (.option entry.2 false (afterEquals body))
    | _ => none

/-- An argument with one dash and a letter. -/
def readShort (argument : List CodePoint) (letter : CodePoint) (rest : List CodePoint) : Reading :=
  match OptionName.ofLetter? letter, rest with
  | none, _ => readUnknown argument
  | some name, [] => .option name true none
  | some name, .char '=' :: value => .option name true (some ⟨true, value⟩)
  | some name, value => .option name true (some ⟨false, value⟩)

/-- What an argument is on its own; none if it is the beginning of several long names. -/
def read (argument : WideString) : Option Reading :=
  match argument.points with
  | .char '-' :: .char '-' :: body => readLong argument.points body
  | .char '-' :: letter :: rest => some (readShort argument.points letter rest)
  | _ => some .file

/-- What an argument with an option gives: options that are complete, the last option if its value
is yet to come, and whether something was left over. -/
structure Cluster where
  complete : List (OptionName × WideString)
  pending : Option OptionName
  leftOver : Bool
deriving DecidableEq, Repr

/-- Add an option without value in front. -/
def Cluster.add (name : OptionName) (c : Cluster) : Cluster :=
  { c with complete := (name, "") :: c.complete }

/-- Take apart the letters that share a dash, behind an option without value. -/
def expandLetters : List CodePoint → Option Cluster
  | [] => some ⟨[], none, false⟩
  | .char '-' :: _ => none
  | letter :: rest =>
    match OptionName.ofLetter? letter with
    | none => some ⟨[], none, true⟩
    | some name =>
      if name.takesValue then
        match rest with
        | [] => some ⟨[], some name, false⟩
        | .char '=' :: value => some ⟨[(name, ⟨value⟩)], none, false⟩
        | value => some ⟨[(name, ⟨value⟩)], none, false⟩
      else
        match rest with
        | .char '=' :: _ => none
        | _ => (expandLetters rest).map (Cluster.add name)

/-- Take apart an argument with an option; none if it has a value that it cannot have. -/
def expand (name : OptionName) (short : Bool) : Option Attached → Option Cluster
  | none =>
    if name.takesValue then some ⟨[], some name, false⟩ else some ⟨[(name, "")], none, false⟩
  | some attached =>
    if name.takesValue then some ⟨[(name, ⟨attached.value⟩)], none, false⟩
    else if short && !attached.equals && attached.value != [] then
      (expandLetters attached.value).map (Cluster.add name)
    else none

def Options.set (o : Options) : OptionName → WideString → Options
  | .map, value => { o with mapPath := some value }
  | .patch, _ => { o with patch := true }
  | .baseUrl, value => { o with baseUrl := some value }
  | .bundleSources, _ => { o with bundleSources := true }
  | .splitParent, value => { o with splitParent := some value }
  | .supplementary, value => { o with supplementary := some value }
  | .mmap, _ => { o with mmap := true }
  | .dumpMappings, _ => { o with dumpMappings := true }
  | .config, value => { o with config := some value }
  | .help, _ => o
  | .version, _ => o

/-- What is known while the arguments are read from left to right. -/
structure Progress where
  options : Options := {}
  wasm : Option WideString := none
  leftOver : Bool := false
deriving DecidableEq, Repr

namespace Progress

/-- Take a file: the first one is the module. -/
def file (p : Progress) (argument : WideString) : Progress :=
  match p.wasm with
  | none => { p with wasm := some argument }
  | some _ => { p with leftOver := true }

/-- What is asked for when all arguments are read. -/
def finish (p : Progress) : Request :=
  match p.wasm with
  | some wasm => if p.leftOver then .misuse else .run { p.options with wasm }
  | none => .misuse

/-- Set options one after the other; a request for help or the version is answered at once. -/
def setAll (p : Progress) : List (OptionName × WideString) → Request ⊕ Progress
  | [] => .inr p
  | (.help, _) :: _ => .inl .help
  | (.version, _) :: _ => .inl .version
  | (name, value) :: rest => setAll { p with options := p.options.set name value } rest

end Progress

/-- The arguments behind two dashes are files. The dashes belong to the module: they are left over
if it is known already, unless it is right before them. -/
def readFiles (p : Progress) (justNamed : Bool) (files : List WideString) : Request :=
  let p := if p.wasm.isSome && !justNamed then { p with leftOver := true } else p
  (files.foldl Progress.file p).finish

/-- Read on after some arguments. -/
def readFrom (p : Progress) (justNamed : Bool) :
    List (WideString × Reading) → Option (List WideString) → Request
  | [], none => p.finish
  | [], some files => readFiles p justNamed files
  | (argument, .file) :: rest, files => readFrom (p.file argument) p.wasm.isNone rest files
  | (_, .unknown) :: rest, files => readFrom { p with leftOver := true } false rest files
  | (_, .option name short attached) :: rest, files =>
    match expand name short attached with
    | none => .misuse
    | some cluster =>
      let p := if cluster.leftOver then { p with leftOver := true } else p
      match cluster.pending with
      | none =>
        match p.setAll cluster.complete with
        | .inl request => request
        | .inr p => readFrom p false rest files
      | some last =>
        match rest with
        | (value, .file) :: rest =>
          match p.setAll (cluster.complete ++ [(last, value)]) with
          | .inl request => request
          | .inr p => readFrom p false rest files
        | _ => .misuse

/-- The arguments before two dashes, and those behind if there are dashes. -/
def splitFiles : List WideString → List WideString × Option (List WideString)
  | [] => ([], none)
  | argument :: rest =>
    if argument = "--" then ([], some rest)
    else
      let (before, files) := splitFiles rest
      (argument :: before, files)

/-- What the arguments ask for. -/
def parse (arguments : List WideString) : Request :=
  let (before, files) := splitFiles arguments
  match before.mapM read with
  | none => .misuse
  | some readings => readFrom {} false (before.zip readings) files

end WasmSourceMap.CommandLine
