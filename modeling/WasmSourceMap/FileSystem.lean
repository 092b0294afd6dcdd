import WasmSourceMap.FilePath
import WasmSourceMap.Text.Quoted
import WasmSourceMap.Text.Utf8

/-!
# File systems

The files, directories and links that a run can see. A place is found by walking the components of a
path: every component but the last has to be a directory, double dots go to the parent, and a
symbolic link goes on with the components that it holds. A file is known by one location, its home;
its other names are hard links to it. So the same file can be reached by many paths.
-/

namespace WasmSourceMap

/-- Why the system refuses an operation on a file. -/
inductive FileCause where
  | notFound
  | inputOutput
  | notDirectory
  | isDirectory
  | invalidArgument
  | nameTooLong
  | tooManyLinks
deriving DecidableEq, Repr

/-- The number and the words of a cause. -/
def FileCause.text : FileCause → String
  | .notFound => "[Errno 2] No such file or directory"
  | .inputOutput => "[Errno 5] Input/output error"
  | .notDirectory => "[Errno 20] Not a directory"
  | .isDirectory => "[Errno 21] Is a directory"
  | .invalidArgument => "[Errno 22] Invalid argument"
  | .nameTooLong => "[Errno 36] File name too long"
  | .tooManyLinks => "[Errno 40] Too many levels of symbolic links"

/-- Why an operation on a file fails: the system refuses it, for a path or for an open file, or the
path holds a zero character or a surrogate that stands for no byte, which no path can. -/
inductive FileFault where
  | refused (cause : FileCause) (path : Option WideString)
  | zeroInPath
  | surrogateInPath
deriving DecidableEq, Repr

/-- The text of a fault, with the path as a literal. -/
def FileFault.message : FileFault → String
  | .refused cause (some path) => cause.text ++ ": " ++ Text.Quoted.ofWide path
  | .refused cause none => cause.text
  | .zeroInPath => "Zero character in path"
  | .surrogateInPath => "Surrogate in path"

/-- The name of a file in its directory. It need not be a text. -/
abbrev FileName := Bytes

/-- A place by the names on the way from the root. -/
structure Location where
  names : List FileName
deriving DecidableEq, Repr

namespace Location

/-- The location with these names. -/
def of (names : List String) : Location := ⟨names.map Text.Utf8.encode⟩

/-- The location of a name in a directory. -/
def entry (l : Location) (name : FileName) : Location := ⟨l.names ++ [name]⟩

/-- The location above a directory; the root is above itself. -/
def above (l : Location) : Location := ⟨l.names.dropLast⟩

end Location

/-- The path that a symbolic link holds. A slash at its end stands as a dot behind it. -/
structure SymbolicLink where
  absolute : Bool
  names : List FileName
  named : names.getLast? ≠ some []
deriving DecidableEq, Repr

/-- Where a symbolic link in a directory goes on from. -/
def SymbolicLink.start (link : SymbolicLink) (directory : Location) : Location :=
  if link.absolute then ⟨[]⟩ else directory

/-- A link: another name of the file with a home, or a path to go on with. -/
inductive Link where
  | hard (home : Location)
  | symbolic (link : SymbolicLink)
deriving DecidableEq, Repr

/-- Files with their contents, directories, links, and the current directory. The current directory
and those above it need no entry. -/
structure FileSystem where
  files : List (Location × Bytes)
  directories : List Location
  links : List (Location × Link) := []
  current : Location := ⟨[]⟩
deriving Repr

namespace FileSystem

/-- What a path leads to. A missing place has a directory as parent. -/
inductive Place where
  | file (location : Location) (content : Bytes)
  | directory (location : Location)
  | missing (location : Location)
deriving DecidableEq, Repr

def empty : FileSystem := { files := [], directories := [] }

/-- The content of the file at a location. -/
def content? (fs : FileSystem) (location : Location) : Option Bytes :=
  (fs.files.find? fun entry => entry.1 == location).map (·.2)

/-- The link at a location. -/
def link? (fs : FileSystem) (location : Location) : Option Link :=
  (fs.links.find? fun entry => entry.1 == location).map (·.2)

def hasDirectory (fs : FileSystem) (location : Location) : Bool :=
  location.names.isPrefixOf fs.current.names || fs.directories.contains location

def put (fs : FileSystem) (location : Location) (content : Bytes) : FileSystem :=
  { fs with files := (fs.files.filter fun entry => entry.1 != location) ++ [(location, content)] }

def erase (fs : FileSystem) (location : Location) : FileSystem :=
  { fs with files := fs.files.filter fun entry => entry.1 != location }

/-- Add a directory and those above it. -/
def addDirectory (fs : FileSystem) (location : Location) : FileSystem :=
  let above := (List.range location.names.length).map fun n =>
    ⟨location.names.take (n + 1)⟩
  { fs with directories := fs.directories ++ above.filter fun l => !fs.directories.contains l }

/-- Add a file and the directories above it. -/
def addFile (fs : FileSystem) (location : Location) (content : Bytes) : FileSystem :=
  (fs.addDirectory location.above).put location content

/-- Add a link and the directories above it. -/
def addLink (fs : FileSystem) (location : Location) (link : Link) : FileSystem :=
  let fs := fs.addDirectory location.above
  { fs with links := fs.links ++ [(location, link)] }

/-- The most bytes of a name and of a path, and the most symbolic links on the way of a path. -/
def maxNameBytes : Nat := 255
def maxPathBytes : Nat := 4095
def maxLinks : Nat := 40

/-- What a name in a directory is. -/
inductive Entry where
  | place (place : Place)
  | link (link : SymbolicLink)

/-- What a name in a directory is, if other names follow it. -/
def enter (fs : FileSystem) (location : Location) (name : FileName) (rest : List FileName) :
    Except FileCause Entry :=
  let target := location.entry name
  if maxNameBytes < name.length then .error .nameTooLong
  else
    match fs.link? target with
    | some (.symbolic link) => .ok (.link link)
    | some (.hard home) =>
      match fs.content? home with
      | some content => .ok (.place (.file home content))
      | none => .error .notFound
    | none =>
      match fs.content? target with
      | some content => .ok (.place (.file target content))
      | none =>
        if fs.hasDirectory target then .ok (.place (.directory target))
        else if rest.all (· == []) then .ok (.place (.missing target))
        else .error .notFound

/-- The names that stay in a directory and that go up. -/
def dot : FileName := [0x2E]
def dotDot : FileName := [0x2E, 0x2E]

/-- Walk on from a place. A symbolic link is left to `follow`, with the directory that it is in and
the names behind it. -/
def walkWith (fs : FileSystem)
    (follow : Location → SymbolicLink → List FileName → Except FileCause Place) :
    Place → List FileName → Except FileCause Place
  | place, [] => .ok place
  | .directory location, name :: rest =>
    if name = [] ∨ name = dot then walkWith fs follow (.directory location) rest
    else if name = dotDot then walkWith fs follow (.directory location.above) rest
    else
      match fs.enter location name rest with
      | .ok (.link link) => follow location link rest
      | .ok (.place (.missing target)) => .ok (.missing target)
      | .ok (.place place) => walkWith fs follow place rest
      | .error cause => .error cause
  | .file .., _ :: _ => .error .notDirectory
  | .missing .., _ :: _ => .error .notFound

/-- Walk on from a place past at most so many symbolic links. -/
def walk (fs : FileSystem) : Nat → Place → List FileName → Except FileCause Place
  | 0 => fs.walkWith fun _ _ _ => .error .tooManyLinks
  | links + 1 => fs.walkWith fun location link rest =>
      walk fs links (.directory (link.start location)) (link.names ++ rest)

/-- The components of a path, empty ones among them. -/
def componentsOf (path : WideString) : List WideString :=
  (Text.splitOn FilePath.slash path.points).map .mk

/-- The directory that a path starts in. -/
def startOf (fs : FileSystem) (path : WideString) : Location :=
  if path.points.head? == some FilePath.slash then ⟨[]⟩ else fs.current

/-- The place that some of the components of a path lead to. -/
def placeOf (fs : FileSystem) (path : WideString) (components : List WideString) :
    Except FileFault Place :=
  let refused cause := Except.error (FileFault.refused cause (some path))
  match path.nameBytes?, components.mapM WideString.nameBytes? with
  | some bytes, some names =>
    if path.points.contains (.char '\x00') then .error .zeroInPath
    else if path = "" then refused .notFound
    else if maxPathBytes < bytes.length then refused .nameTooLong
    else
      match fs.walk maxLinks (.directory (fs.startOf path)) names with
      | .ok place => .ok place
      | .error cause => refused cause
  | _, _ => .error .surrogateInPath

def place (fs : FileSystem) (path : WideString) : Except FileFault Place :=
  fs.placeOf path (componentsOf path)

/-- The home and the content of the file of a path, which has to exist. -/
def openFile (fs : FileSystem) (path : WideString) : Except FileFault (Location × Bytes) :=
  match fs.place path with
  | .error fault => .error fault
  | .ok (.file location content) => .ok (location, content)
  | .ok (.missing ..) => .error (.refused .notFound (some path))
  | .ok _ => .error (.refused .isDirectory (some path))

def read (fs : FileSystem) (path : WideString) : Except FileFault Bytes :=
  (fs.openFile path).map (·.2)

/-- Why a path with a slash at its end cannot be written: what is there or would be there counts as
a directory, if the directory above it exists. -/
def refusedSlash (fs : FileSystem) (path : WideString) : FileFault :=
  let named := ((componentsOf path).reverse.dropWhile (·.points.isEmpty)).reverse
  match fs.placeOf path named.dropLast with
  | .error fault => fault
  | .ok (.file ..) => .refused .notDirectory (some path)
  | .ok (.missing _) => .refused .notFound (some path)
  | .ok _ => .refused .isDirectory (some path)

/-- The file system after a file is written; its directory has to exist. -/
def write (fs : FileSystem) (path : WideString) (content : Bytes) : Except FileFault FileSystem :=
  if path.points.getLast? = some FilePath.slash then .error (fs.refusedSlash path)
  else
    match fs.place path with
    | .error fault => .error fault
    | .ok (.file location _) => .ok (fs.put location content)
    | .ok (.missing location) => .ok (fs.put location content)
    | .ok _ => .error (.refused .isDirectory (some path))

/-- A test on the place of a path; a path that leads nowhere fails the test. -/
def test (fs : FileSystem) (path : WideString) (accept : Place → Bool) : Except FileFault Bool :=
  match fs.place path with
  | .ok place => .ok (accept place)
  | .error .zeroInPath => .ok false
  | .error .surrogateInPath => .ok false
  | .error (.refused .notFound _) => .ok false
  | .error (.refused .notDirectory _) => .ok false
  | .error (.refused .tooManyLinks _) => .ok false
  | .error fault => .error fault

def pathExists (fs : FileSystem) (path : WideString) : Except FileFault Bool :=
  fs.test path fun
    | .missing .. => false
    | _ => true

def isFile (fs : FileSystem) (path : WideString) : Except FileFault Bool :=
  fs.test path fun
    | .file .. => true
    | _ => false

end FileSystem

end WasmSourceMap
