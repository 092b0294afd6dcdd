import WasmSourceMap.Fault
import WasmSourceMap.UrlSection

/-!
# Patching a module

A patcher writes the section that names the source map at the end of a module file, in the place of
the one that is there. It remembers how long the section at the end is, and cuts off so many bytes
before it writes. If writing fails after the cut, what was cut off is put back.
-/

namespace WasmSourceMap

/-- What is known of a module file: its path, the length of the section at its end and the name of
the section, unless the name that was configured is not a text. -/
structure Patcher where
  path : FilePath
  appendedLength : Option Int
  sectionName : Option String
deriving DecidableEq, Repr

/-- Where the system fails during a patch: when the file is opened, when its size is looked up, when
what is to be cut off is read, when the file is cut, when the place after the cut is looked up, when
the section is written or flushed with so many bytes of it in the file, or when the file is
synchronised. After the cut, what was cut off is put back if `restored` says that this works. -/
inductive Interruption where
  | opening (cause : FileCause)
  | sizing
  | reading
  | cutting (restored : Bool)
  | seeking (restored : Bool)
  | writing (written : Nat) (restored : Bool)
  | flushing (written : Nat) (restored : Bool)
  | syncing (restored : Bool)
deriving DecidableEq, Repr

/-- Whether what was cut off can be put back; before the cut nothing has to be. -/
def Interruption.isRestored : Interruption → Bool
  | .opening _ | .sizing | .reading => true
  | .cutting restored | .seeking restored | .syncing restored => restored
  | .writing _ restored | .flushing _ restored => restored

/-- What a patch leaves. -/
structure Patched where
  result : Except Fault Patcher
  notices : List Notice
  files : FileSystem

namespace Patcher

/-- The patcher of a module that was read from a file. -/
def ofModule (m : Container.Module) (path : FilePath) (shownPath : WideString)
    (sectionName : Option String) : Patcher × List Notice :=
  match sectionName.bind m.sectionNamed with
  | none => ({ path, appendedLength := none, sectionName }, [])
  | some s =>
    let notices :=
      if m.sections.getLast? = some s then []
      else [Notice.sectionNotLast (sectionName.getD "") shownPath]
    ({ path, appendedLength := some s.totalSize, sectionName }, notices)

/-- The patcher of a module file. -/
def openFile (fs : FileSystem) (pathText : WideString) (sectionName : Option String) :
    Except Fault (Patcher × List Notice) := do
  let path := FilePath.ofString pathText
  let data ← FileAction.read.lift pathText (fs.read path.toString)
  let m ← (Container.Module.parse data).mapError .container
  return ofModule m path pathText sectionName

/-- Bytes cut or filled with zeros to a length. -/
def resize (length : Nat) (data : Bytes) : Bytes :=
  data.take length ++ List.replicate (length - data.length) 0

/-- The size beyond which no file can be made to grow. -/
def maxFileSize : Nat := 0x100000000000

/-- The length of the file without the section at its end. It has to hold at least the start of a
module, and what lies past the end of the file has to stay within the limits of files. -/
def cutLength (p : Patcher) (name : String) (size : Nat) : Except Fault Nat :=
  let path := p.path.toString
  let cut := size - p.appendedLength.getD 0
  if cut < 8 then .error (.tooSmall path name)
  else if cut ≤ size then .ok cut.toNat
  else if Reader.positionBound ≤ cut.toNat then .error .offsetTooLarge
  else if maxFileSize < cut.toNat then .error (.file .read path (.refused .invalidArgument none))
  else .ok cut.toNat

/-- What is in the file when the system fails: all that comes before the failure is done. -/
def halfDone (content newSection : Bytes) (cut : Nat) : Interruption → Bytes
  | .opening _ | .sizing | .reading | .cutting _ => content
  | .seeking _ => resize cut content
  | .writing written _ | .flushing written _ => resize cut content ++ newSection.take written
  | .syncing _ => resize cut content ++ newSection

/-- Cut the file once more and write what was cut off behind the cut. -/
def putBack (cut : Nat) (tail : Bytes) (content : Bytes) : Bytes := resize cut content ++ tail

/-- What is in the file after a failure. -/
def afterFailure (content newSection : Bytes) (cut : Nat) (interruption : Interruption) : Bytes :=
  let left := halfDone content newSection cut interruption
  if interruption.isRestored then putBack cut (content.drop cut) left else left

/-- Write the section into the file at a location. -/
def patchFile (p : Patcher) (fs : FileSystem) (name url : String) (location : Location)
    (content : Bytes) (interruption : Option Interruption) : Patched :=
  let path := p.path.toString
  let broken := FileFault.refused .inputOutput none
  let newSection := UrlSection.encode name url
  match interruption, p.cutLength name content.length with
  | some (.opening cause), _ =>
    ⟨.error (.file .openForPatching path (.refused cause (some path))), [], fs⟩
  | some .sizing, _ => ⟨.error (.file .read path broken), [], fs⟩
  | _, .error fault => ⟨.error fault, [], fs⟩
  | some .reading, .ok _ => ⟨.error (.file .read path broken), [], fs⟩
  | some interruption, .ok cut =>
    { result := .error (.file .patch path broken)
      notices := if interruption.isRestored then [] else [.notRestored path broken]
      files := fs.put location (afterFailure content newSection cut interruption) }
  | none, .ok cut =>
    { result := .ok { p with appendedLength := some newSection.length }
      notices := []
      files := fs.put location (resize cut content ++ newSection) }

/-- Write the section that names the source map, in the place of the one before it. The file has to
exist. -/
def patch (p : Patcher) (fs : FileSystem) (url : String) (interruption : Option Interruption) :
    Patched :=
  match p.sectionName with
  | none => ⟨.error .nameNotText, [], fs⟩
  | some name =>
    let path := p.path.toString
    match fs.openFile path with
    | .error fault => ⟨.error (.file .openForPatching path fault), [], fs⟩
    | .ok (location, content) => p.patchFile fs name url location content interruption

end Patcher

end WasmSourceMap
