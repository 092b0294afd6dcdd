import WasmSourceMap.Dwarf.Sections
import WasmSourceMap.Patcher

/-!
# Sessions

A session is about one module: it is parsed and its debug information is loaded once, and from then
on position tables and source maps are built from it. A module that was read from a file can be
patched.
-/

namespace WasmSourceMap

/-- A parsed module with its debug information. -/
structure Session where
  module : Container.Module
  codeOffset : Nat
  view : Dwarf.View
  memory : Dwarf.Memory
  patcher : Option Patcher

namespace Session

/-- A module from its bytes. -/
def parseModule (data : Bytes) : Except Fault Container.Module :=
  (Container.Module.parse data).mapError .container

/-- A companion from its bytes, if there is one. -/
def parseCompanion (which : Companion) : Option Bytes → Except Fault (Option Container.Module)
  | none => .ok none
  | some data => ((Container.Module.parse data).map some).mapError (.ofCompanion which)

/-- The offset of the code of a module. -/
def codeOffsetOf (m : Container.Module) : Except Fault Nat :=
  m.codeOffset.mapError .missingSection

/-- The debug information of a module. -/
def viewOf (m : Container.Module) (parent supplementary : Option Container.Module) :
    Except Fault Dwarf.View :=
  (Dwarf.View.load m parent supplementary).mapError .relocation

/-- A session about bytes that do not come from a file. -/
def ofBytes (data : Bytes) (parent supplementary : Option Bytes) : Except Fault Session := do
  let module ← parseModule data
  let codeOffset ← codeOffsetOf module
  let parent ← parseCompanion .parent parent
  let supplementary ← parseCompanion .supplementary supplementary
  let view ← viewOf module parent supplementary
  return { module, codeOffset, view, memory := {}, patcher := none }

/-- A session about bytes that were read from a file. -/
def withFile (s : Session) (path : FilePath) (sectionName : Option String) :
    Session × List Notice :=
  let (patcher, notices) := Patcher.ofModule s.module path path.toString sectionName
  ({ s with patcher := some patcher }, notices)

def bytesOfFile (fs : FileSystem) (path : WideString) : Except Fault Bytes :=
  let text := (FilePath.ofString path).toString
  FileAction.read.lift text (fs.read text)

/-- The bytes of a file, if one is given. -/
def readOptional (fs : FileSystem) : Option WideString → Except Fault (Option Bytes)
  | none => .ok none
  | some path => (bytesOfFile fs path).map some

/-- A session about a file, with companions; all files are read before any is parsed. -/
def load (fs : FileSystem) (path : WideString) (parent supplementary : Option WideString)
    (sectionName : Option String) : Except Fault (Session × List Notice) := do
  let data ← bytesOfFile fs path
  let parent ← readOptional fs parent
  let supplementary ← readOptional fs supplementary
  let s ← ofBytes data parent supplementary
  return s.withFile (FilePath.ofString path) sectionName

/-- A result, what is told on the way, and the session after it. -/
structure Answer (α : Type) where
  result : Except Fault α
  notices : List Notice
  session : Session

def table (s : Session) : Answer PositionTable :=
  let built := Position.build s.view s.codeOffset s.memory
  ⟨built.table.mapError .position, built.notices, { s with memory := built.memory }⟩

/-- A position table as a source map. -/
def encode (fs : FileSystem) (bundled : Bool) (file : Option String) (t : PositionTable) :
    Except Fault SourceMap :=
  (SourceMap.encode fs bundled file t).mapError .encode

def sourceMap (s : Session) (fs : FileSystem) (bundled : Bool) (file : Option String) :
    Answer SourceMap :=
  let answer := s.table
  ⟨answer.result.bind (encode fs bundled file), answer.notices, answer.session⟩

def patch (s : Session) (fs : FileSystem) (url : String) (interruption : Option Interruption) :
    Answer Unit × FileSystem :=
  match s.patcher with
  | none => (⟨.error .notFromFile, [], s⟩, fs)
  | some patcher =>
    let patched := patcher.patch fs url interruption
    match patched.result with
    | .ok after => (⟨.ok (), patched.notices, { s with patcher := some after }⟩, patched.files)
    | .error fault => (⟨.error fault, patched.notices, s⟩, patched.files)

end Session

namespace SourceMap

/-- The file system after a source map is written. -/
def save (m : SourceMap) (fs : FileSystem) (path : WideString) : Except Fault FileSystem :=
  FileAction.writeMap.lift path (fs.write path (Text.Utf8.encode m.toText))

end SourceMap

end WasmSourceMap
