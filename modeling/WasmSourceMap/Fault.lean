import WasmSourceMap.Container.Module
import WasmSourceMap.Position.Build
import WasmSourceMap.Relocation.Map
import WasmSourceMap.SourceMap.Encode
import WasmSourceMap.SourceMap.Mapping

/-!
# Faults of a run

Everything that can stop an operation, from the module to the command line. Most faults are reported
to the user; the others are defects of the input that nobody foresaw and end the program.
-/

namespace WasmSourceMap

/-- What was tried with a file. -/
inductive FileAction where
  | read
  | openForPatching
  | patch
  | writeMap
  | readConfig
  | writeConfig
  | test
deriving DecidableEq, Repr

def FileAction.failed (path : WideString) : FileAction → WideString
  | .read => "Cannot read " ++ path
  | .openForPatching => "Cannot open " ++ path ++ " for patching"
  | .patch => "Cannot patch " ++ path
  | .writeMap => "Cannot write source map " ++ path
  | .readConfig => "Cannot read config " ++ path
  | .writeConfig => "Cannot write config " ++ path
  | .test => "Cannot look at " ++ path

/-- The modules that complete the debug information of another. -/
inductive Companion where
  | parent
  | supplementary
deriving DecidableEq, Repr

/-- The name of a companion in messages. -/
def Companion.name : Companion → String
  | .parent => "DWO parent file"
  | .supplementary => "Supplemental file"

/-- What can stop an operation. -/
inductive Fault where
  | container (fault : Container.Fault)
  | companion (which : Companion) (fault : Container.Fault)
  | missingSection (missing : Container.MissingSection)
  | relocation (fault : Relocation.Fault)
  | position (fault : Position.Fault)
  | encode (fault : SourceMap.EncodeFault)
  | mapping (fault : Mapping.Fault)
  | file (action : FileAction) (path : WideString) (fault : FileFault)
  | badConfig (path : WideString)
  | configNotObject
  | notFromFile
  | tooSmall (path : WideString) (sectionName : String)
  | offsetTooLarge
  | nameNotText
  | suffixNotText
  | badMapName
  | notUtf8
deriving DecidableEq, Repr

namespace Fault

/-- The fault of a companion: a malformed one is named, any other fault stays what it is. -/
def ofCompanion (which : Companion) (fault : Container.Fault) : Fault :=
  if fault.isMalformed then .companion which fault else .container fault

/-- Whether a fault is reported to the user. -/
def isReported : Fault → Bool
  | .container fault => fault.isMalformed
  | .companion .. => true
  | .missingSection _ => true
  | .relocation fault => fault != .negativeWidth
  | .position (.debugInfo _) => false
  | .position _ => true
  | .file .test .. => false
  | .file _ _ .zeroInPath => false
  | .file _ _ .surrogateInPath => false
  | .file .. => true
  | .badConfig _ => true
  | .notFromFile => true
  | .tooSmall .. => true
  | _ => false

def message : Fault → WideString
  | .container fault => fault.message
  | .companion which fault => which.name ++ " is not a WASM file: " ++ fault.message
  | .missingSection missing => missing.message
  | .relocation fault => fault.message
  | .position fault => fault.message
  | .encode .missingPath => "A point with a line has no source path"
  | .encode .zeroInPath => FileFault.zeroInPath.message
  | .mapping (.badNumber fault) => fault.message
  | .mapping _ => "Not a source map"
  | .file action path fault => action.failed path ++ ": " ++ fault.message
  | .badConfig path => FileAction.readConfig.failed path
  | .configNotObject => "The configuration is not an object"
  | .notFromFile => "The module was not loaded from a file and cannot be patched"
  | .tooSmall path sectionName =>
    path ++ " is too small to hold the recorded " ++ sectionName ++ " section"
  | .offsetTooLarge => "Offset out of range"
  | .nameNotText => "The section name is not a text"
  | .suffixNotText => "The suffix is not a text"
  | .badMapName => "The name of the source map is not the name of a file"
  | .notUtf8 => "A string with surrogates has no bytes in UTF-8"

end Fault

/-- The value of an operation on a file, or its fault with what was tried. -/
def FileAction.lift {α : Type} (action : FileAction) (path : WideString) :
    Except FileFault α → Except Fault α
  | .ok a => .ok a
  | .error fault => .error (.file action path fault)

end WasmSourceMap
