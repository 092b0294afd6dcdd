import WasmSourceMap.Reader

/-!
# Faults of the container

Why bytes are not a module. All causes but one mean that the module is malformed; the exception is a
length so large that no position can hold it (`unreadable .outOfRange`).
-/

namespace WasmSourceMap.Container

/-- Why bytes are not a module. -/
inductive Fault where
  | tooShort
  | badMagic (magic : Nat)
  | badVersion (version : Nat)
  | sectionOverrun (id headerOffset : Nat)
  | nameOverrun (offset : Nat)
  | unknownImport (kind : Nat)
  | badOffsetExpression (opcode : Nat)
  | badLinkingVersion (version : Nat)
  | unknownTarget (name : String) (target : Nat)
  | relocationInName (name : String)
  | unreadable (fault : ReadFault)
deriving DecidableEq, Repr

def Fault.message : Fault → String
  | .tooShort => "Data is too short to be a WebAssembly module"
  | .badMagic magic => "Invalid WebAssembly magic: 0x" ++ Text.Hexadecimal.upperPadded 8 magic
  | .badVersion version => s!"Unsupported WebAssembly version: {version}"
  | .sectionOverrun id headerOffset =>
    s!"Section {id} at offset 0x" ++ Text.Hexadecimal.ofNat headerOffset ++
      " extends past the end of the module"
  | .nameOverrun offset =>
    "Custom section name at offset 0x" ++ Text.Hexadecimal.ofNat offset ++ " overruns the section"
  | .unknownImport kind => s!"Unknown import kind {kind}"
  | .badOffsetExpression opcode =>
    "Unsupported segment offset expression 0x" ++ Text.Hexadecimal.ofIntPadded 2 opcode
  | .badLinkingVersion version => s!"Unsupported linking section version: {version}"
  | .unknownTarget name target => s!"Relocation section {name} targets unknown section {target}"
  | .relocationInName name =>
    s!"Relocation in {name} points into the name of its target section"
  | .unreadable fault => "Truncated WebAssembly module: " ++ fault.message

/-- Whether the fault says that the module is malformed. -/
def Fault.isMalformed : Fault → Bool
  | .unreadable .outOfRange => false
  | _ => true

instance : MonadLift (Reader ReadFault) (Reader Fault) := ⟨Reader.mapFault .unreadable⟩

end WasmSourceMap.Container
