import WasmSourceMap.Container.Relocation
import WasmSourceMap.Relocation.Map

/-!
# Resolving relocations

Each relocation of a section becomes a field with the address of its symbol plus the addend. The
first relocation that is not an absolute address, or whose symbol does not exist, or whose offset
was seen before is the fault of the whole list; they are tested in this order.
-/

namespace WasmSourceMap.Relocation

open Container (RelocationKind)

/-- The address of the symbol of a relocation, zero if it has none. -/
def symbolAddress? (addresses : List Int) : Option Int → Option Int
  | none => some 0
  | some (.ofNat index) => addresses[index]?
  | some (.negSucc _) => none

/-- Add the field of one relocation. -/
def resolveEntry (addresses : List Int) (m : Map) (entry : Container.Relocation) :
    Except Fault Map :=
  match entry.kind with
  | .other => .error (.unsupported m.sectionName entry.offset)
  | .absolute width =>
    match symbolAddress? addresses entry.symbol with
    | none => .error (.unresolved m.sectionName entry.offset)
    | some address => m.insert entry.offset (address + entry.addend) width

/-- The relocation map of a section from its relocations and the addresses of all symbols. -/
def resolve (sectionName : String) (entries : List Container.Relocation) (addresses : List Int) :
    Except Fault Map :=
  entries.foldlM (resolveEntry addresses) (Map.empty sectionName)

end WasmSourceMap.Relocation
