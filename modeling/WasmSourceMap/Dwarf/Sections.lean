import WasmSourceMap.Container.Module
import WasmSourceMap.Dwarf.Form
import WasmSourceMap.Relocation.Resolve

/-!
# Debug sections

The debug information of a module lies in custom sections with fixed names. A module is loaded with
its relocations applied. A split object has the sections that are marked as such; they are loaded
as they stand, and a few sections that are missing in it come from the module it was split from.
-/

namespace WasmSourceMap.Dwarf

open Container (Module)

/-- The debug sections by their meaning. -/
inductive SectionKind where
  | info
  | aranges
  | abbreviations
  | frame
  | ehFrame
  | str
  | loc
  | ranges
  | line
  | pubtypes
  | pubnames
  | addr
  | strOffsets
  | lineStr
  | loclists
  | rnglists
  | sup
  | altLink
  | types
deriving DecidableEq, Repr

namespace SectionKind

/-- All kinds, in the order in which they are loaded. -/
def all : List SectionKind :=
  [.info, .aranges, .abbreviations, .frame, .ehFrame, .str, .loc, .ranges, .line, .pubtypes,
   .pubnames, .addr, .strOffsets, .lineStr, .loclists, .rnglists, .sup, .altLink, .types]

/-- The name of the custom section. -/
def name : SectionKind → String
  | .info => ".debug_info"
  | .aranges => ".debug_aranges"
  | .abbreviations => ".debug_abbrev"
  | .frame => ".debug_frame"
  | .ehFrame => ".eh_frame"
  | .str => ".debug_str"
  | .loc => ".debug_loc"
  | .ranges => ".debug_ranges"
  | .line => ".debug_line"
  | .pubtypes => ".debug_pubtypes"
  | .pubnames => ".debug_pubnames"
  | .addr => ".debug_addr"
  | .strOffsets => ".debug_str_offsets"
  | .lineStr => ".debug_line_str"
  | .loclists => ".debug_loclists"
  | .rnglists => ".debug_rnglists"
  | .sup => ".debug_sup"
  | .altLink => ".gnu_debugaltlink"
  | .types => ".debug_types"

/-- The name of the custom section in a split object. -/
def splitName (kind : SectionKind) : String := kind.name ++ ".dwo"

/-- Whether a split object has a section of this kind. -/
def isSplit : SectionKind → Bool
  | .info | .abbreviations | .line | .loc | .loclists | .rnglists => true
  | .str | .strOffsets | .types => true
  | _ => false

/-- The kinds that a split object takes from the module it was split from. -/
def inherited : List SectionKind := [.addr, .ranges, .rnglists]

end SectionKind

/-- A loaded section: its name, its bytes with relocations applied and where its payload lies. -/
structure DebugSection where
  name : String
  data : Bytes
  fileOffset : Nat
deriving DecidableEq, Repr

/-- The loaded sections of a module by kind, with the relocation maps that were applied. -/
structure Sections where
  entries : List (SectionKind × DebugSection)
  maps : List Relocation.Map
deriving Repr

namespace Sections

def get? (s : Sections) (kind : SectionKind) : Option DebugSection :=
  (s.entries.find? fun entry => entry.1 == kind).map (·.2)

/-- The bytes of the section of a kind, which has to be there. -/
def require (s : Sections) (kind : SectionKind) : Except Fault Bytes :=
  match s.get? kind with
  | some found => .ok found.data
  | none => .error .missingSection

/-- Add the sections of a kind under a name, with relocations applied. -/
def loadRelocated (m : Module) (s : Sections) (kind : SectionKind) :
    Except Relocation.Fault Sections :=
  match m.sectionNamed kind.name with
  | none => .ok s
  | some found => do
    let map ← Relocation.resolve kind.name (m.relocationsOf found) m.symbolAddresses
    let data ← map.apply (m.payload found)
    return {
      entries := s.entries ++ [(kind, ⟨kind.name, data, found.dataOffset⟩)]
      maps := s.maps ++ [map] }

/-- All debug sections of a module, with relocations applied. -/
def load (m : Module) : Except Relocation.Fault Sections :=
  SectionKind.all.foldlM (loadRelocated m) ⟨[], []⟩

/-- The section of a kind in a split object, as it stands. -/
def findSplit? (m : Module) (kind : SectionKind) : Option (SectionKind × DebugSection) :=
  if kind.isSplit then
    (m.sectionNamed kind.splitName).map fun found =>
      (kind, ⟨kind.splitName, m.payload found, found.dataOffset⟩)
  else none

/-- All debug sections of a split object, as they stand. -/
def loadSplit (m : Module) : Sections := ⟨SectionKind.all.filterMap (findSplit? m), []⟩

/-- The sections together with those of a parent that are inherited and missing. -/
def inherit (s parent : Sections) : Sections :=
  { s with
    entries := s.entries ++ parent.entries.filter fun entry =>
      SectionKind.inherited.contains entry.1 && (s.get? entry.1).isNone }

end Sections

/-- The debug information of a module: its sections and those of a supplementary file. -/
structure View where
  sections : Sections
  supplementary : Option Sections
deriving Repr

namespace View

/-- The own sections of a module; with a parent the module is a split object. -/
def loadSections (m : Module) (parent : Option Module) : Except Relocation.Fault Sections :=
  match parent with
  | none => Sections.load m
  | some parent => return (Sections.loadSplit m).inherit (← Sections.load parent)

/-- The debug information of a module. -/
def load (m : Module) (parent supplementary : Option Module) : Except Relocation.Fault View := do
  let sections ← loadSections m parent
  match supplementary with
  | none => return ⟨sections, none⟩
  | some other => return ⟨sections, some (← Sections.load other)⟩

/-- The text at an offset of a string section. -/
def stringIn (s : Sections) (kind : SectionKind) (offset : Int) : Except Fault Value := do
  let data ← s.require kind
  return Value.ofString? (← stringAt data offset)

end View

end WasmSourceMap.Dwarf
