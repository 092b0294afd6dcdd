import WasmSourceMap.Container.Contents

/-!
# Symbols

The symbol table of an object file lies in its linking section, which is a run of subsections. A
symbol names a function, a piece of a data segment, a section or another entity of the module. Its
address is what debug information uses: a function counts from the start of its code section, and
data lies at the place of its segment.
-/

namespace WasmSourceMap.Container

/-- What a symbol names. -/
inductive SymbolKind where
  | function
  | data
  | global
  | section
  | tag
  | table
  | unknown (code : Nat)
deriving DecidableEq, Repr

namespace SymbolKind

def ofCode : Nat → SymbolKind
  | 0 => .function
  | 1 => .data
  | 2 => .global
  | 3 => .section
  | 4 => .tag
  | 5 => .table
  | code => .unknown code

def code : SymbolKind → Nat
  | .function => 0
  | .data => 1
  | .global => 2
  | .section => 3
  | .tag => 4
  | .table => 5
  | .unknown code => code

end SymbolKind

/-- A symbol. Data symbols have a segment as index and an offset and a size in it. -/
structure Symbol where
  kind : SymbolKind
  flags : Nat
  name : String := ""
  index : Nat := 0
  offset : Nat := 0
  size : Nat := 0
deriving DecidableEq, Repr

namespace Symbol

/-- Whether a flag bit is set. -/
def hasFlag (bit flags : Nat) : Bool := flags / bit % 2 == 1

/-- The symbol is not defined in this module. -/
def isUndefined (s : Symbol) : Bool := hasFlag 0x10 s.flags

/-- The symbol has a name of its own even if it is not defined. -/
def hasExplicitName (s : Symbol) : Bool := hasFlag 0x40 s.flags

/-- The segment, the offset in it and the size of a data symbol; all zero if it is not defined. -/
def readDataPlace (s : Symbol) : Reader Fault Symbol :=
  if s.isUndefined then pure s
  else do
    let index ← Reader.uleb
    let offset ← Reader.uleb
    let size ← Reader.uleb
    return { s with index, offset, size }

/-- The name of a symbol that has one. -/
def readOwnName (s : Symbol) : Reader Fault Symbol :=
  if !s.isUndefined || s.hasExplicitName then do
    let name ← Reader.name
    return { s with name }
  else pure s

/-- What follows the kind and the flags of a symbol. -/
def readBody (s : Symbol) : Reader Fault Symbol :=
  match s.kind with
  | .data => do
    let name ← Reader.name
    readDataPlace { s with name }
  | .section => do
    let index ← Reader.uleb
    return { s with index }
  | _ => do
    let index ← Reader.uleb
    readOwnName { s with index }

def read : Reader Fault Symbol := do
  let kind ← Reader.byte
  let flags ← Reader.uleb
  readBody { kind := .ofCode kind.toNat, flags }

/-- The address of a symbol; what has no place of its own is at zero. -/
def address (contents : Contents) (s : Symbol) : Int :=
  if s.isUndefined then 0
  else
    match s.kind with
    | .function =>
      if contents.importedFunctions ≤ s.index then
        ((contents.functionOffsets[s.index - contents.importedFunctions]?).getD 0 : Nat)
      else 0
    | .data =>
      match contents.segments[s.index]? with
      | some segment => segment.offset + s.offset
      | none => 0
    | _ => 0

end Symbol

/-- The subsection that holds the symbol table. -/
def symbolTableCode : Nat := 8

def linkingVersion : Nat := 2

/-- The symbols of a subsection that holds some. -/
def readSymbolTable (kind : Nat) : Reader Fault (Option (List Symbol)) :=
  if kind = symbolTableCode then do
    let count ← Reader.uleb
    return some (← Reader.times count Symbol.read)
  else pure none

/-- A subsection; the reader stops at its end wherever the symbols end. -/
def readSubsection : Reader Fault (Option (List Symbol)) := do
  let kind ← Reader.byte
  let size ← Reader.uleb
  let start ← Reader.position
  let symbols ← readSymbolTable kind.toNat
  Reader.seek (start + size)
  return symbols

/-- Reading a subsection moves past its start. -/
theorem readSubsection_advances : Reader.Advances readSubsection := by
  intro data position symbols next h
  obtain ⟨kind, p₁, h₁, h⟩ := Reader.bind_done h
  obtain ⟨size, p₂, h₂, h⟩ := Reader.bind_done h
  obtain ⟨start, p₃, h₃, h⟩ := Reader.bind_done h
  obtain ⟨_, p₄, _, h⟩ := Reader.bind_done h
  obtain ⟨_, p₅, h₅, h⟩ := Reader.bind_done h
  obtain ⟨_, rfl⟩ := Reader.pure_done h
  have := Reader.Advances.byte (Reader.mapFault_done h₁)
  have := Reader.Advances.uleb (Reader.mapFault_done h₂)
  have := Reader.position_done h₃
  have := Reader.seek_done (Reader.mapFault_done h₅)
  omega

/-- The symbols of the linking section; of several symbol tables the last one counts. -/
def readLinking (s : Section) : Reader Fault (List Symbol) := do
  Reader.seek s.dataOffset
  let version ← Reader.uleb
  Reader.check (version = linkingVersion) (.badLinkingVersion version)
  let tables ← Reader.repeatUntil s.stop readSubsection readSubsection_advances
  return ((tables.filterMap id).getLast?).getD []

end WasmSourceMap.Container
