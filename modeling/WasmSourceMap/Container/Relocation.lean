import WasmSourceMap.Container.Symbol

/-!
# Relocations

A relocation section lists the places of one target section that wait for the address of a symbol.
The offsets in the file count from the content of the target section; here they count from its
payload, so a custom section's name is subtracted and no relocation may point into it.
-/

namespace WasmSourceMap.Container

/-- Whether a relocation stores an address of some width as it is. -/
inductive RelocationKind where
  | absolute (width : Int)
  | other
deriving DecidableEq, Repr

/-- A place that waits for an address: its offset, the code and the kind of relocation, the index of
the symbol and what is added to its address. -/
structure Relocation where
  offset : Int
  code : Nat
  kind : RelocationKind
  symbol : Option Int
  addend : Int
deriving DecidableEq, Repr

/-- The relocations of one section. -/
structure RelocationSection where
  target : Nat
  entries : List Relocation
deriving DecidableEq, Repr

/-- The kind of a relocation code: addresses in memory, in a function and in a section, with 32 bits
and with 64. -/
def RelocationKind.ofCode (code : Nat) : RelocationKind :=
  if [5, 8, 9].contains code then .absolute 4
  else if [16, 22].contains code then .absolute 8
  else .other

/-- The width of a relocated field, zero if it is not an address as it is. -/
def RelocationKind.width : RelocationKind → Int
  | .absolute width => width
  | .other => 0

namespace Relocation

/-- The codes with an addend. -/
def codesWithAddend : List Nat := [3, 4, 5, 8, 9, 11, 14, 15, 16, 17, 21, 22, 23, 25]

/-- The addend of a code that has one. -/
def readAddend (code : Nat) : Reader Fault Int :=
  if codesWithAddend.contains code then Reader.sleb else pure 0

/-- A relocation of a target whose name takes `nameSize` bytes. -/
def read (sectionName : String) (nameSize : Nat) : Reader Fault Relocation := do
  let code ← Reader.byte
  let offset ← Reader.uleb
  let symbol ← Reader.uleb
  let addend ← readAddend code.toNat
  Reader.check (nameSize ≤ offset) (.relocationInName sectionName)
  return {
    offset := offset - nameSize
    code := code.toNat
    kind := .ofCode code.toNat
    symbol := some symbol
    addend }

end Relocation

/-- The start of the name of a relocation section. -/
def relocationMark : String := "reloc."

namespace RelocationSection

/-- Whether a section holds relocations. -/
def isRelocation (s : Section) : Bool :=
  s.id == Section.customId && relocationMark.toList.isPrefixOf s.name.toList

/-- The relocations of a target among the sections of the module. -/
def readEntries (sections : List Section) (s : Section) (target : Nat) :
    Reader Fault (List Relocation) :=
  match sections[target]? with
  | none => Reader.fail (.unknownTarget s.name target)
  | some t => do
    let count ← Reader.uleb
    Reader.times count (Relocation.read s.name (t.dataOffset - t.offset))

def read (sections : List Section) (s : Section) : Reader Fault RelocationSection := do
  Reader.seek s.dataOffset
  let target ← Reader.uleb
  let entries ← readEntries sections s target
  return { target, entries }

/-- All relocation sections among some sections, in their order. -/
def readAll (sections : List Section) : List Section → Reader Fault (List RelocationSection)
  | [] => pure []
  | s :: rest => do
    let first ← read sections s
    return first :: (← readAll sections rest)

end RelocationSection

end WasmSourceMap.Container
