import WasmSourceMap.Container.Section

/-!
# Contents of imports, code and data

What the sections of a module say about its functions and its memory: how many functions are
imported, where each function body starts and which data segments there are. Several sections of a
kind accumulate in file order. Counts are taken as they stand and not held against the end of the
section.
-/

namespace WasmSourceMap.Container

/-- A data segment: the memory and the offset where it is placed, its size and where its bytes lie.
-/
structure Segment where
  memoryIndex : Nat
  offset : Int
  size : Nat
  dataOffset : Nat
deriving DecidableEq, Repr

/-- What the sections say about functions and data. Function offsets count from the content of the
code section that holds the function. -/
structure Contents where
  importedFunctions : Nat := 0
  functionOffsets : List Nat := []
  segments : List Segment := []
deriving DecidableEq, Repr

namespace Contents

instance : Append Contents where
  append a b :=
    { importedFunctions := a.importedFunctions + b.importedFunctions
      functionOffsets := a.functionOffsets ++ b.functionOffsets
      segments := a.segments ++ b.segments }

/-- The contents of many sections together. -/
def concat (parts : List Contents) : Contents := parts.foldr (· ++ ·) {}

/-- The limits of a table or a memory; the lowest flag says that there is a maximum. -/
def readLimits : Reader Fault Unit := do
  let flags ← Reader.uleb
  let _minimum ← Reader.uleb
  if flags % 2 = 1 then
    let _maximum ← Reader.uleb

/-- What follows the kind of an import; whether it imports a function. -/
def readImportDescription : Nat → Reader Fault Bool
  | 0 => do
    let _type ← Reader.uleb
    return true
  | 1 => do
    let _reference ← Reader.byte
    readLimits
    return false
  | 2 => do
    readLimits
    return false
  | 3 => do
    let _value ← Reader.byte
    let _mutability ← Reader.byte
    return false
  | 4 => do
    let _attribute ← Reader.byte
    let _type ← Reader.uleb
    return false
  | kind => Reader.fail (.unknownImport kind)

/-- One import; whether it imports a function. -/
def readImport : Reader Fault Bool := do
  let _module ← Reader.name
  let _field ← Reader.name
  let kind ← Reader.byte
  readImportDescription kind.toNat

/-- The number of imported functions. -/
def readImports : Reader Fault Nat := do
  let count ← Reader.uleb
  let imports ← Reader.times count readImport
  return imports.count true

/-- The start of a function body from `base` on; the body is skipped. -/
def readFunctionOffset (base : Nat) : Reader Fault Nat := do
  let start ← Reader.position
  let size ← Reader.uleb
  let body ← Reader.position
  Reader.seek (body + size)
  return start - base

/-- The starts of all function bodies from `base` on. -/
def readFunctionOffsets (base : Nat) : Reader Fault (List Nat) := do
  let count ← Reader.uleb
  Reader.times count (readFunctionOffset base)

/-- The operand of a constant instruction; the value of any other instruction is taken as zero. -/
def readOperand (opcode : Nat) : Reader Fault Int :=
  if opcode = 0x41 ∨ opcode = 0x42 then Reader.sleb
  else if opcode = 0x23 then do
    let _global ← Reader.uleb
    return 0
  else pure 0

/-- A constant expression of one instruction and its end. -/
def readOffsetExpression : Reader Fault Int := do
  let opcode ← Reader.byte
  let value ← readOperand opcode.toNat
  let final ← Reader.byte
  Reader.check (final = 0x0B) (.badOffsetExpression opcode.toNat)
  return value

/-- Where a segment is placed: a passive segment nowhere, an active one at its expression, with an
explicit memory if the flags are 2. -/
def readPlacement (flags : Nat) : Reader Fault (Nat × Int) :=
  if flags = 1 then pure (0, 0)
  else do
    let memoryIndex ← if flags = 2 then Reader.uleb else pure 0
    let offset ← readOffsetExpression
    return (memoryIndex, offset)

/-- A data segment; its bytes are skipped. -/
def readSegment : Reader Fault Segment := do
  let flags ← Reader.uleb
  let (memoryIndex, offset) ← readPlacement flags
  let size ← Reader.uleb
  let dataOffset ← Reader.position
  Reader.seek (dataOffset + size)
  return { memoryIndex, offset, size, dataOffset }

def readSegments : Reader Fault (List Segment) := do
  let count ← Reader.uleb
  Reader.times count readSegment

/-- The contents of a section, which the reader is at the start of. -/
def readBody (s : Section) : Reader Fault Contents :=
  if s.id = Section.importId then do
    return { importedFunctions := ← readImports }
  else if s.id = Section.codeId then do
    return { functionOffsets := ← readFunctionOffsets s.offset }
  else if s.id = Section.dataId then do
    return { segments := ← readSegments }
  else pure {}

/-- A section with its contents; the reader stops at the end of the section wherever the contents
end. -/
def readSection : Reader Fault (Section × Contents) := do
  let s ← Section.read
  Reader.seek s.offset
  let contents ← readBody s
  Reader.seek s.stop
  return (s, contents)

/-- Reading a section with its contents moves to its end, past its start. -/
theorem readSection_done {data : Bytes} {position next : Nat} {r : Section × Contents}
    (h : readSection data position = .done r next) : r.1.stop = next ∧ position < next := by
  obtain ⟨s, p₁, h₁, h⟩ := Reader.bind_done h
  obtain ⟨_, p₂, _, h⟩ := Reader.bind_done h
  obtain ⟨contents, p₃, _, h⟩ := Reader.bind_done h
  obtain ⟨_, p₄, h₄, h⟩ := Reader.bind_done h
  obtain ⟨rfl, rfl⟩ := Reader.pure_done h
  have ends := Reader.seek_done (Reader.mapFault_done h₄)
  have := Section.read_done h₁
  dsimp only
  omega

theorem readSection_advances : Reader.Advances readSection :=
  fun _ _ _ _ h => (readSection_done h).2

end Contents

end WasmSourceMap.Container
