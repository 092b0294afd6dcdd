import WasmSourceMap.ByteStream
import WasmSourceMap.Container.Relocation

/-!
# Modules

`Module.parse` reads a whole module: the sections one after the other, then the symbols of the
linking section, since symbols refer to code and data, then the relocation sections, since they
refer to symbols. All questions about a parsed module are answered from the sections and their
bytes. A payload is a stretch of the bytes (`Module.payload`); read from a stream over them, it
leaves the stream at the end of the section (`Section.readPayload`).
-/

namespace WasmSourceMap.Container

/-- The first four bytes of a module as a number. -/
def magic : Nat := 0x6D736100

def containerVersion : Nat := 1

/-- A parsed module. The relocation sections are in file order. -/
structure Module where
  data : Bytes
  sections : List Section
  contents : Contents
  symbols : List Symbol
  relocations : List RelocationSection
deriving Repr

/-- A section that has to be there is not. -/
inductive MissingSection where
  | code
deriving DecidableEq, Repr

def MissingSection.message : MissingSection → String
  | .code => "The WASM file does not contain a code section"

/-- The payload of a section, read from a stream over the module wherever the stream stands. -/
def Section.readPayload (s : Section) (stream : ByteStream) :
    Except StreamFault Bytes × ByteStream :=
  match stream.seek s.dataOffset with
  | (.ok (), there) => there.bytes (s.stop - s.dataOffset)
  | (.error fault, there) => (.error fault, there)

namespace Module

/-- The magic number and the version. -/
def readPreamble : Reader Fault Unit := do
  let length ← Reader.length
  Reader.check (8 ≤ length) .tooShort
  let first ← Reader.unsigned 4
  Reader.check (first = magic) (.badMagic first)
  let version ← Reader.unsigned 4
  Reader.check (version = containerVersion) (.badVersion version)

/-- All sections up to the end of the data, with their contents. -/
def readSections : Reader Fault (List (Section × Contents)) := do
  let length ← Reader.length
  Reader.repeatUntil length Contents.readSection Contents.readSection_advances

/-- The symbols of the linking section, if there is one. -/
def readSymbols (sections : List Section) : Reader Fault (List Symbol) :=
  match sections.find? (Section.isNamed "linking") with
  | some s => readLinking s
  | none => pure []

/-- The bytes of a module as a module. -/
def read : Reader Fault Module := fun data position =>
  let reader : Reader Fault Module := do
    readPreamble
    let parts ← readSections
    let sections := parts.map Prod.fst
    let symbols ← readSymbols sections
    let relocations ←
      RelocationSection.readAll sections (sections.filter RelocationSection.isRelocation)
    let contents := Contents.concat (parts.map Prod.snd)
    return { data, sections, contents, symbols, relocations }
  reader data position

/-- The module that the bytes are. -/
def parse (data : Bytes) : Except Fault Module := read.run data 0

/-- The first custom section of a name. -/
def sectionNamed (m : Module) (name : String) : Option Section :=
  m.sections.find? (Section.isNamed name)

def sectionIndex (m : Module) (s : Section) : Nat := m.sections.idxOf s

def payload (m : Module) (s : Section) : Bytes :=
  (m.data.drop s.dataOffset).take (s.stop - s.dataOffset)

/-- The relocations of the section with an index: the last relocation section for it counts. -/
def relocationsAt (m : Module) (index : Nat) : Option (List Relocation) :=
  (m.relocations.reverse.find? fun r => r.target == index).map (·.entries)

/-- The relocations of a section, with offsets in its payload. -/
def relocationsOf (m : Module) (s : Section) : List Relocation :=
  (m.relocationsAt (m.sectionIndex s)).getD []

/-- The sections with relocations, in ascending order of their index. -/
def relocatedSections (m : Module) : List (Nat × List Relocation) :=
  (List.range m.sections.length).filterMap fun index =>
    (m.relocationsAt index).map fun entries => (index, entries)

def symbolAddresses (m : Module) : List Int := m.symbols.map (Symbol.address m.contents)

/-- The index of the last section with an id. -/
def lastIndex? (m : Module) (id : Nat) : Option Nat :=
  (List.range m.sections.length).reverse.find? fun index =>
    (m.sections[index]?).any fun s => s.id == id

/-- The offset of the content of the last code section. -/
def codeOffset (m : Module) : Except MissingSection Nat :=
  match m.sections.reverse.find? fun s => s.id == Section.codeId with
  | some s => .ok s.offset
  | none => .error .code

end Module

end WasmSourceMap.Container
