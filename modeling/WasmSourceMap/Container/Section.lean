import WasmSourceMap.Container.Fault
import WasmSourceMap.Reader.Progress

/-!
# Sections

A section is an id byte, a length and so many bytes of content. The content of a custom section
begins with a name, and its payload is what follows the name; the payload of any other section is
its content. Reading a section stops at its end.
-/

namespace WasmSourceMap.Container

/-- Where a section lies in the file. -/
structure Section where
  id : Nat
  headerOffset : Nat
  offset : Nat
  size : Nat
  name : String
  dataOffset : Nat
deriving DecidableEq, Repr

namespace Section

def customId : Nat := 0
def importId : Nat := 2
def codeId : Nat := 10
def dataId : Nat := 11

/-- The offset just past the section. -/
def stop (s : Section) : Nat := s.offset + s.size

/-- The length of the section with its id byte and its length field. -/
def totalSize (s : Section) : Nat := s.stop - s.headerOffset

/-- Whether the section is a custom section of a given name. -/
def isNamed (name : String) (s : Section) : Bool := s.id == customId && s.name == name

/-- The id and the length of a section, with the offsets of the header and of the content. -/
def readHeader : Reader Fault Section := do
  let headerOffset ← Reader.position
  let id ← Reader.byte
  let size ← Reader.uleb
  let offset ← Reader.position
  return { id := id.toNat, headerOffset, offset, size, name := "", dataOffset := offset }

/-- The name of a custom section and the offset of its payload; other sections have neither. -/
def readName (s : Section) : Reader Fault Section :=
  if s.id = customId then do
    let name ← Reader.name
    let dataOffset ← Reader.position
    Reader.check (dataOffset ≤ s.stop) (.nameOverrun s.offset)
    return { s with name, dataOffset }
  else pure s

/-- A section; its content is skipped. -/
def read : Reader Fault Section := do
  let header ← readHeader
  let length ← Reader.length
  Reader.check (header.stop ≤ length) (.sectionOverrun header.id header.headerOffset)
  let s ← readName header
  Reader.seek header.stop
  return s

/-- The header that is read begins where the reader stood, and its content lies after it. -/
theorem readHeader_done {data : Bytes} {position next : Nat} {s : Section}
    (h : readHeader data position = .done s next) :
    s.headerOffset = position ∧ position < s.offset ∧ s.offset = next := by
  obtain ⟨headerOffset, p₁, h₁, h⟩ := Reader.bind_done h
  obtain ⟨id, p₂, h₂, h⟩ := Reader.bind_done h
  obtain ⟨size, p₃, h₃, h⟩ := Reader.bind_done h
  obtain ⟨offset, p₄, h₄, h⟩ := Reader.bind_done h
  obtain ⟨e₁, rfl⟩ := Reader.position_done h₁
  have a₂ := Reader.Advances.byte (Reader.mapFault_done h₂)
  have a₃ := Reader.Advances.uleb (Reader.mapFault_done h₃)
  obtain ⟨e₄, rfl⟩ := Reader.position_done h₄
  obtain ⟨rfl, rfl⟩ := Reader.pure_done h
  exact ⟨e₁, by simp only; omega, rfl⟩

/-- A name does not change where a section ends. -/
theorem readName_stop {header s : Section} {data : Bytes} {position next : Nat}
    (h : readName header data position = .done s next) : s.stop = header.stop := by
  unfold readName at h
  split at h
  · obtain ⟨name, p₁, _, h⟩ := Reader.bind_done h
    obtain ⟨dataOffset, p₂, _, h⟩ := Reader.bind_done h
    obtain ⟨_, p₃, _, h⟩ := Reader.bind_done h
    obtain ⟨rfl, _⟩ := Reader.pure_done h
    rfl
  · obtain ⟨rfl, _⟩ := Reader.pure_done h
    rfl

/-- Reading a section moves to its end, past its start. -/
theorem read_done {data : Bytes} {position next : Nat} {s : Section}
    (h : read data position = .done s next) : s.stop = next ∧ position < next := by
  obtain ⟨header, p₁, h₁, h⟩ := Reader.bind_done h
  obtain ⟨_, p₂, _, h⟩ := Reader.bind_done h
  obtain ⟨_, p₃, _, h⟩ := Reader.bind_done h
  obtain ⟨_, p₄, h₄, h⟩ := Reader.bind_done h
  obtain ⟨_, p₅, h₅, h⟩ := Reader.bind_done h
  obtain ⟨rfl, rfl⟩ := Reader.pure_done h
  have starts := readHeader_done h₁
  have same := readName_stop h₄
  have ends := Reader.seek_done (Reader.mapFault_done h₅)
  simp only [stop] at *
  omega

end Section

end WasmSourceMap.Container
