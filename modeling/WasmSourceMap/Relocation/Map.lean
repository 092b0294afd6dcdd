import WasmSourceMap.Bytes
import WasmSourceMap.Text.Hexadecimal

/-!
# Relocation maps

A relocation map gives the final values of fields of one section: at most one value per offset, in
the order of insertion. `apply` writes the values over the bytes of the section one after the other,
so where fields overlap the later one wins.
-/

namespace WasmSourceMap.Relocation

/-- Why relocations cannot be resolved or written. -/
inductive Fault where
  | unsupported (sectionName : String) (offset : Int)
  | outside (sectionName : String) (offset : Int)
  | unresolved (sectionName : String) (offset : Int)
  | duplicate (sectionName : String) (offset : Int)
  | negativeWidth
deriving DecidableEq, Repr

def Fault.message : Fault → String
  | .unsupported name offset =>
    s!"Unsupported relocation for section {name} at offset 0x" ++ shown offset
  | .outside name offset =>
    s!"Relocation for section {name} at offset 0x" ++ shown offset ++ " lies outside the section"
  | .unresolved name offset =>
    s!"Relocation with invalid symbol for section {name} at offset 0x" ++ shown offset
  | .duplicate name offset =>
    s!"Multiple relocations for section {name} at offset 0x" ++ shown offset
  | .negativeWidth => "Negative field width"
where
  shown (offset : Int) : String := Text.Hexadecimal.ofIntPadded 8 offset

/-- A field of a section: its offset, its value and its width in bytes. -/
structure Field where
  offset : Int
  value : Nat
  width : Int
deriving DecidableEq, Repr

/-- The fields of a section, in the order of insertion. -/
structure Map where
  sectionName : String
  fields : List Field
deriving DecidableEq, Repr

namespace Map

def empty (sectionName : String) : Map := ⟨sectionName, []⟩

def get? (m : Map) (offset : Int) : Option Nat :=
  (m.fields.find? fun field => field.offset == offset).map (·.value)

def contains (m : Map) (offset : Int) : Bool := (m.get? offset).isSome

def size (m : Map) : Nat := m.fields.length

/-- Values have 64 bits, so they stay below this bound. -/
def valueBound : Int := 0x10000000000000000

/-- Add a field; its value is kept modulo the bound. An offset that has a field is refused. -/
def insert (m : Map) (offset value width : Int) : Except Fault Map :=
  if m.contains offset then .error (.duplicate m.sectionName offset)
  else .ok { m with fields := m.fields ++ [⟨offset, (value % valueBound).toNat, width⟩] }

/-- The value at an offset: that of its field, else the value given. -/
def relocate (m : Map) (offset value : Int) : Int :=
  match m.get? offset with
  | some relocated => relocated
  | none => value

/-- Place an item in a list that ascends by its first part. -/
def insertByOffset (item : Int × Nat) : List (Int × Nat) → List (Int × Nat)
  | [] => [item]
  | next :: rest =>
    if item.1 ≤ next.1 then item :: next :: rest else next :: insertByOffset item rest

/-- The offsets and values in ascending order of the offset. -/
def items (m : Map) : List (Int × Nat) :=
  m.fields.foldr (fun field sorted => insertByOffset (field.offset, field.value) sorted) []

/-- Write one field over the bytes, truncated to its width. -/
def writeField (sectionName : String) (data : Bytes) (field : Field) : Except Fault Bytes :=
  if data.length < field.offset + field.width then .error (.outside sectionName field.offset)
  else
    match field.width with
    | .ofNat width =>
      .ok (data.splice field.offset (field.offset + width) (Bytes.ofNatLE width field.value))
    | .negSucc _ => .error .negativeWidth

/-- Write all fields over the bytes in the order of insertion. -/
def apply (m : Map) (data : Bytes) : Except Fault Bytes :=
  m.fields.foldlM (writeField m.sectionName) data

end Map

end WasmSourceMap.Relocation
