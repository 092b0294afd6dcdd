import WasmSourceMap.Dwarf.Abbreviation
import WasmSourceMap.Dwarf.Sections
import WasmSourceMap.Dwarf.UnitHeader

/-!
# The top entry of a unit

The top entry describes the unit as a whole. Its attributes are read one after the other, each with
its value. A form that is an index into a table needs a base which is itself an attribute, so these
values are looked up when all attributes are there, in the order of the attributes and in place.
-/

namespace WasmSourceMap.Dwarf

/-- An attribute of an entry; the raw value is what lies in the data. -/
structure Attribute where
  name : Nat
  form : Form
  raw : Value
  value : Value
deriving DecidableEq, Repr

namespace AttributeName

def lineTable : Nat := 0x10
def compilationDirectory : Nat := 0x1B
def stringOffsetsBase : Nat := 0x72
def addressBase : Nat := 0x73
def rangeListsBase : Nat := 0x74
def locationListsBase : Nat := 0x8C

end AttributeName

/-- The attributes of an entry, each name once, in the order of first appearance. -/
abbrev Attributes := List Attribute

namespace Attributes

def get? (attributes : Attributes) (name : Nat) : Option Value :=
  (attributes.find? fun a => a.name == name).map (·.value)

/-- Put an attribute in the place of the one with its name, or at the end. -/
def insert (a : Attribute) : Attributes → Attributes
  | [] => [a]
  | b :: rest => if b.name = a.name then a :: rest else b :: insert a rest

end Attributes

/-- The form and the raw value behind a form number in the data, through any number of further form
numbers. -/
def readIndirectAt (l : Layout) (data : Bytes) (position : Nat) : Outcome Fault (Form × Value) :=
  match _h : Reader.uleb data position with
  | .failed fault next => .failed (.ofRead fault) next
  | .done code next =>
    match Form.ofCode? code with
    | none => .failed .undecodable next
    | some .indirect => readIndirectAt l data next
    | some form =>
      match form.readRaw l data next with
      | .done raw last => .done (form, raw) last
      | .failed fault last => .failed fault last
termination_by data.length - position
decreasing_by have := Reader.Consumes.uleb _h; omega

/-- The form and the raw value of an attribute. -/
def readRaw (l : Layout) (spec : AttributeSpec) : Reader Fault (Form × Value) := do
  match ← Reader.ofExcept (Form.known spec.form) with
  | .implicitConstant => return (.implicitConstant, .integer spec.constant)
  | .indirect => readIndirectAt l
  | form => return (form, ← form.readRaw l)

namespace View

/-- The text at an offset of the supplementary file, or the offset itself if there is no such file.
-/
def supplementaryString (v : View) (offset : Int) : Except Fault Value :=
  match v.supplementary with
  | some other => stringIn other .str offset
  | none => .ok (.integer offset)

/-- What a raw value stands for, as far as it does not need other attributes. -/
def interpret (v : View) (form : Form) (raw : Value) : Except Fault Value :=
  match form, raw with
  | .stringOffset, .integer offset => stringIn v.sections .str offset
  | .lineStringOffset, .integer offset => stringIn v.sections .lineStr offset
  | .supplementaryStringOffset, .integer offset => v.supplementaryString offset
  | .flag, .integer n => .ok (.boolean (n != 0))
  | .flagPresent, _ => .ok (.boolean true)
  | _, value => .ok value

def readAttribute (v : View) (l : Layout) (spec : AttributeSpec) : Reader Fault Attribute := do
  let (form, raw) ← readRaw l spec
  let value ← Reader.ofExcept (v.interpret form raw)
  return { name := spec.name, form, raw, value }

/-- The attributes of an entry; of a repeated attribute the last one counts. -/
def readAttributes (v : View) (l : Layout) :
    List AttributeSpec → Attributes → Reader Fault Attributes
  | [], attributes => pure attributes
  | spec :: rest, attributes => do
    let a ← v.readAttribute l spec
    readAttributes v l rest (attributes.insert a)

/-- The attributes that the abbreviation with a code declares for a unit. -/
def abbreviationFor (v : View) (u : UnitHeader) (code : Nat) : Except Fault Abbreviation := do
  let data ← v.sections.require .abbreviations
  let table ← Abbreviation.table data u.abbreviationOffset
  Abbreviation.find table code

/-- The attributes of the top entry of a unit, with indexes not looked up. -/
def readEntry (v : View) (u : UnitHeader) : Reader Fault Attributes := do
  let code ← Reader.uleb
  if code = 0 then return []
  else
    let abbreviation ← Reader.ofExcept (v.abbreviationFor u code)
    v.readAttributes u.layout abbreviation.attributes []

/-- The base that an attribute gives; an index cannot be looked up without it. -/
def base (attributes : Attributes) (name : Nat) : Except Fault Int :=
  match attributes.get? name with
  | none => .error .undecodable
  | some value =>
    match value.toInt? with
    | some n => .ok n
    | none => .error .wrongKind

/-- The number of some width at an offset of a section. -/
def numberAt (data : Bytes) (width : Nat) (offset : Int) : Except Fault Int :=
  let reader : Reader Fault Nat := do
    seekTo offset
    Reader.unsigned width
  (reader.run data 0).map Int.ofNat

/-- The offset in a table of offsets at an index from the base. -/
def tableOffset (v : View) (l : Layout) (attributes : Attributes) (kind : SectionKind)
    (baseName : Nat) (index : Int) : Except Fault (Int × Int) := do
  let data ← v.sections.require kind
  let start ← base attributes baseName
  return (start, ← numberAt data l.offsetWidth (start + index * l.offsetWidth))

/-- The address at an index from the base. A missing section makes the index undecodable. -/
def addressAt (v : View) (l : Layout) (attributes : Attributes) (index : Int) :
    Except Fault Value :=
  match v.sections.get? .addr with
  | none => .error .undecodable
  | some found => do
    let start ← base attributes AttributeName.addressBase
    return .integer (← numberAt found.data l.addressWidth (start + index * l.addressWidth))

/-- What an index stands for, given all attributes; other values stand for themselves. -/
def lookUp (v : View) (l : Layout) (attributes : Attributes) (a : Attribute) :
    Except Fault Value :=
  match a.form, a.raw with
  | .stringIndex _, .integer index => do
    let (_, offset) ←
      v.tableOffset l attributes .strOffsets AttributeName.stringOffsetsBase index
    stringIn v.sections .str offset
  | .addressIndex _, .integer index => v.addressAt l attributes index
  | .locationListIndex, .integer index => do
    let (start, offset) ←
      v.tableOffset l attributes .loclists AttributeName.locationListsBase index
    return .integer (start + offset)
  | .rangeListIndex, .integer index => do
    let (start, offset) ←
      v.tableOffset l attributes .rnglists AttributeName.rangeListsBase index
    return .integer (start + offset)
  | _, _ => .ok a.value

/-- The attributes with indexes looked up one after the other. A fault leaves the rest as it is. -/
def lookUpFrom (v : View) (l : Layout) (before : Attributes) :
    Attributes → Attributes × Option Fault
  | [] => (before, none)
  | a :: rest =>
    match v.lookUp l (before ++ a :: rest) a with
    | .ok value => lookUpFrom v l (before ++ [{ a with value }]) rest
    | .error fault => (before ++ a :: rest, some fault)

/-- The attributes of the top entry of a unit, as far as they can be looked up, and the fault that
ended the looking up if there is one. -/
def entry (v : View) (u : UnitHeader) : Except Fault (Attributes × Option Fault) := do
  let info ← v.sections.require .info
  let attributes ← (v.readEntry u).run info u.entryOffset
  return v.lookUpFrom u.layout [] attributes

end View

end WasmSourceMap.Dwarf
