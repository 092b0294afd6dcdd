import WasmSourceMap.Dwarf.Fault
import WasmSourceMap.Text.Quoted

/-!
# Forms and values

A form says how the value of an attribute is laid out. `Form.readRaw` reads what lies in the data;
what a raw value stands for, for instance a text in a string section, depends on its use and is
decided there.
-/

namespace WasmSourceMap.Dwarf

/-- The size of an address. -/
inductive AddressSize where
  | four
  | eight
deriving DecidableEq, Repr

namespace AddressSize

def width : AddressSize → Nat
  | .four => 4
  | .eight => 8

/-- The size with a number of bytes. -/
def ofWidth? : Nat → Option AddressSize
  | 4 => some .four
  | 8 => some .eight
  | _ => none

end AddressSize

/-- What the layout of the data of a unit depends on: whether offsets have 64 bits, the size of
addresses and the version. -/
structure Layout where
  wide : Bool
  addressSize : AddressSize
  version : Nat
deriving DecidableEq, Repr

namespace Layout

def offsetWidth (l : Layout) : Nat := if l.wide then 8 else 4

def addressWidth (l : Layout) : Nat := l.addressSize.width

/-- The number of bytes of the length at the start of a unit. -/
def lengthWidth (l : Layout) : Nat := if l.wide then 12 else 4

/-- The number of bytes of a reference; version 2 has the size of an address. -/
def referenceWidth (l : Layout) : Nat := if l.version = 2 then l.addressWidth else l.offsetWidth

end Layout

/-- How a value is laid out. A width of `none` is a number in groups of seven bits. -/
inductive Form where
  | address
  | fixed (width : Nat)
  | flag
  | flagPresent
  | unsigned
  | signed
  | string
  | block (lengthWidth : Option Nat)
  | sixteenBytes
  | stringOffset
  | lineStringOffset
  | supplementaryStringOffset
  | sectionOffset
  | reference
  | stringIndex (width : Option Nat)
  | addressIndex (width : Option Nat)
  | locationListIndex
  | rangeListIndex
  | implicitConstant
  | indirect
deriving DecidableEq, Repr

/-- The code of the form whose value is in the declaration. -/
def implicitConstantCode : Nat := 0x21

/-- The form of a code. -/
def Form.ofCode? : Nat → Option Form
  | 0x01 => some .address
  | 0x02 => some (.fixed 4)
  | 0x03 => some (.block (some 2))
  | 0x04 => some (.block (some 4))
  | 0x05 => some (.fixed 2)
  | 0x06 => some (.fixed 4)
  | 0x07 => some (.fixed 8)
  | 0x08 => some .string
  | 0x09 => some (.block none)
  | 0x0A => some (.block (some 1))
  | 0x0B => some (.fixed 1)
  | 0x0C => some .flag
  | 0x0D => some .signed
  | 0x0E => some .stringOffset
  | 0x0F => some .unsigned
  | 0x10 => some .reference
  | 0x11 => some (.fixed 1)
  | 0x12 => some (.fixed 2)
  | 0x13 => some (.fixed 4)
  | 0x14 => some (.fixed 8)
  | 0x15 => some .unsigned
  | 0x16 => some .indirect
  | 0x17 => some .sectionOffset
  | 0x18 => some (.block none)
  | 0x19 => some .flagPresent
  | 0x1A => some (.stringIndex none)
  | 0x1B => some (.addressIndex none)
  | 0x1C => some (.fixed 4)
  | 0x1D => some .supplementaryStringOffset
  | 0x1E => some .sixteenBytes
  | 0x1F => some .lineStringOffset
  | 0x20 => some (.fixed 8)
  | 0x21 => some .implicitConstant
  | 0x22 => some .locationListIndex
  | 0x23 => some .rangeListIndex
  | 0x24 => some (.fixed 8)
  | 0x25 => some (.stringIndex (some 1))
  | 0x26 => some (.stringIndex (some 2))
  | 0x27 => some (.stringIndex (some 3))
  | 0x28 => some (.stringIndex (some 8))
  | 0x29 => some (.addressIndex (some 1))
  | 0x2A => some (.addressIndex (some 2))
  | 0x2B => some (.addressIndex (some 3))
  | 0x2C => some (.addressIndex (some 4))
  | 0x1F20 => some .sectionOffset
  | 0x1F21 => some .supplementaryStringOffset
  | _ => none

/-- A value. The bytes of a string and a list of bytes differ in how they are shown and in what they
can be used for. -/
inductive Value where
  | integer (n : Int)
  | boolean (b : Bool)
  | bytes (content : Bytes)
  | list (items : Bytes)
  | string (s : String)
  | null
deriving DecidableEq, Repr

namespace Value

/-- The number a value is used as; a boolean is one or zero. -/
def toInt? : Value → Option Int
  | .integer n => some n
  | .boolean b => some (if b then 1 else 0)
  | _ => none

/-- The value of a text that may not be there. -/
def ofString? : Option Bytes → Value
  | some content => .bytes content
  | none => .null

/-- A list of more than 80 characters is shown with one item a line. -/
def listText (items : Bytes) : String :=
  let shown := items.map fun b => toString b.toNat
  let short := "[" ++ String.intercalate ", " shown ++ "]"
  if short.length ≤ 80 then short else "[" ++ String.intercalate ",\n " shown ++ "]"

def booleanText (b : Bool) : String := if b then "True" else "False"

/-- A value as text; strings are decoded. -/
def text? : Value → Option String
  | .integer n => some (toString n)
  | .boolean b => some (booleanText b)
  | .bytes content => some (Text.Utf8.decode content)
  | .list items => some (listText items)
  | .string s => some s
  | .null => none

/-- A value as text with the bytes of a string shown as a literal. -/
def literal : Value → String
  | .integer n => toString n
  | .boolean b => booleanText b
  | .bytes content => Text.Quoted.ofBytes content
  | .list items => listText items
  | .string s => s
  | .null => "None"

end Value

/-- A number of some width, or in groups of seven bits. -/
def readNumber (width : Option Nat) : Reader Fault Nat :=
  match width with
  | some width => Reader.unsigned width
  | none => Reader.uleb

/-- The raw value of a form. A form without data of its own cannot be read here. -/
def Form.readRaw (l : Layout) : Form → Reader Fault Value
  | .address => do return .integer (← Reader.unsigned l.addressWidth)
  | .fixed width => do return .integer (← Reader.unsigned width)
  | .flag => do return .integer (← Reader.unsigned 1)
  | .flagPresent => pure (.bytes [])
  | .unsigned => do return .integer (← Reader.uleb)
  | .signed => do return .integer (← Reader.sleb)
  | .string => do return .bytes (← Reader.zeroTerminated)
  | .block width => do
    let length ← readNumber width
    return .list (← Reader.times length Reader.byte)
  | .sixteenBytes => do return .list (← Reader.bytes 16)
  | .stringOffset => do return .integer (← Reader.unsigned l.offsetWidth)
  | .lineStringOffset => do return .integer (← Reader.unsigned l.offsetWidth)
  | .supplementaryStringOffset => do return .integer (← Reader.unsigned l.offsetWidth)
  | .sectionOffset => do return .integer (← Reader.unsigned l.offsetWidth)
  | .reference => do return .integer (← Reader.unsigned l.referenceWidth)
  | .stringIndex width => do return .integer (← readNumber width)
  | .addressIndex width => do return .integer (← readNumber width)
  | .locationListIndex => do return .integer (← Reader.uleb)
  | .rangeListIndex => do return .integer (← Reader.uleb)
  | .indirect => do return .integer (← Reader.uleb)
  | .implicitConstant => Reader.fail .undecodable

/-- The form of a code that is about to be read. -/
def Form.known (code : Nat) : Except Fault Form :=
  match Form.ofCode? code with
  | some form => .ok form
  | none => .error .undecodable

end WasmSourceMap.Dwarf
