import WasmSourceMap.Dwarf.Form

/-!
# Unit headers

The info section is a run of units. The length in a header leads to the next one, whatever the unit
holds, so the headers can be listed without reading the units. The list ends at the first header
that cannot be read.
-/

namespace WasmSourceMap.Dwarf

/-- The header of a unit. The top entry follows the header. -/
structure UnitHeader where
  offset : Nat
  length : Nat
  layout : Layout
  abbreviationOffset : Nat
  entryOffset : Nat
deriving DecidableEq, Repr

/-- A length, with whether it is in the 64-bit format; the highest 32-bit values are reserved. -/
def readInitialLength : Reader Fault (Bool × Nat) := do
  let first ← Reader.unsigned 4
  if first < 0xFFFFFF00 then return (false, first)
  else if first = 0xFFFFFFFF then return (true, ← Reader.unsigned 8)
  else Reader.fail .undecodable

namespace UnitHeader

/-- The number of bytes of the unit with its length. -/
def size (u : UnitHeader) : Nat := u.length + u.layout.lengthWidth

theorem size_pos (u : UnitHeader) : 0 < u.size := by
  unfold size Layout.lengthWidth
  split <;> omega

/-- What follows the abbreviation offset in a unit of some type from version 5 on. -/
def readTypeFields (offsetWidth : Nat) : Nat → Reader Fault Unit
  | 1 | 3 => pure ()
  | 4 | 5 => do
    let _id ← Reader.unsigned 8
  | 2 | 6 => do
    let _signature ← Reader.unsigned 8
    let _typeOffset ← Reader.unsigned offsetWidth
  | _ => Reader.fail .undecodable

/-- The address size and the abbreviation offset, whose order depends on the version. -/
def readFields (offsetWidth version : Nat) : Reader Fault (Nat × Nat) :=
  if version < 5 then do
    let abbreviationOffset ← Reader.unsigned offsetWidth
    let addressWidth ← Reader.unsigned 1
    return (addressWidth, abbreviationOffset)
  else do
    let unitType ← Reader.unsigned 1
    let addressWidth ← Reader.unsigned 1
    let abbreviationOffset ← Reader.unsigned offsetWidth
    readTypeFields offsetWidth unitType
    return (addressWidth, abbreviationOffset)

/-- The size of an address, which is four or eight bytes. -/
def checkAddressSize (width : Nat) : Except Fault AddressSize :=
  match AddressSize.ofWidth? width with
  | some size => .ok size
  | none => .error .badAddressSize

def read : Reader Fault UnitHeader := do
  let offset ← Reader.position
  let (wide, length) ← readInitialLength
  let version ← Reader.unsigned 2
  let (addressWidth, abbreviationOffset) ← readFields (if wide then 8 else 4) version
  let addressSize ← Reader.ofExcept (checkAddressSize addressWidth)
  Reader.check (2 ≤ version && version ≤ 5) .undecodable
  let entryOffset ← Reader.position
  let layout : Layout := { wide, addressSize, version }
  return { offset, length, layout, abbreviationOffset, entryOffset }

/-- The headers from an offset on, and the fault that ended them if there is one. -/
def listFrom (info : Bytes) (offset : Nat) : List UnitHeader × Option Fault :=
  if offset < info.length then
    match read info offset with
    | .failed fault _ => ([], some fault)
    | .done header _ =>
      let rest := listFrom info (offset + header.size)
      (header :: rest.1, rest.2)
  else ([], none)
termination_by info.length - offset
decreasing_by have := size_pos header; omega

/-- All headers of the info section, and the fault that ended them if there is one. -/
def list (info : Bytes) : List UnitHeader × Option Fault := listFrom info 0

end UnitHeader

end WasmSourceMap.Dwarf
