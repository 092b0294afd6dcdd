/-!
# Byte strings

A byte string is a list of bytes. Numbers of a fixed width are written and read in base 256 with
the least significant byte first, and `splice` replaces one stretch of a byte string by another.
-/

namespace WasmSourceMap

/-- A byte string. -/
abbrev Bytes := List UInt8

namespace Bytes

/-- The number whose digits in base 256, least significant first, are the given bytes. -/
def toNatLE : Bytes → Nat
  | [] => 0
  | b :: rest => b.toNat + 256 * toNatLE rest

/-- The `width` lowest digits of a number in base 256, least significant first. -/
def ofNatLE : Nat → Nat → Bytes
  | 0, _ => []
  | width + 1, n => UInt8.ofNat (n % 256) :: ofNatLE width (n / 256)

/-- The place an index names in `length` bytes: a negative index counts from the end, and an index
outside the bytes names the nearest end. -/
def clampIndex (length : Nat) (i : Int) : Nat :=
  if i < 0 then (i + length).toNat else min i.toNat length

/-- The bytes with those from `start` up to `stop` replaced. -/
def splice (data : Bytes) (start stop : Int) (replacement : Bytes) : Bytes :=
  let first := clampIndex data.length start
  let last := max first (clampIndex data.length stop)
  data.take first ++ replacement ++ data.drop last

end Bytes

end WasmSourceMap
