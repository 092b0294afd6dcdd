import WasmSourceMap.Bytes

/-!
# Variable-length numbers of the container

A natural number is written in groups of seven bits, the lowest group first; every byte but the last
has its top bit set. Padding with zero groups is accepted when reading and never written.
-/

namespace WasmSourceMap.Leb128

/-- Why a number cannot be written or read. -/
inductive Fault where
  | negative
  | truncated
deriving DecidableEq, Repr

def Fault.message : Fault → String
  | .negative => "Cannot encode a negative value as an unsigned varint"
  | .truncated => "Truncated varint"

/-- The shortest form of a natural number. -/
def encode (n : Nat) : Bytes :=
  if n < 128 then [UInt8.ofNat n] else UInt8.ofNat (128 + n % 128) :: encode (n / 128)
termination_by n

/-- The shortest form of an integer, which must not be negative. -/
def encodeInt : Int → Except Fault Bytes
  | .ofNat n => .ok (encode n)
  | .negSucc _ => .error .negative

/-- The number at the front of the bytes and how many bytes it takes. -/
def decode : Bytes → Except Fault (Nat × Nat)
  | [] => .error .truncated
  | b :: rest =>
    if b.toNat < 128 then .ok (b.toNat, 1)
    else
      match decode rest with
      | .ok (n, count) => .ok (b.toNat % 128 + 128 * n, count + 1)
      | .error fault => .error fault

/-- The number at a position of the bytes and the position after it. -/
def decodeAt (data : Bytes) (position : Nat) : Except Fault (Nat × Nat) :=
  match decode (data.drop position) with
  | .ok (n, count) => .ok (n, position + count)
  | .error fault => .error fault

end WasmSourceMap.Leb128
