import WasmSourceMap.Reader

/-!
# Byte streams

A stream keeps a byte string and a position between reads, and can be closed for good. Seeking takes
any integer; a closed stream answers no read.
-/

namespace WasmSourceMap

/-- A byte string with a position in it, open or closed. -/
structure ByteStream where
  data : Bytes
  position : Nat
  closed : Bool
deriving DecidableEq, Repr

/-- Why a stream does not answer. -/
inductive StreamFault where
  | unreadable (fault : ReadFault)
  | negativePosition
  | closed
deriving DecidableEq, Repr

namespace ByteStream

variable {α : Type}

/-- An open stream at its start. -/
def ofBytes (data : Bytes) : ByteStream := ⟨data, 0, false⟩

/-- Read from the stream; the position moves even if the read fails. -/
def read (r : Reader ReadFault α) (s : ByteStream) : Except StreamFault α × ByteStream :=
  if s.closed then (.error .closed, s)
  else
    match r s.data s.position with
    | .done a next => (.ok a, { s with position := next })
    | .failed fault next => (.error (.unreadable fault), { s with position := next })

/-- A count or position that fits in 64 bits with sign. -/
def inRange (n : Int) : Bool := -(Reader.positionBound : Int) ≤ n && n < Reader.positionBound

/-- Read a number of bytes. A negative number takes all that is left and then fails, since no read
can give fewer than no bytes. -/
def bytes (count : Int) (s : ByteStream) : Except StreamFault Bytes × ByteStream :=
  match count with
  | .ofNat n => s.read (Reader.bytes n)
  | .negSucc n =>
    s.read fun data position =>
      if inRange (.negSucc n) then
        let next := max position data.length
        .failed (.endOfData next (.negSucc n) (data.length - position)) next
      else .failed .outOfRange position

def seek (target : Int) (s : ByteStream) : Except StreamFault Unit × ByteStream :=
  match target with
  | .ofNat n => s.read (Reader.seek n)
  | .negSucc n =>
    if s.closed then (.error .closed, s)
    else if inRange (.negSucc n) then (.error .negativePosition, s)
    else (.error (.unreadable .outOfRange), s)

/-- The current position of an open stream. -/
def position? (s : ByteStream) : Except StreamFault Nat :=
  if s.closed then .error .closed else .ok s.position

/-- The same reader `count` times; nothing is read when the count is not positive. -/
def array (count : Int) (r : Reader ReadFault α) (s : ByteStream) :
    Except StreamFault (List α) × ByteStream :=
  if count ≤ 0 then (.ok [], s) else s.read (Reader.times count.toNat r)

/-- The same reader `count` times from a position on. -/
def arrayAt (start : Int) (count : Int) (r : Reader ReadFault α) (s : ByteStream) :
    Except StreamFault (List α) × ByteStream :=
  match s.seek start with
  | (.ok (), moved) => moved.array count r
  | (.error fault, moved) => (.error fault, moved)

def close (s : ByteStream) : ByteStream := { s with closed := true }

end ByteStream

end WasmSourceMap
