import WasmSourceMap.Bytes

/-!
# UTF-8

`encode` writes a text as bytes. `decode` reads any bytes: every maximal prefix of a character that
does not go on as it must becomes one replacement character. It is a machine that reads one byte
at a time, so it recurses on the bytes alone. `decode?` accepts exactly the encodings of texts.
-/

namespace WasmSourceMap.Text.Utf8

/-- The bytes of one character. -/
def encodeChar (c : Char) : Bytes :=
  let n := c.toNat
  if n < 0x80 then [UInt8.ofNat n]
  else if n < 0x800 then [UInt8.ofNat (0xC0 + n / 64), UInt8.ofNat (0x80 + n % 64)]
  else if n < 0x10000 then
    [UInt8.ofNat (0xE0 + n / 4096), UInt8.ofNat (0x80 + n / 64 % 64), UInt8.ofNat (0x80 + n % 64)]
  else
    [UInt8.ofNat (0xF0 + n / 262144), UInt8.ofNat (0x80 + n / 4096 % 64),
      UInt8.ofNat (0x80 + n / 64 % 64), UInt8.ofNat (0x80 + n % 64)]

/-- The bytes of a text. -/
def encodeChars (cs : List Char) : Bytes := cs.flatMap encodeChar

def encode (s : String) : Bytes := encodeChars s.toList

/-- The character that stands for bytes with no meaning. -/
def replacement : Char := '\uFFFD'

/-- What the bytes read so far leave open: nothing, or a character of which `need` bytes are still
to come, the next of them between `low` and `high`. -/
inductive State where
  | ground
  | pending (value need low high : Nat)
deriving DecidableEq, Repr

/-- What a byte does at the start of a character. -/
def start (b : Nat) : List Char × State :=
  if b < 0x80 then ([Char.ofNat b], .ground)
  else if b < 0xC2 then ([replacement], .ground)
  else if b < 0xE0 then ([], .pending (b - 0xC0) 1 0x80 0xBF)
  else if b < 0xF0 then
    ([], .pending (b - 0xE0) 2 (if b = 0xE0 then 0xA0 else 0x80) (if b = 0xED then 0x9F else 0xBF))
  else if b < 0xF5 then
    ([], .pending (b - 0xF0) 3 (if b = 0xF0 then 0x90 else 0x80) (if b = 0xF4 then 0x8F else 0xBF))
  else ([replacement], .ground)

/-- What a byte does: the characters that it completes, and what is open after it. A byte that
cannot go on with an open character ends it and starts anew. -/
def step : State → Nat → List Char × State
  | .ground, b => start b
  | .pending value need low high, b =>
    if low ≤ b ∧ b ≤ high then
      if need = 1 then ([Char.ofNat (value * 64 + b % 64)], .ground)
      else ([], .pending (value * 64 + b % 64) (need - 1) 0x80 0xBF)
    else (replacement :: (start b).1, (start b).2)

/-- The characters of the bytes that follow a state. -/
def decodeFrom : State → Bytes → List Char
  | .ground, [] => []
  | .pending .., [] => [replacement]
  | s, b :: rest => (step s b.toNat).1 ++ decodeFrom (step s b.toNat).2 rest

def decodeChars (bytes : Bytes) : List Char := decodeFrom .ground bytes

/-- The string of any bytes. -/
def decode (bytes : Bytes) : String := String.ofList (decodeChars bytes)

/-- The string of bytes that encode one. -/
def decode? (bytes : Bytes) : Option String :=
  let s := decode bytes
  if encode s = bytes then some s else none

end WasmSourceMap.Text.Utf8
