import WasmSourceMap.Text.Wide

/-!
# JSON tokens

The text is cut into tokens by a machine that reads one character at a time, so it recurses on the
text alone. A word is a maximal run of characters that are neither blank nor mark nor quote; whether
it is a number or a literal is decided later, as a whole. A control character in a string, an
unknown escape and a text that ends inside a string are refused.
-/

namespace WasmSourceMap.Json

inductive Token where
  | objectOpen
  | objectClose
  | arrayOpen
  | arrayClose
  | colon
  | comma
  | string (s : WideString)
  | word (cs : List Char)
deriving DecidableEq, Repr

namespace Token

/-- The blanks between tokens. -/
def isBlank (c : Char) : Bool := c == ' ' || c == '\t' || c == '\n' || c == '\r'

/-- The token of a mark. -/
def ofMark? (c : Char) : Option Token :=
  match c with
  | '\x7b' => some .objectOpen
  | '\x7d' => some .objectClose
  | '[' => some .arrayOpen
  | ']' => some .arrayClose
  | ':' => some .colon
  | ',' => some .comma
  | _ => none

/-- The character of an escape of one letter. -/
def ofEscape? (c : Char) : Option Char :=
  match c with
  | '"' => some '"'
  | '\\' => some '\\'
  | '/' => some '/'
  | 'b' => some '\x08'
  | 'f' => some '\x0c'
  | 'n' => some '\n'
  | 'r' => some '\r'
  | 't' => some '\t'
  | _ => none

/-- The value of a hexadecimal digit. -/
def hexDigit? (c : Char) : Option Nat :=
  if '0' ≤ c && c ≤ '9' then some (c.toNat - '0'.toNat)
  else if 'a' ≤ c && c ≤ 'f' then some (c.toNat - 'a'.toNat + 10)
  else if 'A' ≤ c && c ≤ 'F' then some (c.toNat - 'A'.toNat + 10)
  else none

/-- What the machine is in the middle of. The characters read are in reverse order. In a string, the
first half of a pair of 16-bit units may be waiting for the second; a half that finds no other half
is a surrogate. -/
inductive State where
  | between
  | inWord (read : List Char)
  | inString (read : List CodePoint) (half : Option Nat)
  | escape (read : List CodePoint) (half : Option Nat)
  | unit (read : List CodePoint) (half : Option Nat) (digits value : Nat)
deriving DecidableEq, Repr

/-- The code points read, with a half of a pair that found no other half. -/
def settle (read : List CodePoint) : Option Nat → List CodePoint
  | some value => .ofUnit value :: read
  | none => read

/-- A 16-bit unit in a string: a first half waits, a second half completes a waiting one. -/
def afterUnit (read : List CodePoint) (half : Option Nat) (value : Nat) : State :=
  match half, 0xDC00 ≤ value && value < 0xE000 with
  | some first, true =>
    .inString (.char (Char.ofNat (0x10000 + (first - 0xD800) * 0x400 + (value - 0xDC00))) :: read)
      none
  | _, true => .inString (.ofUnit value :: settle read half) none
  | _, false =>
    if 0xD800 ≤ value && value < 0xDC00 then .inString (settle read half) (some value)
    else .inString (.char (Char.ofNat value) :: settle read half) none

/-- A character between tokens. -/
def start (c : Char) : State × List Token :=
  if isBlank c then (.between, [])
  else
    match ofMark? c with
    | some token => (.between, [token])
    | none => if c = '"' then (.inString [] none, []) else (.inWord [c], [])

/-- Whether a character ends a word. -/
def endsWord (c : Char) : Bool := isBlank c || (ofMark? c).isSome || c == '"'

/-- One character: the state after it and the tokens it completes. -/
def step : State → Char → Option (State × List Token)
  | .between, c => some (start c)
  | .inWord read, c =>
    if endsWord c then some ((start c).1, .word read.reverse :: (start c).2)
    else some (.inWord (c :: read), [])
  | .inString read half, c =>
    if c = '"' then some (.between, [.string ⟨(settle read half).reverse⟩])
    else if c = '\\' then some (.escape read half, [])
    else if c.toNat < 0x20 then none
    else some (.inString (.char c :: settle read half) none, [])
  | .escape read half, c =>
    if c = 'u' then some (.unit read half 0 0, [])
    else (ofEscape? c).map fun e => (.inString (.char e :: settle read half) none, [])
  | .unit read half digits value, c =>
    (hexDigit? c).map fun d =>
      if digits = 3 then (afterUnit read half (16 * value + d), [])
      else (.unit read half (digits + 1) (16 * value + d), [])

/-- The tokens of the text after a state. -/
def scanFrom : State → List Char → Option (List Token)
  | .between, [] => some []
  | .inWord read, [] => some [.word read.reverse]
  | _, [] => none
  | s, c :: rest =>
    match step s c with
    | none => none
    | some (next, tokens) => (scanFrom next rest).map (tokens ++ ·)

def scan (cs : List Char) : Option (List Token) := scanFrom .between cs

end Token

end WasmSourceMap.Json
