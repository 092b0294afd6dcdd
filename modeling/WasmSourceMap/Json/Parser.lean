import WasmSourceMap.Json.Token
import WasmSourceMap.Json.Value

/-!
# JSON parser

The tokens of a text are read by a machine that keeps the open arrays and objects on a stack, one
token at a time. A text is a value and nothing else but blanks.
-/

namespace WasmSourceMap.Json

/-- The text of an integer without sign and leading zeros, or one zero. -/
def isIntegerPart : List Char → Bool
  | [] => false
  | ['0'] => true
  | c :: rest => c != '0' && (c :: rest).all Char.isDigit

/-- A list of digits that is not empty. -/
def isDigits (cs : List Char) : Bool := !cs.isEmpty && cs.all Char.isDigit

/-- An exponent without its letter: digits behind at most one sign. -/
def isExponent : List Char → Bool
  | '+' :: digits => isDigits digits
  | '-' :: digits => isDigits digits
  | digits => isDigits digits

/-- What follows the integer part of a number that is not an integer: a fraction, an exponent or
both. -/
def isFraction (cs : List Char) : Bool :=
  match cs with
  | '.' :: rest =>
    let digits := rest.takeWhile Char.isDigit
    let after := rest.dropWhile Char.isDigit
    isDigits digits &&
      match after with
      | [] => true
      | e :: exponent => (e == 'e' || e == 'E') && isExponent exponent
  | e :: exponent => (e == 'e' || e == 'E') && isExponent exponent
  | [] => false

/-- The number of a word without its sign. -/
def magnitude? (cs : List Char) : Option (Option Nat) :=
  let whole := cs.takeWhile Char.isDigit
  let after := cs.dropWhile Char.isDigit
  if !isIntegerPart whole then none
  else if after = [] then some (some (digitsValue whole))
  else if isFraction after then some none
  else none

/-- The value of a word: a literal or a number. -/
def ofWord? (cs : List Char) : Option Json :=
  if cs = ['n', 'u', 'l', 'l'] then some .null
  else if cs = ['t', 'r', 'u', 'e'] then some (.bool true)
  else if cs = ['f', 'a', 'l', 's', 'e'] then some (.bool false)
  else if ["NaN", "Infinity", "-Infinity"].contains (String.ofList cs) then
    some (.decimal (String.ofList cs))
  else
    match cs with
    | '-' :: digits =>
      (magnitude? digits).map fun
        | some n => .integer (-n)
        | none => .decimal (String.ofList cs)
    | digits =>
      (magnitude? digits).map fun
        | some n => .integer n
        | none => .decimal (String.ofList cs)

/-- An open array with its items, or an open object with its members and the name whose value is
being read; both in reverse order. -/
inductive Frame where
  | array (items : List Json)
  | object (members : List (String × Json)) (name : String)

/-- What the parser waits for, with the frames around it. -/
inductive Expect where
  | value (stack : List Frame)
  | firstItem (stack : List Frame)
  | afterItem (items : List Json) (stack : List Frame)
  | firstName (stack : List Frame)
  | memberName (members : List (String × Json)) (stack : List Frame)
  | colon (members : List (String × Json)) (name : String) (stack : List Frame)
  | afterMember (members : List (String × Json)) (stack : List Frame)
  | nothing (result : Json)

namespace Expect

/-- A value is complete. -/
def complete (v : Json) : List Frame → Expect
  | [] => .nothing v
  | .array items :: stack => .afterItem (v :: items) stack
  | .object members name :: stack => .afterMember ((name, v) :: members) stack

/-- A token where a value has to be. -/
def stepValue (stack : List Frame) : Token → Option Expect
  | .arrayOpen => some (.firstItem stack)
  | .objectOpen => some (.firstName stack)
  | .string s => some (complete (.ofWide s) stack)
  | .word cs => (ofWord? cs).map fun v => complete v stack
  | _ => none

/-- One token. -/
def step : Expect → Token → Option Expect
  | .value stack, token => stepValue stack token
  | .firstItem stack, .arrayClose => some (complete (.array []) stack)
  | .firstItem stack, token => stepValue (.array [] :: stack) token
  | .afterItem items stack, .comma => some (.value (.array items :: stack))
  | .afterItem items stack, .arrayClose => some (complete (.array items.reverse) stack)
  | .firstName stack, .objectClose => some (complete (.object []) stack)
  | .firstName stack, .string s => some (.colon [] s.shown stack)
  | .memberName members stack, .string s => some (.colon members s.shown stack)
  | .colon members name stack, .colon => some (.value (.object members name :: stack))
  | .afterMember members stack, .comma => some (.memberName members stack)
  | .afterMember members stack, .objectClose =>
    some (complete (.object (membersOfList members.reverse)) stack)
  | _, _ => none

end Expect

def parseChars (cs : List Char) : Option Json := do
  let tokens ← Token.scan cs
  match ← tokens.foldlM Expect.step (.value []) with
  | .nothing v => some v
  | _ => none

def parse? (text : String) : Option Json := parseChars text.toList

end WasmSourceMap.Json
