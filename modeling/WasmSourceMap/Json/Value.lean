import WasmSourceMap.Text.Quoted

/-!
# JSON values

Objects keep their members in order, each name once. A number that is not an integer is kept as it
was written. A string is a text, or a wide string if it has a surrogate; the surrogates of a name
are replaced.
-/

namespace WasmSourceMap

/-- A JSON value. -/
inductive Json where
  | null
  | bool (b : Bool)
  | integer (n : Int)
  | decimal (text : String)
  | string (s : String)
  | wide (s : WideString)
  | array (items : List Json)
  | object (members : List (String × Json))
deriving Inhabited, Repr

namespace Json

mutual

def beq : Json → Json → Bool
  | .null, .null => true
  | .bool a, .bool b => a == b
  | .integer a, .integer b => a == b
  | .decimal a, .decimal b => a == b
  | .string a, .string b => a == b
  | .wide a, .wide b => a == b
  | .array a, .array b => beqItems a b
  | .object a, .object b => beqMembers a b
  | _, _ => false

def beqItems : List Json → List Json → Bool
  | [], [] => true
  | a :: as, b :: bs => beq a b && beqItems as bs
  | _, _ => false

def beqMembers : List (String × Json) → List (String × Json) → Bool
  | [], [] => true
  | (k, a) :: as, (l, b) :: bs => k == l && beq a b && beqMembers as bs
  | _, _ => false

end

instance : BEq Json := ⟨beq⟩

/-- The string of some code points. -/
def ofWide (s : WideString) : Json :=
  match s.text? with
  | some text => .string text
  | none => .wide s

/-- Give a name a value, in the place of the one it has or at the end. -/
def insertMember (name : String) (value : Json) : List (String × Json) → List (String × Json)
  | [] => [(name, value)]
  | m :: rest => if m.1 = name then (name, value) :: rest else m :: insertMember name value rest

/-- The members of an object from a list that may repeat names: the last value of a name counts, in
the place of the first. -/
def membersOfList (members : List (String × Json)) : List (String × Json) :=
  members.foldl (fun done m => insertMember m.1 m.2 done) []

/-- The value of a member. -/
def find? (members : List (String × Json)) (name : String) : Option Json :=
  (members.find? fun m => m.1 == name).map (·.2)

/-- The number of a list of digits. -/
def digitsValue (cs : List Char) : Nat :=
  cs.foldl (fun n c => 10 * n + (c.toNat - '0'.toNat)) 0

/-- The power of ten at the end of a number; none stands for zero. -/
def exponentValue : List Char → Int
  | _ :: '-' :: digits => -digitsValue digits
  | _ :: '+' :: digits => digitsValue digits
  | _ :: digits => digitsValue digits
  | [] => 0

/-- Whether a number that is not an integer is zero in double precision: it is at most half of the
least number above zero there, which is the power of two with exponent -1074. A word without digits
is no number or infinite. -/
def isZeroDecimal (text : String) : Bool :=
  let mantissa := text.toList.takeWhile fun c => c != 'e' && c != 'E'
  let exponent := text.toList.dropWhile fun c => c != 'e' && c != 'E'
  let digits := mantissa.filter Char.isDigit
  let places := ((mantissa.dropWhile (· != '.')).filter Char.isDigit).length
  let n := digitsValue digits
  let power := exponentValue exponent - places
  if digits.isEmpty then false
  else if n = 0 then true
  else if 0 ≤ power then false
  else digits.length + 400 < power.natAbs || n * Nat.pow 2 1075 ≤ Nat.pow 10 power.natAbs

/-- Whether a value counts as yes: it is not null, false, zero or empty. -/
def isTruthy : Json → Bool
  | .null => false
  | .bool b => b
  | .integer n => n != 0
  | .decimal text => !isZeroDecimal text
  | .string s => s != ""
  | .wide _ => true
  | .array items => !items.isEmpty
  | .object members => !members.isEmpty

mutual

/-- A value as a literal in messages. -/
def literal : Json → List Char
  | .null => "None".toList
  | .bool true => "True".toList
  | .bool false => "False".toList
  | .integer n => (toString n).toList
  | .decimal text => text.toList
  | .string s => Text.Quoted.ofChars s.toList
  | .wide s => (Text.Quoted.ofWide s).toList
  | .array items => '[' :: literalItems items ++ [']']
  | .object members => '\x7b' :: literalMembers members ++ ['\x7d']

def literalItems : List Json → List Char
  | [] => []
  | [item] => literal item
  | item :: next :: rest => literal item ++ ',' :: ' ' :: literalItems (next :: rest)

def literalMembers : List (String × Json) → List Char
  | [] => []
  | [(name, value)] => Text.Quoted.ofChars name.toList ++ ':' :: ' ' :: literal value
  | (name, value) :: next :: rest =>
    Text.Quoted.ofChars name.toList ++ ':' :: ' ' :: literal value ++
      ',' :: ' ' :: literalMembers (next :: rest)

end

/-- A value as text in messages: a string stands for itself. -/
def shown : Json → WideString
  | .string s => s
  | .wide s => s
  | value => String.ofList value.literal

end Json

end WasmSourceMap
