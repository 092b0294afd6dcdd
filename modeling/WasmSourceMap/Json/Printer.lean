import WasmSourceMap.Json.Escape
import WasmSourceMap.Json.Value

/-!
# JSON printers

Two ways to write a value. The compact form has no blanks and escapes only what has to be escaped.
The indented form has a line for each item, two blanks a level, and keeps to printable ASCII: any
other character is written as one 16-bit unit or two.
-/

namespace WasmSourceMap.Json

/-- The escapes of one letter. -/
def letterEscape? (c : Char) : Option (List Char) :=
  match c with
  | '"' => some ['\\', '"']
  | '\\' => some ['\\', '\\']
  | '\x08' => some ['\\', 'b']
  | '\t' => some ['\\', 't']
  | '\n' => some ['\\', 'n']
  | '\x0c' => some ['\\', 'f']
  | '\r' => some ['\\', 'r']
  | _ => none

/-- A character in a string, escaped only if it has to be. -/
def escapeChar (c : Char) : List Char :=
  (letterEscape? c).getD (if c.toNat < 0x20 then unitEscape c.toNat else [c])

/-- A character in a string of printable ASCII. -/
def escapeAsciiChar (c : Char) : List Char :=
  (letterEscape? c).getD <|
    if 0x20 ≤ c.toNat && c.toNat < 0x7F then [c]
    else if c.toNat < 0x10000 then unitEscape c.toNat
    else
      unitEscape (0xD800 + (c.toNat - 0x10000) / 0x400) ++
        unitEscape (0xDC00 + (c.toNat - 0x10000) % 0x400)

/-- A code point in a string; a surrogate is a unit of its own. -/
def escapePoint (escape : Char → List Char) : CodePoint → List Char
  | .char c => escape c
  | .surrogate n => unitEscape (0xD800 + n.val)

/-- Characters between quotes. -/
def quoted (escape : Char → List Char) (s : String) : List Char :=
  '"' :: s.toList.flatMap escape ++ ['"']

/-- Code points between quotes. -/
def quotedWide (escape : Char → List Char) (s : WideString) : List Char :=
  '"' :: s.points.flatMap (escapePoint escape) ++ ['"']

mutual

/-- The compact form. -/
def compactChars : Json → List Char
  | .null => ['n', 'u', 'l', 'l']
  | .bool true => ['t', 'r', 'u', 'e']
  | .bool false => ['f', 'a', 'l', 's', 'e']
  | .integer n => (toString n).toList
  | .decimal text => text.toList
  | .string s => quoted escapeChar s
  | .wide s => quotedWide escapeChar s
  | .array items => '[' :: compactItems items ++ [']']
  | .object members => '\x7b' :: compactMembers members ++ ['\x7d']

/-- The items of an array in compact form. -/
def compactItems : List Json → List Char
  | [] => []
  | [item] => compactChars item
  | item :: next :: rest => compactChars item ++ ',' :: compactItems (next :: rest)

/-- The members of an object in compact form. -/
def compactMembers : List (String × Json) → List Char
  | [] => []
  | [(name, value)] => quoted escapeChar name ++ ':' :: compactChars value
  | (name, value) :: next :: rest =>
    quoted escapeChar name ++ ':' :: compactChars value ++ ',' :: compactMembers (next :: rest)

end

def compact (v : Json) : String := String.ofList v.compactChars

/-- A new line with the blanks of a level. -/
def newLine (level : Nat) : List Char := '\n' :: List.replicate (2 * level) ' '

mutual

/-- The indented form at a level. -/
def indentedChars (level : Nat) : Json → List Char
  | .null => ['n', 'u', 'l', 'l']
  | .bool true => ['t', 'r', 'u', 'e']
  | .bool false => ['f', 'a', 'l', 's', 'e']
  | .integer n => (toString n).toList
  | .decimal text => text.toList
  | .string s => quoted escapeAsciiChar s
  | .wide s => quotedWide escapeAsciiChar s
  | .array [] => ['[', ']']
  | .array (item :: items) =>
    '[' :: indentedItems (level + 1) (item :: items) ++ newLine level ++ [']']
  | .object [] => ['\x7b', '\x7d']
  | .object (m :: members) =>
    '\x7b' :: indentedMembers (level + 1) (m :: members) ++ newLine level ++ ['\x7d']

/-- The items of an array, each on its line. -/
def indentedItems (level : Nat) : List Json → List Char
  | [] => []
  | [item] => newLine level ++ indentedChars level item
  | item :: next :: rest =>
    newLine level ++ indentedChars level item ++ ',' :: indentedItems level (next :: rest)

/-- The members of an object, each on its line. -/
def indentedMembers (level : Nat) : List (String × Json) → List Char
  | [] => []
  | [(name, value)] =>
    newLine level ++ quoted escapeAsciiChar name ++ ':' :: ' ' :: indentedChars level value
  | (name, value) :: next :: rest =>
    newLine level ++ quoted escapeAsciiChar name ++ ':' :: ' ' :: indentedChars level value ++
      ',' :: indentedMembers level (next :: rest)

end

def indented (v : Json) : String := String.ofList (v.indentedChars 0)

end WasmSourceMap.Json
