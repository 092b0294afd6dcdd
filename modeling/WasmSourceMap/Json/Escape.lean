import WasmSourceMap.Text.Quoted

/-!
# Escapes

The characters that a string of JSON cannot hold as they are: the quote, the backslash and the
control characters. The common ones have an escape of one letter, the others are written by their
number. All other characters stay what they are, also those beyond ASCII.
-/

namespace WasmSourceMap.Json

/-- Four hexadecimal digits behind the mark of a unit. -/
def unitEscape (n : Nat) : List Char := '\\' :: 'u' :: Text.Quoted.hex 4 n

/-- A character that a string cannot hold as it is. -/
def isReserved (c : Char) : Bool := c == '"' || c == '\\' || c ≤ '\x1f'

/-- The letters of the short escapes. -/
def shortEscapes : List (Char × Char) :=
  [('"', '"'), ('\\', '\\'), ('\x08', 'b'), ('\t', 't'), ('\n', 'n'), ('\x0c', 'f'), ('\r', 'r')]

/-- The escape of a character that a string cannot hold as it is. -/
def escapeReserved (c : Char) : List Char :=
  match shortEscapes.lookup c with
  | some letter => ['\\', letter]
  | none => unitEscape c.toNat

/-- A string as it is between quotes. -/
def escape (s : String) : String :=
  String.ofList (s.toList.flatMap fun c => if isReserved c then escapeReserved c else [c])

end WasmSourceMap.Json
