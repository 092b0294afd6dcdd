import WasmSourceMap.Text.Hexadecimal
import WasmSourceMap.Text.Printable
import WasmSourceMap.Text.Wide

/-!
# Quoted literals

The literal of a text or of bytes as messages show it. The quote is a single one unless the text
holds a single quote and no double quote. The backslash and the quote are escaped, the tab and the
line ends have short escapes, and what cannot be printed is shown by its number.
-/

namespace WasmSourceMap.Text.Quoted

/-- The quote for a text. -/
def quoteOf (cs : List Char) : Char :=
  if cs.contains '\'' && !cs.contains '"' then '"' else '\''

/-- The hexadecimal digits of a number, at least `width` of them. -/
def hex (width n : Nat) : List Char := Hexadecimal.padded width (Hexadecimal.digits n)

/-- The escapes that do not depend on what can be printed. -/
def shortEscape? (quote c : Char) : Option (List Char) :=
  if c = '\\' || c = quote then some ['\\', c]
  else if c = '\t' then some ['\\', 't']
  else if c = '\n' then some ['\\', 'n']
  else if c = '\r' then some ['\\', 'r']
  else none

/-- One character inside the quotes. -/
def escapeChar (quote c : Char) : List Char :=
  (shortEscape? quote c).getD <|
    if isPrintable c then [c]
    else if c.toNat < 0x100 then '\\' :: 'x' :: hex 2 c.toNat
    else if c.toNat < 0x10000 then '\\' :: 'u' :: hex 4 c.toNat
    else '\\' :: 'U' :: hex 8 c.toNat

/-- The literal of a list of characters. -/
def ofChars (cs : List Char) : List Char :=
  let quote := quoteOf cs
  quote :: cs.flatMap (escapeChar quote) ++ [quote]

/-- The literal of a string. -/
def ofString (s : String) : String := String.ofList (ofChars s.toList)

/-- One code point inside the quotes; a surrogate is shown by its number. -/
def escapePoint (quote : Char) : CodePoint → List Char
  | .char c => escapeChar quote c
  | .surrogate n => '\\' :: 'u' :: hex 4 (0xD800 + n.val)

/-- The literal of a wide string. -/
def ofWide (s : WideString) : String :=
  let quote := quoteOf (s.points.map CodePoint.shownChar)
  String.ofList (quote :: s.points.flatMap (escapePoint quote) ++ [quote])

/-- One byte inside the quotes: only the printable part of ASCII stands for itself. -/
def escapeByte (quote : Char) (b : UInt8) : List Char :=
  let c := Char.ofNat b.toNat
  (shortEscape? quote c).getD <|
    if 0x20 ≤ b.toNat && b.toNat < 0x7F then [c] else '\\' :: 'x' :: hex 2 b.toNat

/-- The literal of bytes: a quoted text marked by a leading `b`. -/
def ofBytes (bytes : Bytes) : String :=
  let quote := quoteOf (bytes.map fun b => Char.ofNat b.toNat)
  String.ofList ('b' :: quote :: bytes.flatMap (escapeByte quote) ++ [quote])

end WasmSourceMap.Text.Quoted
