import WasmSourceMap.Text.Utf8

/-!
# Wide strings

A wide string is a list of code points. Besides characters it can hold surrogates, the halves of
pairs of 16-bit units, for which UTF-8 has no bytes. They come from escapes of a half without its
other half, and from names of files: a byte of a name that is part of no character is a surrogate of
its own. So not every wide string is a text, and not every one can be the name of a file.
-/

namespace WasmSourceMap

/-- A character, or a surrogate by its place among the surrogates. -/
inductive CodePoint where
  | char (c : Char)
  | surrogate (n : Fin 0x800)
deriving DecidableEq, Repr

namespace CodePoint

/-- The surrogate that is a 16-bit unit. -/
def ofUnit (value : Nat) : CodePoint := .surrogate (Fin.ofNat 0x800 (value - 0xD800))

/-- The character of a code point. -/
def char? : CodePoint → Option Char
  | .char c => some c
  | .surrogate _ => none

/-- The character of a code point, with a replacement for a surrogate. -/
def shownChar : CodePoint → Char
  | .char c => c
  | .surrogate _ => Text.Utf8.replacement

/-- The bytes of a code point in the name of a file. A byte from 0x80 on that is part of no
character has a surrogate; the other surrogates have no byte. -/
def nameBytes? : CodePoint → Option Bytes
  | .char c => some (Text.Utf8.encodeChar c)
  | .surrogate n =>
    if 0x480 ≤ n.val ∧ n.val < 0x500 then some [UInt8.ofNat (n.val - 0x400)] else none

end CodePoint

/-- A string of code points. -/
structure WideString where
  points : List CodePoint
deriving DecidableEq, Repr

namespace WideString

def ofString (s : String) : WideString := ⟨s.toList.map .char⟩

instance : Coe String WideString := ⟨ofString⟩

instance : Inhabited WideString := ⟨""⟩

instance : Append WideString := ⟨fun a b => ⟨a.points ++ b.points⟩⟩

/-- The text of a string without surrogates. -/
def text? (s : WideString) : Option String := (s.points.mapM CodePoint.char?).map String.ofList

def isText (s : WideString) : Bool := s.text?.isSome

/-- The text of a string, with replacements for surrogates. -/
def shown (s : WideString) : String := String.ofList (s.points.map CodePoint.shownChar)

/-- The bytes of a string as the name of a file. -/
def nameBytes? (s : WideString) : Option Bytes :=
  (s.points.mapM CodePoint.nameBytes?).map List.flatten

end WideString

end WasmSourceMap
