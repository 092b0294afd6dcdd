import WasmSourceMap.Bytes

/-!
# Hexadecimal numbers

Numbers in base 16. A negative number is its magnitude behind a minus sign, and the sign counts
towards the width of a padded number.
-/

namespace WasmSourceMap.Text.Hexadecimal

/-- The digits of a number, lower case, without leading zeros. -/
def digits (n : Nat) : List Char := Nat.toDigits 16 n

/-- Zeros on the left up to `width` characters. -/
def padded (width : Nat) (cs : List Char) : List Char :=
  List.replicate (width - cs.length) '0' ++ cs

/-- A natural number in lower case. -/
def ofNat (n : Nat) : String := String.ofList (digits n)

/-- An integer in lower case. -/
def ofInt (n : Int) : String :=
  if n < 0 then String.ofList ('-' :: digits n.natAbs) else ofNat n.natAbs

/-- An integer in lower case with zeros after the sign, at least `width` characters in all. -/
def ofIntPadded (width : Nat) (n : Int) : String :=
  if n < 0 then String.ofList ('-' :: padded (width - 1) (digits n.natAbs))
  else String.ofList (padded width (digits n.natAbs))

/-- A natural number in upper case with leading zeros, at least `width` characters. -/
def upperPadded (width n : Nat) : String :=
  String.ofList (padded width ((digits n).map Char.toUpper))

end WasmSourceMap.Text.Hexadecimal
