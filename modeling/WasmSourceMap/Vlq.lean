import WasmSourceMap.Text.Quoted

/-!
# Base64 numbers of a mapping

An integer is written with one base64 character per five bits, the lowest group first; the lowest
bit of the whole is the sign, and bit five of a digit says that another digit follows.
-/

namespace WasmSourceMap.Vlq

/-- The characters of the digits 0 to 63. -/
def alphabet : List Char :=
  ['A', 'B', 'C', 'D', 'E', 'F', 'G', 'H', 'I', 'J', 'K', 'L', 'M', 'N', 'O', 'P',
   'Q', 'R', 'S', 'T', 'U', 'V', 'W', 'X', 'Y', 'Z', 'a', 'b', 'c', 'd', 'e', 'f',
   'g', 'h', 'i', 'j', 'k', 'l', 'm', 'n', 'o', 'p', 'q', 'r', 's', 't', 'u', 'v',
   'w', 'x', 'y', 'z', '0', '1', '2', '3', '4', '5', '6', '7', '8', '9', '+', '/']

/-- The character of a digit. -/
def digitChar (d : Nat) : Char := alphabet.getD d 'A'

/-- The digit of a character. -/
def digitValue? (c : Char) : Option Nat := alphabet.idxOf? c

/-- Why a text is not a number. -/
inductive Fault where
  | truncated
  | invalidCharacter (c : Char)
deriving DecidableEq, Repr

def Fault.message : Fault → String
  | .truncated => "Truncated VLQ value"
  | .invalidCharacter c => "Invalid VLQ character " ++ Text.Quoted.ofString (String.ofList [c])

/-- The magnitude above the sign bit. -/
def pack (z : Int) : Nat := if 0 ≤ z then 2 * z.natAbs else 2 * z.natAbs + 1

/-- The integer of a packed magnitude. -/
def unpack (n : Nat) : Int := if n % 2 = 1 then -((n / 2 : Nat) : Int) else ((n / 2 : Nat) : Int)

/-- The digits of a natural number. -/
def encodeNat (n : Nat) : List Char :=
  if n < 32 then [digitChar n] else digitChar (32 + n % 32) :: encodeNat (n / 32)
termination_by n

/-- The characters of an integer. -/
def encodeChars (z : Int) : List Char := encodeNat (pack z)

def encode (z : Int) : String := String.ofList (encodeChars z)

/-- The natural number at the front of a text and the text after it. -/
def takeNat : List Char → Except Fault (Nat × List Char)
  | [] => .error .truncated
  | c :: rest =>
    match digitValue? c with
    | none => .error (.invalidCharacter c)
    | some d =>
      if d < 32 then .ok (d, rest)
      else
        match takeNat rest with
        | .ok (n, after) => .ok (d % 32 + 32 * n, after)
        | .error fault => .error fault

/-- What follows a number is shorter than what holds it. -/
theorem length_takeNat {cs after : List Char} {n : Nat} (h : takeNat cs = .ok (n, after)) :
    after.length < cs.length := by
  induction cs generalizing n after with
  | nil => simp [takeNat] at h
  | cons c rest ih =>
    simp only [takeNat] at h
    split at h
    · simp at h
    · split at h
      · simp only [Except.ok.injEq, Prod.mk.injEq] at h
        simp [← h.2]
      · split at h
        · rename_i e
          simp only [Except.ok.injEq, Prod.mk.injEq] at h
          have := ih e
          simp only [List.length_cons, ← h.2]
          omega
        · simp at h

/-- The integers of a run of numbers without separators. -/
def decodeChars (cs : List Char) : Except Fault (List Int) :=
  if cs = [] then .ok []
  else
    match _h : takeNat cs with
    | .error fault => .error fault
    | .ok (n, after) =>
      match decodeChars after with
      | .error fault => .error fault
      | .ok rest => .ok (unpack n :: rest)
termination_by cs.length
decreasing_by exact length_takeNat _h

def decode (text : String) : Except Fault (List Int) := decodeChars text.toList

/-- The integer at a position of a text, in characters, and the position after it. -/
def decodeAt (text : String) (position : Nat) : Except Fault (Int × Nat) :=
  match takeNat (text.toList.drop position) with
  | .ok (n, after) => .ok (unpack n, text.toList.length - after.length)
  | .error fault => .error fault

end WasmSourceMap.Vlq
