import WasmSourceMap.Bytes
import WasmSourceMap.Text.Hexadecimal
import WasmSourceMap.Text.Utf8

/-!
# Readers

A reader takes a byte string and a position in it. It answers with a value or a fault, and in both
cases says where it stopped: a read that wants more bytes than there are takes those that are left.
Reading past the end gives nothing and does not move.

A reader that `Advances` stops after its start, and one that `Consumes` also stays inside the data.
The first can be repeated up to a position (`repeatUntil`), the second until it answers nothing
(`collect`); the recursion ends because of it.
-/

namespace WasmSourceMap

/-- What a reader answers, with the position where it stopped. -/
inductive Outcome (ε α : Type) where
  | done (value : α) (position : Nat)
  | failed (fault : ε) (position : Nat)

/-- A reader of values of type `α` with faults of type `ε`. -/
def Reader (ε α : Type) := Bytes → Nat → Outcome ε α

/-- Why bytes cannot be read. -/
inductive ReadFault where
  | endOfData (offset : Nat) (wanted : Int) (got : Nat)
  | outOfRange
deriving DecidableEq, Repr

def ReadFault.message : ReadFault → String
  | .endOfData offset wanted got =>
    "Unexpected end of data at offset 0x" ++ Text.Hexadecimal.ofNat offset ++
      s!" (wanted {wanted} bytes, got {got})"
  | .outOfRange => "Position out of range"

namespace Reader

variable {ε ε' α β : Type}

/-- Positions and counts that lead past the end stay below this bound. -/
def positionBound : Nat := 0x8000000000000000

instance : Monad (Reader ε) where
  pure a := fun _ position => .done a position
  bind r f := fun data position =>
    match r data position with
    | .done a next => f a data next
    | .failed fault next => .failed fault next

/-- Fail without moving. -/
def fail (fault : ε) : Reader ε α := fun _ position => .failed fault position

/-- A value or a fault that does not depend on the bytes. -/
def ofExcept : Except ε α → Reader ε α
  | .ok a => pure a
  | .error fault => fail fault

/-- Fail unless a condition holds. -/
def check (condition : Bool) (fault : ε) : Reader ε Unit :=
  if condition then pure () else fail fault

def position : Reader ε Nat := fun _ position => .done position position

def length : Reader ε Nat := fun data position => .done data.length position

/-- The same reader with its fault seen through a function. -/
def mapFault (f : ε → ε') (r : Reader ε α) : Reader ε' α := fun data position =>
  match r data position with
  | .done a next => .done a next
  | .failed fault next => .failed (f fault) next

/-- The value or the fault, without the position. -/
def run (r : Reader ε α) (data : Bytes) (position : Nat) : Except ε α :=
  match r data position with
  | .done a _ => .ok a
  | .failed fault _ => .error fault

/-- Go to a position; it may lie past the end, but then it has to stay below the bound. -/
def seek (target : Nat) : Reader ReadFault Unit := fun data position =>
  if target ≤ data.length ∨ target < positionBound then .done () target
  else .failed .outOfRange position

def byte : Reader ReadFault UInt8 := fun data position =>
  match data[position]? with
  | some b => .done b (position + 1)
  | none => .failed (.endOfData position 1 0) position

/-- The next `count` bytes; a count that leads past the end has to stay below the bound. -/
def bytes (count : Nat) : Reader ReadFault Bytes := fun data position =>
  let taken := (data.drop position).take count
  if taken.length = count then .done taken (position + count)
  else if count < positionBound then
    .failed (.endOfData (position + taken.length) count taken.length) (position + taken.length)
  else .failed .outOfRange position

/-- The next little-endian number of `width` bytes. -/
def unsigned (width : Nat) : Reader ReadFault Nat := do
  return Bytes.toNatLE (← bytes width)

/-- The next `count` bytes as text. -/
def string (count : Nat) : Reader ReadFault String := do
  return Text.Utf8.decode (← bytes count)

/-- A byte that is read moves the position on. -/
theorem byte_done {data : Bytes} {position next : Nat} {b : UInt8}
    (h : byte data position = .done b next) : position < data.length ∧ next = position + 1 := by
  unfold byte at h
  split at h
  · rename_i e
    simp only [Outcome.done.injEq] at h
    exact ⟨(List.getElem?_eq_some_iff.1 e).1, h.2.symm⟩
  · cases h

/-- A natural number in groups of seven bits, the lowest group first, up to a byte without top bit.
-/
def ulebAt (data : Bytes) (position : Nat) : Outcome ReadFault Nat :=
  match _h : byte data position with
  | .failed fault next => .failed fault next
  | .done b next =>
    if b.toNat < 128 then .done b.toNat next
    else
      match ulebAt data next with
      | .done n last => .done (b.toNat % 128 + 128 * n) last
      | .failed fault last => .failed fault last
termination_by data.length - position
decreasing_by have := byte_done _h; omega

/-- The next natural number in groups of seven bits. -/
def uleb : Reader ReadFault Nat := ulebAt

/-- An integer in groups of seven bits: bit six of the last byte is the sign. -/
def slebAt (data : Bytes) (position : Nat) : Outcome ReadFault Int :=
  match _h : byte data position with
  | .failed fault next => .failed fault next
  | .done b next =>
    if b.toNat < 64 then .done b.toNat next
    else if b.toNat < 128 then .done (b.toNat - 128) next
    else
      match slebAt data next with
      | .done z last => .done ((b.toNat % 128 : Nat) + 128 * z) last
      | .failed fault last => .failed fault last
termination_by data.length - position
decreasing_by have := byte_done _h; omega

/-- The next integer in groups of seven bits. -/
def sleb : Reader ReadFault Int := slebAt

/-- The next text behind its length. -/
def name : Reader ReadFault String := do string (← uleb)

/-- The next bytes up to a zero byte, which is taken and dropped. -/
def zeroTerminated : Reader ReadFault Bytes := fun data position =>
  let rest := data.drop position
  let taken := rest.takeWhile (· != 0)
  if taken.length < rest.length then .done taken (position + taken.length + 1)
  else .failed (.endOfData (position + taken.length) 1 0) (position + taken.length)

/-- The same reader `count` times. -/
def times : Nat → Reader ε α → Reader ε (List α)
  | 0, _ => pure []
  | count + 1, r => do
    let a ← r
    let rest ← times count r
    return a :: rest

/-- The reader stops after its start when it succeeds. -/
def Advances (r : Reader ε α) : Prop :=
  ∀ ⦃data position a next⦄, r data position = .done a next → position < next

/-- Repeat a reader that advances while the position lies before `stop`. -/
def repeatUntilAt (stop : Nat) (r : Reader ε α) (advances : Advances r) (data : Bytes)
    (position : Nat) : Outcome ε (List α) :=
  if position < stop then
    match _h : r data position with
    | .failed fault next => .failed fault next
    | .done a next =>
      match repeatUntilAt stop r advances data next with
      | .done rest last => .done (a :: rest) last
      | .failed fault last => .failed fault last
  else .done [] position
termination_by stop - position
decreasing_by have := advances _h; omega

/-- The values of a reader that is repeated while the position lies before `stop`. -/
def repeatUntil (stop : Nat) (r : Reader ε α) (advances : Advances r) : Reader ε (List α) :=
  repeatUntilAt stop r advances

/-- The reader stops after its start and inside the data or at its end when it succeeds. -/
def Consumes (r : Reader ε α) : Prop :=
  ∀ ⦃data position a next⦄, r data position = .done a next → position < next ∧ next ≤ data.length

/-- Repeat a reader that consumes data until it answers nothing. -/
def collectAt (r : Reader ε (Option α)) (consumes : Consumes r) (data : Bytes) (position : Nat) :
    Outcome ε (List α) :=
  match _h : r data position with
  | .failed fault next => .failed fault next
  | .done none next => .done [] next
  | .done (some a) next =>
    match collectAt r consumes data next with
    | .done rest last => .done (a :: rest) last
    | .failed fault last => .failed fault last
termination_by data.length - position
decreasing_by have := consumes _h; omega

/-- The values of a reader that is repeated until it answers nothing. -/
def collect (r : Reader ε (Option α)) (consumes : Consumes r) : Reader ε (List α) :=
  collectAt r consumes

end Reader

end WasmSourceMap
