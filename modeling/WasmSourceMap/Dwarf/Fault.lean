import WasmSourceMap.Reader.Progress

/-!
# Faults of debug information

Why debug information cannot be used. Data that ends early or has no meaning is `undecodable`, and
only this fault is skippable: a unit that has it is left out. All other faults stop the whole run.
-/

namespace WasmSourceMap.Dwarf

/-- Why debug information cannot be used. -/
inductive Fault where
  | undecodable
  | missingSection
  | badAddressSize
  | wrongKind
  | missingField
  | zeroDivisor
  | outOfRange
deriving DecidableEq, Repr

namespace Fault

/-- Whether a unit with this fault is left out. -/
def isSkippable : Fault → Bool
  | .undecodable => true
  | _ => false

/-- The fault of a failed read. -/
def ofRead : ReadFault → Fault
  | .endOfData .. => .undecodable
  | .outOfRange => .outOfRange

end Fault

instance : MonadLift (Reader ReadFault) (Reader Fault) := ⟨Reader.mapFault .ofRead⟩

/-- Go to an offset that was computed; there is nothing to decode before the start of the data. -/
def seekTo (target : Int) : Reader Fault Unit :=
  if 0 ≤ target then Reader.seek target.toNat
  else if -(Reader.positionBound : Int) ≤ target then Reader.fail .undecodable
  else Reader.fail .outOfRange

/-- The text at an offset of a string section; none if no zero byte ends it. -/
def stringAt (data : Bytes) (offset : Int) : Except Fault (Option Bytes) :=
  match seekTo offset data 0 with
  | .failed fault _ => .error fault
  | .done _ position =>
    match Reader.zeroTerminated data position with
    | .done text _ => .ok (some text)
    | .failed _ _ => .ok none

end WasmSourceMap.Dwarf
