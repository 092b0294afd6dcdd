import WasmSourceMap.Dwarf.LineTable
import WasmSourceMap.Notice
import WasmSourceMap.Position.Table
import WasmSourceMap.SourcePath

/-!
# Building position tables

The rows of all units become points with addresses in the file. All rows of a unit are decoded
before any of them reaches the table, and a unit that cannot be decoded is left out with a notice.
Rows that do not fit 32 bits stop the build, and so does a list of units that cannot be read.
-/

namespace WasmSourceMap.Position

open Dwarf (View UnitHeader Memory Row LineTable)

/-- The numbers of a point that have 32 bits. -/
inductive Quantity where
  | address
  | line
  | column
deriving DecidableEq, Repr

def Quantity.name : Quantity → String
  | .address => "Address"
  | .line => "Line"
  | .column => "Column"

/-- Why a table cannot be built. -/
inductive Fault where
  | unitList
  | tooWide (quantity : Quantity) (value : Int)
  | debugInfo (fault : Dwarf.Fault)
deriving DecidableEq, Repr

namespace Fault

def message : Fault → String
  | .unitList => "Cannot read compilation unit header"
  | .tooWide quantity value => s!"{quantity.name} {value} does not fit in 32 bits"
  | .debugInfo _ => "Unusable debug information"

/-- Whether a unit with this fault is left out. -/
def isSkippable : Fault → Bool
  | .debugInfo fault => fault.isSkippable
  | _ => false

end Fault

/-- Numbers of a point stay below this bound. -/
def wordBound : Int := 0x100000000

/-- A number that has to fit 32 bits. -/
def checkWord (quantity : Quantity) (value : Int) : Except Fault Int :=
  if 0 ≤ value ∧ value < wordBound then .ok value else .error (.tooWide quantity value)

/-- The path of a file of a line table; none if the number is not in the table. -/
def filePath (t : LineTable) (directory : Option String) (file : Nat) :
    Except Dwarf.Fault (Option String) := do
  let entry ← t.fileEntry file
  return entry.map fun e => SourcePath.join e.name e.directory directory

/-- The path of a file, as part of a build. -/
def pathOf (t : LineTable) (directory : Option String) (file : Nat) :
    Except Fault (Option String) :=
  (filePath t directory file).mapError .debugInfo

/-- The point of a row whose file has the path. A row without a file has no source position, and the
end of a sequence, which is the address after it, moves back onto the sequence. -/
def checkedPoint (path : Except Fault (Option String)) (codeOffset : Int) (r : Row) :
    Except Fault Point := do
  let address ← checkWord .address (r.address + codeOffset)
  let line ← checkWord .line r.line
  let column ← checkWord .column r.column
  let source ← path
  return {
    source
    address := if r.endSequence ∧ 0 < address then address - 1 else address
    line := if source.isNone then 0 else line
    column
    endSequence := r.endSequence }

/-- The paths of the files that were looked up, by the number of the file. A file that has no path
is among them. -/
abbrev KnownPaths := List (Nat × Option String)

/-- The path of a file, which is looked up unless it is known. -/
def recallPath (t : LineTable) (directory : Option String) (known : KnownPaths) (file : Nat) :
    Except Fault (Option String) :=
  match known.lookup file with
  | some path => .ok path
  | none => pathOf t directory file

/-- Keep the path of a file, unless it is known. -/
def remember (known : KnownPaths) (file : Nat) (path : Option String) : KnownPaths :=
  match known.lookup file with
  | some _ => known
  | none => (file, path) :: known

/-- The points of rows, with some paths known. -/
def pointsFrom (t : LineTable) (directory : Option String) (codeOffset : Int) :
    KnownPaths → List Row → Except Fault (List Point)
  | _, [] => .ok []
  | known, r :: rest => do
    let p ← checkedPoint (recallPath t directory known r.file) codeOffset r
    let points ← pointsFrom t directory codeOffset (remember known r.file p.source) rest
    return p :: points

/-- The points of the rows of a unit. Each file is looked up once. -/
def pointsOfRows (t : LineTable) (directory : Option String) (codeOffset : Int)
    (rows : List Row) : Except Fault (List Point) :=
  pointsFrom t directory codeOffset [] rows

/-- The points of a unit; none if it has no line table. -/
def unitPoints (v : View) (codeOffset : Int) (u : UnitHeader) :
    ExceptT Fault (StateM Memory) (List Point) := do
  match ← (v.lineTable u).adapt Fault.debugInfo with
  | none => return []
  | some (offset, t) =>
    let directory ← (v.compilationDirectory u).adapt Fault.debugInfo
    let (rows, t) ← (v.rows offset t).adapt Fault.debugInfo
    .mk (pure (pointsOfRows t directory codeOffset rows))

/-- What a build leaves: the table, what it tells and what it keeps in memory. -/
structure Built where
  table : Except Fault PositionTable
  notices : List Notice
  memory : Memory

/-- The table after all units, unless the list of units ended with a fault. -/
def finish (ended : Option Dwarf.Fault) (t : PositionTable) : Except Fault PositionTable :=
  match ended with
  | none => .ok t
  | some fault => if fault.isSkippable then .error .unitList else .error (.debugInfo fault)

/-- Build on with some units. -/
def buildFrom (v : View) (codeOffset : Int) (ended : Option Dwarf.Fault) :
    List UnitHeader → PositionTable → Memory → Built
  | [], t, m => ⟨finish ended t, [], m⟩
  | u :: rest, t, m =>
    match (unitPoints v codeOffset u).run m with
    | (.ok points, m) => buildFrom v codeOffset ended rest (t.insertAll points) m
    | (.error fault, m) =>
      if fault.isSkippable then
        let built := buildFrom v codeOffset ended rest t m
        { built with notices := .skippedUnit u.offset :: built.notices }
      else ⟨.error fault, [], m⟩

/-- Build the table of all units. -/
def build (v : View) (codeOffset : Int) (m : Memory) : Built :=
  buildFrom v codeOffset v.units.2 v.units.1 .empty m

end WasmSourceMap.Position
