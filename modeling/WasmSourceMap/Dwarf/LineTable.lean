import WasmSourceMap.Dwarf.LineProgram

/-!
# Line tables

A line table is parsed once per offset and kept in the `Memory` of a view, with everything in it:
the layout of the unit that asked for it first, the files its program added and its rows once they
are decoded. `Recall` is a computation that may fail and leaves its mark on the memory in both
cases.

The memory also keeps which units were entered, since looking up indexes is tried once per unit,
and where the last read of the line section stopped, since a table without an offset is read there.
-/

namespace WasmSourceMap.Dwarf

/-- A parsed line table: the layout it is read with, its header, where its program lies, its files
and its rows once they are decoded. -/
structure LineTable where
  layout : Layout
  header : LineHeader
  start : Nat
  stop : Nat
  files : Option (List LineFile)
  rows : Option (List Row)
deriving DecidableEq, Repr

/-- What earlier readings of a view left. -/
structure Memory where
  entered : List Nat := []
  tables : List (Int × LineTable) := []
  linePosition : Nat := 0
deriving DecidableEq, Repr

/-- A computation that may fail and leaves its mark on the memory. -/
abbrev Recall (α : Type) := ExceptT Fault (StateM Memory) α

/-- The directory and the name of a file of a row. -/
structure FileEntry where
  name : String
  directory : Option String
deriving DecidableEq, Repr

namespace LineTable

def fileCount (t : LineTable) : Nat := (t.files.getD []).length

/-- The file number of a row as a place in the list: from version 5 on files count from zero. -/
def filePlace (t : LineTable) (index : Nat) : Option Nat :=
  if 5 ≤ t.header.version then some index else if index = 0 then none else some (index - 1)

/-- The directory number of a file as a place in the list: from version 5 on directories count from
zero, before that zero is the compilation directory. -/
def directoryPlace (t : LineTable) (directory : Value) : Except Fault Int :=
  match directory.toInt? with
  | some n => .ok (if 5 ≤ t.header.version then n else n - 1)
  | none => .error .wrongKind

/-- The directory at a place; a place outside the list has none. -/
def directoryAt (t : LineTable) : Int → Except Fault (Option String)
  | .negSucc _ => .ok none
  | .ofNat place =>
    match t.header.directories with
    | none => .error .wrongKind
    | some directories => .ok ((directories[place]?).bind Value.text?)

/-- The file of a row; a number outside the list has none. -/
def fileEntry (t : LineTable) (index : Nat) : Except Fault (Option FileEntry) :=
  match t.filePlace index with
  | none => .ok none
  | some place =>
    match t.files with
    | none => .error .wrongKind
    | some files =>
      match files[place]? with
      | none => .ok none
      | some file =>
        match file.directory with
        | none => .error .missingField
        | some directory => do
          let directory ← t.directoryAt (← t.directoryPlace directory)
          return some { name := file.name.text?.getD "", directory }

end LineTable

namespace Memory

/-- The line table that is kept for an offset. -/
def table? (m : Memory) (offset : Int) : Option LineTable :=
  (m.tables.find? fun entry => entry.1 == offset).map (·.2)

/-- Keep a line table for an offset, in the place of the one there. -/
def keep (m : Memory) (offset : Int) (t : LineTable) : Memory :=
  { m with tables := (offset, t) :: m.tables.filter fun entry => entry.1 != offset }

end Memory

namespace View

/-- The attributes of the top entry of a unit. Indexes are looked up when a unit is entered first;
if that fails, the attributes are what they were then from the second time on. -/
def attributes (v : View) (u : UnitHeader) : Recall Attributes := do
  let (found, fault) ← liftExcept (v.entry u)
  let m ← get
  if m.entered.contains u.offset then return found
  else
    set { m with entered := u.offset :: m.entered }
    match fault with
    | none => return found
    | some fault => throw fault
where
  /-- A result that does not depend on the memory. -/
  liftExcept {α : Type} : Except Fault α → Recall α
    | .ok a => pure a
    | .error fault => throw fault

def compilationDirectory (v : View) (u : UnitHeader) : Recall (Option String) := do
  let attributes ← v.attributes u
  return (attributes.get? AttributeName.compilationDirectory).bind Value.text?

/-- Read the header of a line table at a position of the line section. -/
def parseLineHeader (v : View) (l : Layout) (data : Bytes) (position : Nat) :
    Recall (LineHeader × Nat) := do
  match v.readLineHeader l data position with
  | .done header next =>
    modify fun m => { m with linePosition := next }
    return (header, next)
  | .failed fault next =>
    modify fun m => { m with linePosition := next }
    throw fault

/-- Parse the line table at an offset and keep it. -/
def parseLineTable (v : View) (l : Layout) (data : Bytes) (offset : Int) : Recall LineTable := do
  match seekTo offset data 0 with
  | .failed fault _ => throw fault
  | .done _ position =>
    let (header, start) ← v.parseLineHeader l data position
    let stop := position + header.length + l.lengthWidth
    let t : LineTable := { layout := l, header, start, stop, files := header.files, rows := none }
    modify fun m => m.keep offset t
    return t

def lineTableAt (v : View) (l : Layout) (data : Bytes) (offset : Int) : Recall LineTable := do
  match (← get).table? offset with
  | some t => return t
  | none => v.parseLineTable l data offset

/-- The line table of a unit, with its offset; none if there is no line section, which is found out
without entering the unit, or the unit has no table. -/
def lineTable (v : View) (u : UnitHeader) : Recall (Option (Int × LineTable)) := do
  match v.sections.get? .line with
  | none => return none
  | some found =>
    let attributes ← v.attributes u
    match attributes.get? AttributeName.lineTable with
    | none => return none
    | some .null =>
      let _header ← v.parseLineHeader u.layout found.data (← get).linePosition
      throw .wrongKind
    | some value =>
      match value.toInt? with
      | none => throw .wrongKind
      | some offset => return some (offset, ← v.lineTableAt u.layout found.data offset)

/-- Run the program of a line table and keep what it leaves. -/
def runLineTable (data : Bytes) (offset : Int) (t : LineTable) : Recall (List Row) := do
  let run := LineRun.from t.header t.layout t.stop data t.start ⟨{}, t.files⟩
  modify fun m =>
    { m.keep offset { t with files := run.files, rows := run.rows.toOption } with
      linePosition := if t.start < t.stop then run.position else m.linePosition }
  match run.rows with
  | .ok rows => return rows
  | .error fault => throw fault

/-- The rows of a line table, and the table with the files its program added. -/
def rows (v : View) (offset : Int) (t : LineTable) : Recall (List Row × LineTable) := do
  match t.rows, v.sections.get? .line with
  | some rows, _ => return (rows, t)
  | none, none => throw .missingSection
  | none, some found =>
    let rows ← runLineTable found.data offset t
    return (rows, ((← get).table? offset).getD t)

/-- The headers of all units and the fault that ended them if there is one. -/
def units (v : View) : List UnitHeader × Option Fault :=
  match v.sections.get? .info with
  | none => ([], none)
  | some found => UnitHeader.list found.data

end View

end WasmSourceMap.Dwarf
