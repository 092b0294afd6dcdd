import WasmSourceMap.Dwarf.LineTable

/-!
# Summaries of units

A summary shows what the debug information says about a unit, step by step: its line table, its
compilation directory, the files and the rows. The first step that fails ends the summary.
-/

namespace WasmSourceMap.Dwarf

/-- What a unit says. A step that was not reached is missing; the version of the line table is
`some none` if the unit has no table. -/
structure UnitSummary where
  unit : UnitHeader
  directory : Option (Option String) := none
  tableVersion : Option (Option Nat) := none
  files : Option (List (Option FileEntry)) := none
  rows : Option (List Row) := none
  fault : Option Fault := none
deriving Repr

namespace UnitSummary

/-- The files of a table up to one past the number of files, as far as they can be looked up. -/
def listFiles (t : LineTable) : List Nat → List (Option FileEntry) × Option Fault
  | [] => ([], none)
  | index :: rest =>
    match t.fileEntry index with
    | .error fault => ([], some fault)
    | .ok entry =>
      let (entries, fault) := listFiles t rest
      (entry :: entries, fault)

/-- The summary of a unit that has a line table. -/
def ofTable (v : View) (s : UnitSummary) (offset : Int) (t : LineTable) (m : Memory) :
    UnitSummary × Memory :=
  let (files, fault) := listFiles t (List.range (t.fileCount + 2))
  let s := { s with tableVersion := some (some t.header.version), files := some files }
  match fault with
  | some fault => ({ s with fault := some fault }, m)
  | none =>
    match (v.rows offset t).run m with
    | (.ok (rows, _), m) => ({ s with rows := some rows }, m)
    | (.error fault, m) => ({ s with fault := some fault }, m)

def ofUnit (v : View) (u : UnitHeader) (m : Memory) : UnitSummary × Memory :=
  match (v.lineTable u).run m with
  | (.error fault, m) => ({ unit := u, fault := some fault }, m)
  | (.ok table, m) =>
    match (v.compilationDirectory u).run m with
    | (.error fault, m) => ({ unit := u, fault := some fault }, m)
    | (.ok directory, m) =>
      let s : UnitSummary := { unit := u, directory := some directory }
      match table with
      | none => ({ s with tableVersion := some none }, m)
      | some (offset, t) => ofTable v s offset t m

def list (v : View) : List UnitHeader → Memory → List UnitSummary
  | [], _ => []
  | u :: rest, m =>
    let (s, m) := ofUnit v u m
    s :: list v rest m

end UnitSummary

end WasmSourceMap.Dwarf
