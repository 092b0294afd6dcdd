import WasmSourceMap.Position.Build
import WasmSourceMap.Proofs.Dwarf.FileLookup
import WasmSourceMap.Proofs.Dwarf.Recall
import WasmSourceMap.Proofs.Position.KnownPaths
import WasmSourceMap.Proofs.Position.LastWrite
import WasmSourceMap.Proofs.Results

/-!
# Tables and their rows

The rows of the units that can be decoded, one unit after the other (`View.decodedRows`), are all
that a position table is made of. A build reads the units in the same way, with the points of the
rows in the place of the rows (`run_unitPoints`), and a build that succeeds has left out the units
that cannot be decoded and no other. So its table is the table of the points of all rows
(`table_of_build`), each of which has the adjusted address of its row.
-/

namespace WasmSourceMap

open Dwarf (View UnitHeader Memory Recall Row LineTable run_bind_of_ok run_bind_of_error
  run_adapt_of_ok run_adapt_of_error)

/-- A row with what its file is found by: its line table and the directory of the compilation. -/
structure SourcedRow where
  row : Row
  table : LineTable
  directory : Option String

namespace SourcedRow

/-- The path of the file; none if the line table has no such file. -/
def path (r : SourcedRow) : Except Dwarf.Fault (Option String) :=
  Position.filePath r.table r.directory r.row.file

/-- The address in the module file. The end of a sequence moves back onto the sequence. -/
def address (codeOffset : Int) (r : SourcedRow) : Int :=
  let address := r.row.address + codeOffset
  if r.row.endSequence ∧ 0 < address then address - 1 else address

/-- The point of a row whose file has a path or none. -/
def pointWith (codeOffset : Int) (r : SourcedRow) (path : Option String) : Point where
  source := path
  address := r.address codeOffset
  line := if path.isNone then 0 else r.row.line
  column := r.row.column
  endSequence := r.row.endSequence

/-- The numbers of the row that have to fit 32 bits, with the address in the module file. -/
def number (codeOffset : Int) (r : SourcedRow) : Position.Quantity → Int
  | .address => r.row.address + codeOffset
  | .line => r.row.line
  | .column => r.row.column

/-- The point of a row. -/
def point (codeOffset : Int) (r : SourcedRow) : Point :=
  r.pointWith codeOffset r.path.toOption.join

end SourcedRow

namespace Dwarf.View

/-- The rows of a unit; none if it has no line table. -/
def unitRows (v : View) (u : UnitHeader) : Recall (List SourcedRow) := do
  match ← v.lineTable u with
  | none => return []
  | some (offset, t) =>
    let directory ← v.compilationDirectory u
    let (rows, t) ← v.rows offset t
    return rows.map fun r => ⟨r, t, directory⟩

/-- The rows of each unit, or why the unit cannot be decoded. A unit leaves its mark on the memory
for the units after it. -/
def decodeUnits (v : View) : List UnitHeader → Memory → List (Except Fault (List SourcedRow))
  | [], _ => []
  | u :: rest, m =>
    let (decoded, m) := (v.unitRows u).run m
    decoded :: v.decodeUnits rest m

/-- The rows of the units that can be decoded, in the order of the units. -/
def decodedRows (v : View) (m : Memory) : List SourcedRow :=
  ((v.decodeUnits v.units.1 m).filterMap Except.toOption).flatten

end Dwarf.View

/-- The number fits 32 bits. -/
def FitsWord (value : Int) : Prop := 0 ≤ value ∧ value < Position.wordBound

namespace Position

variable {v : View} {codeOffset : Int}

/-- A number that fits is the number itself. -/
lemma checkWord_ok {quantity : Quantity} {value checked : Int}
    (h : checkWord quantity value = .ok checked) : checked = value ∧ FitsWord value := by
  unfold checkWord at h
  split at h
  · rename_i fits
    exact ⟨(Except.ok.inj h).symm, fits⟩
  · cases h

/-- A number that does not fit is told. -/
lemma checkWord_error {quantity : Quantity} {value : Int} {fault : Fault}
    (h : checkWord quantity value = .error fault) :
    fault = .tooWide quantity value ∧ ¬FitsWord value := by
  unfold checkWord at h
  split at h
  · cases h
  · rename_i wide
    exact ⟨(Except.error.inj h).symm, wide⟩

/-- A row that becomes a point becomes its own point. -/
lemma pointOfRow_ok {r : SourcedRow} {p : Point}
    (h : pointOfRow r.table r.directory codeOffset r.row = .ok p) : p = r.point codeOffset := by
  unfold pointOfRow checkedPoint at h
  obtain ⟨address, here, h⟩ := Except.bind_ok h
  obtain ⟨line, inLine, h⟩ := Except.bind_ok h
  obtain ⟨column, inColumn, h⟩ := Except.bind_ok h
  obtain ⟨path, source, h⟩ := Except.bind_ok h
  have found : r.path = .ok path := Except.ok_of_mapError source
  rw [(checkWord_ok here).1, (checkWord_ok inLine).1, (checkWord_ok inColumn).1] at h
  rw [SourcedRow.point, found]
  exact (Except.ok.inj h).symm

/-- A path is not found if the file cannot be looked up. -/
lemma pathOf_error {t : LineTable} {directory : Option String} {file : Nat} {fault : Fault}
    (h : pathOf t directory file = .error fault) :
    ∃ own, fault = .debugInfo own ∧ t.fileEntry file = .error own := by
  obtain ⟨own, failed, rfl⟩ := Except.error_of_mapError h
  rcases Except.bind_error failed with failed | ⟨entry, _, failed⟩
  · exact ⟨own, rfl, failed⟩
  · cases failed

/-- Why a row does not become a point: one of its numbers does not fit 32 bits, or its file cannot
be looked up. -/
lemma pointOfRow_error {r : SourcedRow} {fault : Fault}
    (h : pointOfRow r.table r.directory codeOffset r.row = .error fault) :
    (∃ quantity, fault = .tooWide quantity (r.number codeOffset quantity) ∧
      ¬FitsWord (r.number codeOffset quantity)) ∨
    ∃ own, fault = .debugInfo own ∧ r.table.fileEntry r.row.file = .error own := by
  unfold pointOfRow checkedPoint at h
  rcases Except.bind_error h with h | ⟨address, _, h⟩
  · exact .inl ⟨.address, checkWord_error h⟩
  rcases Except.bind_error h with h | ⟨line, _, h⟩
  · exact .inl ⟨.line, checkWord_error h⟩
  rcases Except.bind_error h with h | ⟨column, _, h⟩
  · exact .inl ⟨.column, checkWord_error h⟩
  rcases Except.bind_error h with h | ⟨path, _, h⟩
  · exact .inr (pathOf_error h)
  · cases h

/-- A row that does not become a point is no reason to leave a unit out. -/
lemma pointOfRow_lasting {r : SourcedRow} {fault : Fault}
    (h : pointOfRow r.table r.directory codeOffset r.row = .error fault) :
    fault.isSkippable = false := by
  rcases pointOfRow_error h with ⟨quantity, rfl, _⟩ | ⟨own, rfl, failed⟩
  · rfl
  · exact LineTable.fileEntry_lasting failed

/-- The points of some rows, unless one of them does not become a point. -/
def pointsOf (codeOffset : Int) (rows : List SourcedRow) : Except Fault (List Point) :=
  rows.mapM fun r => pointOfRow r.table r.directory codeOffset r.row

/-- The points of rows are the points of each of them. -/
lemma pointsOf_ok {rows : List SourcedRow} {points : List Point}
    (h : pointsOf codeOffset rows = .ok points) : points = rows.map (·.point codeOffset) := by
  have each := Except.mapM_ok h
  clear h
  induction each with
  | nil => rfl
  | cons first _ ih => rw [pointOfRow_ok first, ih, List.map_cons]

/-- Rows that do not become points are no reason to leave a unit out. -/
lemma pointsOf_error {rows : List SourcedRow} {fault : Fault}
    (h : pointsOf codeOffset rows = .error fault) : fault.isSkippable = false := by
  obtain ⟨r, _, failed⟩ := Except.mapM_error h
  exact pointOfRow_lasting failed

/-- The points of a unit are those of its rows. -/
lemma run_unitPoints (v : View) (codeOffset : Int) (u : UnitHeader) (m : Memory) :
    (unitPoints v codeOffset u).run m =
      match (v.unitRows u).run m with
      | (.ok rows, after) => (pointsOf codeOffset rows, after)
      | (.error fault, after) => (.error (.debugInfo fault), after) := by
  unfold unitPoints View.unitRows
  rcases inTable : (v.lineTable u).run m with ⟨_ | _ | ⟨offset, t⟩, m₁⟩
  · rw [run_bind_of_error inTable, run_bind_of_error (run_adapt_of_error inTable)]
  · rw [run_bind_of_ok inTable, run_bind_of_ok (run_adapt_of_ok inTable)]
    rfl
  rw [run_bind_of_ok inTable, run_bind_of_ok (run_adapt_of_ok inTable)]
  rcases inDirectory : (v.compilationDirectory u).run m₁ with ⟨_ | directory, m₂⟩
  · rw [run_bind_of_error inDirectory, run_bind_of_error (run_adapt_of_error inDirectory)]
  rw [run_bind_of_ok inDirectory, run_bind_of_ok (run_adapt_of_ok inDirectory)]
  rcases inRows : (v.rows offset t).run m₂ with ⟨_ | ⟨rows, t⟩, m₃⟩
  · rw [run_bind_of_error inRows, run_bind_of_error (run_adapt_of_error inRows)]
  rw [run_bind_of_ok inRows, run_bind_of_ok (run_adapt_of_ok inRows)]
  show (pointsOfRows t directory codeOffset rows, m₃) =
    (pointsOf codeOffset (rows.map fun r => ⟨r, t, directory⟩), m₃)
  rw [pointsOfRows_eq_mapM, pointsOf, List.mapM_map]
  rfl

section

variable {ended : Option Dwarf.Fault} {u : UnitHeader} {rest units : List UnitHeader}
  {t built : PositionTable} {m after : Memory}

lemma table_buildFrom_of_ok {points : List Point}
    (h : (unitPoints v codeOffset u).run m = (.ok points, after)) :
    (buildFrom v codeOffset ended (u :: rest) t m).table =
      (buildFrom v codeOffset ended rest (t.insertAll points) after).table := by
  rw [buildFrom, h]

lemma table_buildFrom_of_error {fault : Fault}
    (h : (unitPoints v codeOffset u).run m = (.error fault, after)) :
    (buildFrom v codeOffset ended (u :: rest) t m).table =
      if fault.isSkippable then (buildFrom v codeOffset ended rest t after).table
      else .error fault := by
  rw [buildFrom, h]
  show (if fault.isSkippable then _ else _ : Built).table = _
  split <;> rfl

/-- What a build that succeeds does with a unit: it leaves it out, with a fault that is skippable,
or it inserts the points of its rows. -/
lemma buildFrom_cons_ok
    (h : (buildFrom v codeOffset ended (u :: rest) t m).table = .ok built) :
    (∃ fault after, (v.unitRows u).run m = (.error fault, after) ∧ fault.isSkippable = true ∧
      (buildFrom v codeOffset ended rest t after).table = .ok built) ∨
    (∃ rows after, (v.unitRows u).run m = (.ok rows, after) ∧
      (buildFrom v codeOffset ended rest (t.insertAll (rows.map (·.point codeOffset))) after).table =
        .ok built) := by
  have unit := run_unitPoints v codeOffset u m
  rcases decoded : (v.unitRows u).run m with ⟨fault | rows, after⟩ <;> rw [decoded] at unit
  · rw [table_buildFrom_of_error unit] at h
    split at h
    · rename_i skippable
      exact .inl ⟨fault, after, rfl, skippable, h⟩
    · cases h
  · change _ = (pointsOf codeOffset rows, after) at unit
    cases placed : pointsOf codeOffset rows with
    | error fault =>
      -- A row without a point is no reason to leave the unit out, so the build would have failed.
      rw [placed] at unit
      rw [table_buildFrom_of_error unit, pointsOf_error placed] at h
      cases h
    | ok points =>
      rw [placed] at unit
      rw [table_buildFrom_of_ok unit, pointsOf_ok placed] at h
      exact .inr ⟨rows, after, rfl, h⟩

lemma finish_ok (h : finish ended t = .ok built) : built = t := by
  unfold finish at h
  split at h
  · exact (Except.ok.inj h).symm
  · split at h <;> cases h

/-- A build that succeeds goes through all units and inserts the points of all rows that can be
decoded. -/
lemma table_of_buildFrom (h : (buildFrom v codeOffset ended units t m).table = .ok built) :
    built = t.insertAll
      (((v.decodeUnits units m).filterMap Except.toOption).flatten.map (·.point codeOffset)) := by
  induction units generalizing t m with
  | nil => exact finish_ok h
  | cons u rest ih =>
    rw [View.decodeUnits]
    rcases buildFrom_cons_ok h with ⟨fault, after, decoded, _, h⟩ | ⟨rows, after, decoded, h⟩
    · rw [decoded]
      exact ih h
    · rw [decoded]
      show _ = t.insertAll ((rows ++ _).map _)
      rw [ih h, List.map_append, PositionTable.insertAll_append]

/-- A build that succeeds leaves out only units with a fault that is skippable. -/
lemma skippable_of_buildFrom {fault : Dwarf.Fault}
    (h : (buildFrom v codeOffset ended units t m).table = .ok built)
    (left : .error fault ∈ v.decodeUnits units m) : fault.isSkippable = true := by
  induction units generalizing t m with
  | nil => cases left
  | cons u rest ih =>
    rw [View.decodeUnits] at left
    rcases buildFrom_cons_ok h with ⟨own, after, decoded, skippable, h⟩ | ⟨rows, after, decoded, h⟩
    · rw [decoded] at left
      rcases List.mem_cons.1 left with e | later
      · cases e
        exact skippable
      · exact ih h later
    · rw [decoded] at left
      rcases List.mem_cons.1 left with e | later
      · cases e
      · exact ih h later

/-- The table of a build that succeeds is the table of the points of all decoded rows, and every
unit without rows among them has a fault that is skippable. -/
theorem table_of_build (h : (build v codeOffset m).table = .ok built) :
    built = .ofList ((v.decodedRows m).map (·.point codeOffset)) ∧
      ∀ fault, .error fault ∈ v.decodeUnits v.units.1 m → fault.isSkippable = true :=
  ⟨table_of_buildFrom h, fun _ left => skippable_of_buildFrom h left⟩

end

end Position

end WasmSourceMap
