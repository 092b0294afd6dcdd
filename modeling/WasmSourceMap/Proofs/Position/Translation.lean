import WasmSourceMap.Proofs.Position.DecodedRows
import WasmSourceMap.Proofs.Position.FileVersions

/-!
# Rows and their points

Rows become points all or none. If every number of every row fits 32 bits, each row gives one point
in its place (`SourcedRow.Gives`); otherwise the first number that does not fit is told
(`FirstOverflow`). Nothing else stops a unit whose line table is complete (`LineTable.Complete`),
since each of its files can be looked up, and it makes no difference which of them were looked up
before (`Position.pointsOfRows_eq_mapM`).
-/

namespace WasmSourceMap

open Dwarf (View UnitHeader Memory LineTable Row run_bind_of_ok run_adapt_of_ok)

namespace Dwarf.LineTable

/-- The files and directories are listed, and each file has the number of its directory. -/
structure Complete (t : LineTable) : Prop where
  files : ∃ files, t.files = some files ∧
    ∀ file ∈ files, ∃ value n, file.directory = some value ∧ value.toInt? = some n
  directories : t.header.directories.isSome = true

/-- Every file number can be looked up in a complete table. -/
lemma Complete.fileEntry {t : LineTable} (complete : t.Complete) (index : Nat) :
    ∃ entry, t.fileEntry index = .ok entry := by
  obtain ⟨listed, given, numbered⟩ := complete.files
  have directories := complete.directories
  cases looked : t.fileEntry index with
  | ok entry => exact ⟨entry, rfl⟩
  | error fault =>
    rcases fileEntry_error looked with ⟨_, missing | missing⟩ | ⟨files, file, same, mem, cause⟩
    · cases given.symm.trans missing
    · rw [missing] at directories
      cases directories
    · cases given.symm.trans same
      obtain ⟨value, n, inDirectory, number⟩ := numbered file mem
      rcases cause with ⟨_, absent⟩ | ⟨_, other, present, kind⟩
      · cases inDirectory.symm.trans absent
      · cases inDirectory.symm.trans present
        cases number.symm.trans kind

end Dwarf.LineTable

/-- The place of a number among those of a row, in the order in which they are checked. -/
def Position.Quantity.place : Position.Quantity → Nat
  | .address => 0
  | .line => 1
  | .column => 2

namespace SourcedRow

/-- All numbers of the row fit 32 bits. -/
def Fits (codeOffset : Int) (r : SourcedRow) : Prop :=
  ∀ quantity, FitsWord (r.number codeOffset quantity)

/-- The number is the first one of the row that does not fit 32 bits. -/
structure Overflows (codeOffset : Int) (r : SourcedRow) (quantity : Position.Quantity) : Prop where
  wide : ¬FitsWord (r.number codeOffset quantity)
  first : ∀ earlier : Position.Quantity, earlier.place < quantity.place →
    FitsWord (r.number codeOffset earlier)

/-- What the point of a row says: the path of the file, no line without a path, and the address in
the module file, or the one before it at the end of a sequence. -/
structure Gives (codeOffset : Int) (r : SourcedRow) (p : Point) : Prop where
  source : r.path = .ok p.source
  address : p.address = r.row.address + codeOffset -
    if r.row.endSequence = true ∧ 0 < r.row.address + codeOffset then 1 else 0
  line : p.line = if p.source = none then 0 else r.row.line
  column : p.column = r.row.column
  endSequence : p.endSequence = r.row.endSequence

variable {codeOffset : Int} {r : SourcedRow}

/-- Some number of a row is the first one that does not fit, unless all of them fit. -/
lemma fits_or_overflows (codeOffset : Int) (r : SourcedRow) :
    r.Fits codeOffset ∨ ∃ quantity, r.Overflows codeOffset quantity := by
  by_cases address : FitsWord (r.number codeOffset .address)
  case neg =>
    exact .inr ⟨.address, address, fun earlier before => absurd before (Nat.not_lt_zero _)⟩
  by_cases line : FitsWord (r.number codeOffset .line)
  case neg =>
    refine .inr ⟨.line, line, fun earlier before => ?_⟩
    cases earlier with
    | address => exact address
    | line => exact absurd before (Nat.lt_irrefl _)
    | column => exact absurd before (by decide)
  by_cases column : FitsWord (r.number codeOffset .column)
  case neg =>
    refine .inr ⟨.column, column, fun earlier before => ?_⟩
    cases earlier with
    | address => exact address
    | line => exact line
    | column => exact absurd before (Nat.lt_irrefl _)
  refine .inl fun quantity => ?_
  cases quantity with
  | address => exact address
  | line => exact line
  | column => exact column

lemma gives_point {path : Option String} (found : r.path = .ok path) :
    r.Gives codeOffset (r.point codeOffset) := by
  have own : r.point codeOffset = r.pointWith codeOffset path := by
    rw [point, found]
    rfl
  rw [own]
  constructor
  case source => exact found
  case address =>
    show r.address codeOffset = _
    unfold address
    dsimp only
    split <;> omega
  case line => cases path <;> rfl
  case column => rfl
  case endSequence => rfl

end SourcedRow

namespace Position

variable {codeOffset : Int} {r : SourcedRow} {rows : List SourcedRow}

lemma checkWord_of_fits {quantity : Quantity} {value : Int} (h : FitsWord value) :
    checkWord quantity value = .ok value :=
  if_pos h

lemma checkWord_of_wide {quantity : Quantity} {value : Int} (h : ¬FitsWord value) :
    checkWord quantity value = .error (.tooWide quantity value) :=
  if_neg h

/-- A row whose numbers fit becomes its point if its file can be looked up. -/
lemma pointOfRow_of_fits {path : Option String} (fits : r.Fits codeOffset)
    (found : r.path = .ok path) :
    pointOfRow r.table r.directory codeOffset r.row = .ok (r.point codeOffset) := by
  have address : checkWord .address (r.row.address + codeOffset) = .ok _ :=
    checkWord_of_fits (fits .address)
  have line : checkWord .line r.row.line = .ok _ := checkWord_of_fits (fits .line)
  have column : checkWord .column r.row.column = .ok _ := checkWord_of_fits (fits .column)
  have source : pathOf r.table r.directory r.row.file = .ok path :=
    congrArg (Except.mapError Fault.debugInfo) found
  rw [pointOfRow, checkedPoint, address, line, column, source, SourcedRow.point, found]
  rfl

/-- The first number of a row that does not fit is told. -/
lemma pointOfRow_of_overflows {quantity : Quantity} (overflows : r.Overflows codeOffset quantity) :
    pointOfRow r.table r.directory codeOffset r.row =
      .error (.tooWide quantity (r.number codeOffset quantity)) := by
  obtain ⟨wide, first⟩ := overflows
  rw [pointOfRow, checkedPoint]
  cases quantity with
  | address =>
    have address : checkWord .address (r.row.address + codeOffset) = .error _ :=
      checkWord_of_wide wide
    rw [address]
    rfl
  | line =>
    have address : checkWord .address (r.row.address + codeOffset) = .ok _ :=
      checkWord_of_fits (first .address (by decide))
    have line : checkWord .line r.row.line = .error _ := checkWord_of_wide wide
    rw [address, line]
    rfl
  | column =>
    have address : checkWord .address (r.row.address + codeOffset) = .ok _ :=
      checkWord_of_fits (first .address (by decide))
    have line : checkWord .line r.row.line = .ok _ :=
      checkWord_of_fits (first .line (by decide))
    have column : checkWord .column r.row.column = .error _ := checkWord_of_wide wide
    rw [address, line, column]
    rfl

section

variable (complete : r.table.Complete)

include complete

/-- The file of a row can be looked up in a complete table. -/
lemma path_of_complete : ∃ path, r.path = .ok path := by
  obtain ⟨entry, looked⟩ := complete.fileEntry r.row.file
  unfold SourcedRow.path filePath
  rw [looked]
  exact ⟨_, rfl⟩

lemma pointOfRow_ok_iff :
    (∃ p, pointOfRow r.table r.directory codeOffset r.row = .ok p) ↔ r.Fits codeOffset := by
  obtain ⟨path, found⟩ := path_of_complete complete
  rcases r.fits_or_overflows codeOffset with fits | ⟨quantity, overflows⟩
  · exact ⟨fun _ => fits, fun _ => ⟨_, pointOfRow_of_fits fits found⟩⟩
  · rw [pointOfRow_of_overflows overflows]
    exact ⟨nofun, fun fits => absurd (fits quantity) overflows.wide⟩

lemma pointOfRow_error_iff {fault : Fault} :
    pointOfRow r.table r.directory codeOffset r.row = .error fault ↔
      ∃ quantity, r.Overflows codeOffset quantity ∧
        fault = .tooWide quantity (r.number codeOffset quantity) := by
  constructor
  · intro failed
    rcases r.fits_or_overflows codeOffset with fits | ⟨quantity, overflows⟩
    · obtain ⟨p, placed⟩ := (pointOfRow_ok_iff complete).2 fits
      cases placed.symm.trans failed
    · rw [pointOfRow_of_overflows overflows] at failed
      exact ⟨quantity, overflows, (Except.error.inj failed).symm⟩
  · rintro ⟨quantity, overflows, rfl⟩
    exact pointOfRow_of_overflows overflows

end

/-- The first row of which some number does not fit, and the fault that tells the first one of its
numbers that does not. -/
def FirstOverflow (codeOffset : Int) (rows : List SourcedRow) (fault : Fault) : Prop :=
  ∃ before r after quantity, rows = before ++ r :: after ∧
    (∀ earlier ∈ before, earlier.Fits codeOffset) ∧ r.Overflows codeOffset quantity ∧
    fault = .tooWide quantity (r.number codeOffset quantity)

/-- What comes of some rows. If a number does not fit, it is the fault of the first one that does
not; if all fit, it is one point for each row, in the order of the rows. -/
structure Translates (codeOffset : Int) (rows : List SourcedRow)
    (result : Except Fault (List Point)) : Prop where
  fails_iff : (∃ fault, result = .error fault) ↔
    ∃ r ∈ rows, ∃ quantity, ¬FitsWord (r.number codeOffset quantity)
  error_iff : ∀ fault, result = .error fault ↔ FirstOverflow codeOffset rows fault
  points : (∀ r ∈ rows, r.Fits codeOffset) →
    ∃ points, result = .ok points ∧ List.Forall₂ (SourcedRow.Gives codeOffset) rows points

lemma pointsOf_error_iff (complete : ∀ r ∈ rows, r.table.Complete) (fault : Fault) :
    pointsOf codeOffset rows = .error fault ↔ FirstOverflow codeOffset rows fault := by
  rw [pointsOf, Except.mapM_error_iff]
  constructor
  · rintro ⟨before, r, after, rfl, placed, failed⟩
    obtain ⟨quantity, overflows, told⟩ :=
      (pointOfRow_error_iff (complete r (by simp))).1 failed
    refine ⟨before, r, after, quantity, rfl, fun earlier mem => ?_, overflows, told⟩
    exact (pointOfRow_ok_iff (complete earlier (by simp [mem]))).1 (placed earlier mem)
  · rintro ⟨before, r, after, quantity, rfl, fits, overflows, told⟩
    refine ⟨before, r, after, rfl, fun earlier mem => ?_, ?_⟩
    · exact (pointOfRow_ok_iff (complete earlier (by simp [mem]))).2 (fits earlier mem)
    · exact (pointOfRow_error_iff (complete r (by simp))).2 ⟨quantity, overflows, told⟩

/-- Rows of complete tables become points unless a number does not fit. -/
lemma translates_pointsOf (complete : ∀ r ∈ rows, r.table.Complete) :
    Translates codeOffset rows (pointsOf codeOffset rows) where
  fails_iff := by
    constructor
    · rintro ⟨fault, failed⟩
      obtain ⟨before, r, after, quantity, rfl, _, overflows, _⟩ :=
        (pointsOf_error_iff complete fault).1 failed
      exact ⟨r, by simp, quantity, overflows.wide⟩
    · rintro ⟨r, mem, quantity, wide⟩
      cases result : pointsOf codeOffset rows with
      | error fault => exact ⟨fault, rfl⟩
      | ok points =>
        have placed := Except.ok_of_mem_mapM result mem
        have fits := (pointOfRow_ok_iff (complete r mem)).1 placed
        exact absurd (fits quantity) wide
  error_iff := pointsOf_error_iff complete
  points fits := by
    have found : ∀ r ∈ rows, ∃ path, r.path = .ok path := fun r mem =>
      path_of_complete (complete r mem)
    refine ⟨rows.map (·.point codeOffset), Except.mapM_of_forall₂ ?_, ?_⟩
    · refine List.forall₂_map_right_iff.2 (List.forall₂_same.2 fun r mem => ?_)
      obtain ⟨path, found⟩ := found r mem
      exact pointOfRow_of_fits (fits r mem) found
    · refine List.forall₂_map_right_iff.2 (List.forall₂_same.2 fun r mem => ?_)
      obtain ⟨path, found⟩ := found r mem
      exact SourcedRow.gives_point found

/-- The points of a unit are those of its rows, which a complete table turns into points one by one:
the fault of the first row that does not fit is told, and if all fit each gives its own point,
whatever was looked up for the rows before it. -/
theorem pointsOfRows_translates {t : LineTable} (complete : t.Complete) (directory : Option String)
    (codeOffset : Int) (rows : List Row) :
    Translates codeOffset (rows.map (⟨·, t, directory⟩))
        (pointsOfRows t directory codeOffset rows) ∧
      ∀ (v : View) (u : UnitHeader) (m m₁ m₂ m₃ : Memory) (offset : Int) (parsed : LineTable),
        (v.lineTable u).run m = (.ok (some (offset, parsed)), m₁) →
        (v.compilationDirectory u).run m₁ = (.ok directory, m₂) →
        (v.rows offset parsed).run m₂ = (.ok (rows, t), m₃) →
        (unitPoints v codeOffset u).run m = (pointsOfRows t directory codeOffset rows, m₃) := by
  constructor
  · have own : pointsOfRows t directory codeOffset rows =
        pointsOf codeOffset (rows.map (⟨·, t, directory⟩)) := by
      rw [pointsOfRows_eq_mapM, pointsOf, List.mapM_map]
      rfl
    rw [own]
    refine translates_pointsOf fun r mem => ?_
    obtain ⟨row, _, rfl⟩ := List.mem_map.1 mem
    exact complete
  · intro v u m m₁ m₂ m₃ offset parsed inTable inDirectory inRows
    unfold unitPoints
    rw [run_bind_of_ok (run_adapt_of_ok inTable)]
    refine (run_bind_of_ok (run_adapt_of_ok inDirectory)).trans ?_
    exact run_bind_of_ok (run_adapt_of_ok inRows)

/-- A line table of version 5 with one file in one directory. -/
def oneFile : LineTable := emptyProgram.listing 5 [.string "src"] [(.string "a.c", 0)]

/-- The file and one that is not in the table take turns, and the last sequence ends at zero. -/
def takingTurns : List Row :=
  [⟨16, 0, 3, 5, false⟩, ⟨18, 7, 4, 0, false⟩, ⟨16, 0, 6, 0, false⟩, ⟨18, 7, 9, 1, true⟩,
    ⟨0, 0, 1, 2, true⟩]

theorem pointsOfRows_translates_takingTurns :
    oneFile.Complete ∧
      pointsOfRows oneFile (some "/w") 0 takingTurns =
        .ok [⟨some "/w/src/a.c", 16, 3, 5, false⟩, ⟨none, 18, 0, 0, false⟩,
          ⟨some "/w/src/a.c", 16, 6, 0, false⟩, ⟨none, 17, 0, 1, true⟩,
          ⟨some "/w/src/a.c", 0, 1, 2, true⟩] ∧
      Translates 0 (takingTurns.map (⟨·, oneFile, some "/w"⟩))
        (pointsOfRows oneFile (some "/w") 0 takingTurns) := by
  have complete : oneFile.Complete :=
    ⟨⟨_, rfl, by simp [Dwarf.Value.toInt?]⟩, rfl⟩
  have translates := pointsOfRows_translates complete (some "/w") 0 takingTurns
  exact ⟨complete, by decide +kernel, translates.1⟩

end Position

end WasmSourceMap
