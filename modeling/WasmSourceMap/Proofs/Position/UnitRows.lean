import WasmSourceMap.Proofs.Position.DecodedRows

/-!
# The rows of one unit

A unit is read in steps: its attributes, the line table they point to, the rows of the table. One
equation for each way this can go says what comes of the unit and what it leaves in memory, and
`unitRead` says that it goes in one of these ways (`UnitRead`).
-/

namespace WasmSourceMap.Dwarf.View

variable {v : View} {u : UnitHeader} {m after : Memory} {found : DebugSection}
  {attributes : Attributes}

/-- Without a line section a unit has no rows, and is not entered. -/
lemma run_unitRows_of_no_lines (h : v.sections.get? .line = none) :
    (v.unitRows u).run m = (.ok [], m) := by
  have table : (v.lineTable u).run m = (.ok none, m) := by
    unfold lineTable
    rw [h]
    rfl
  unfold unitRows
  rw [run_bind_of_ok table]
  rfl

/-- A unit whose attributes cannot be read has no rows. -/
lemma run_unitRows_of_error {fault : Fault} (lines : v.sections.get? .line = some found)
    (h : (v.attributes u).run m = (.error fault, after)) :
    (v.unitRows u).run m = (.error fault, after) := by
  have table : (v.lineTable u).run m = (.error fault, after) := by
    unfold lineTable
    rw [lines]
    exact run_bind_of_error h
  unfold unitRows
  exact run_bind_of_error table

/-- A unit without line table has no rows. -/
lemma run_unitRows_of_no_table (lines : v.sections.get? .line = some found)
    (h : (v.attributes u).run m = (.ok attributes, after))
    (absent : attributes.get? AttributeName.lineTable = none) :
    (v.unitRows u).run m = (.ok [], after) := by
  have table : (v.lineTable u).run m = (.ok none, after) := by
    unfold lineTable
    rw [lines]
    dsimp only
    rw [run_bind_of_ok h, absent]
    rfl
  unfold unitRows
  rw [run_bind_of_ok table]
  rfl

/-- A line table whose offset is not a number is refused. If there is no value at all, a header is
read first, where the line section was read last. -/
lemma run_unitRows_of_not_offset {value : Value} (lines : v.sections.get? .line = some found)
    (h : (v.attributes u).run m = (.ok attributes, after))
    (given : attributes.get? AttributeName.lineTable = some value) (kind : value.toInt? = none) :
    ∃ fault position, (v.unitRows u).run m = (.error fault, after.stoppedAt position) ∧
      (fault = .wrongKind ∨ value = .null ∧ ∃ start next,
        v.readLineHeader u.layout found.data start = .failed fault next) := by
  have refused : ∃ fault position,
      (v.lineTable u).run m = (.error fault, after.stoppedAt position) ∧
      (fault = .wrongKind ∨ value = .null ∧ ∃ start next,
        v.readLineHeader u.layout found.data start = .failed fault next) := by
    unfold lineTable
    rw [lines]
    dsimp only
    rw [run_bind_of_ok h, given]
    have refusal : ((throw .wrongKind : Recall (Option (Int × LineTable))).run after) =
        (.error .wrongKind, after.stoppedAt after.linePosition) := rfl
    cases value with
    | null =>
      have read := v.run_parseLineHeader u.layout found.data after after.linePosition
      cases header : v.readLineHeader u.layout found.data after.linePosition with
      | done header next =>
        rw [header] at read
        exact ⟨_, _, (run_bind_of_ok rfl).trans (run_bind_of_ok read), .inl rfl⟩
      | failed fault next =>
        rw [header] at read
        exact ⟨_, _, (run_bind_of_ok rfl).trans (run_bind_of_error read), .inr ⟨rfl, _, _, header⟩⟩
    | integer n => cases kind
    | boolean b => cases kind
    | bytes content => exact ⟨_, _, refusal, .inl rfl⟩
    | list items => exact ⟨_, _, refusal, .inl rfl⟩
    | string s => exact ⟨_, _, refusal, .inl rfl⟩
  obtain ⟨fault, position, table, cause⟩ := refused
  refine ⟨fault, position, ?_, cause⟩
  unfold unitRows
  exact run_bind_of_error table

/-- A unit with a line table at an offset has the rows of this table. -/
lemma run_unitRows_of_offset {value : Value} {offset : Int}
    (lines : v.sections.get? .line = some found)
    (h : (v.attributes u).run m = (.ok attributes, after))
    (given : attributes.get? AttributeName.lineTable = some value)
    (kind : value.toInt? = some offset) :
    (v.unitRows u).run m =
      match (v.lineTableAt u.layout found.data offset).run after with
      | (.error fault, last) => (.error fault, last)
      | (.ok t, between) =>
        match (v.rows offset t).run between with
        | (.error fault, last) => (.error fault, last)
        | (.ok (rows, t), last) => (.ok (rows.map (⟨·, t, directoryOf attributes⟩)), last) := by
  have table : (v.lineTable u).run m =
      (do return some (offset, ← v.lineTableAt u.layout found.data offset) :
        Recall (Option (Int × LineTable))).run after := by
    unfold lineTable
    rw [lines]
    dsimp only
    rw [run_bind_of_ok h, given]
    cases value with
    | integer n =>
      cases kind
      rfl
    | boolean b =>
      cases kind
      rfl
    | _ => cases kind
  unfold unitRows
  rcases parsed : (v.lineTableAt u.layout found.data offset).run after with ⟨_ | t, between⟩
  · rw [run_bind_of_error parsed] at table
    rw [run_bind_of_error table]
  · rw [run_bind_of_ok parsed] at table
    rw [run_bind_of_ok table]
    -- The unit was entered before, so its attributes are told again for the directory.
    obtain ⟨⟨fault, read⟩, entered⟩ := run_attributes_ok h
    rw [← entered_lineTableAt parsed] at entered
    have directory := v.run_compilationDirectory (run_attributes_of_entered read entered)
    refine (run_bind_of_ok directory).trans ?_
    dsimp only
    rcases ran : (v.rows offset t).run between with ⟨_ | ⟨rows, t⟩, last⟩
    · rw [run_bind_of_error ran]
    · rw [run_bind_of_ok ran]
      rfl

/-- The ways in which the reading of a unit goes, with what comes of it and what it leaves in
memory.
-/
inductive UnitRead (v : View) (u : UnitHeader) (m : Memory) :
    Except Fault (List SourcedRow) → Memory → Prop where
  | noLines :
    v.sections.get? .line = none → UnitRead v u m (.ok []) m
  | noAttributes {found : DebugSection} {fault : Fault} {after : Memory} :
    v.sections.get? .line = some found →
    (v.attributes u).run m = (.error fault, after) →
    UnitRead v u m (.error fault) after
  | noTable {found : DebugSection} {attributes : Attributes} {after : Memory} :
    v.sections.get? .line = some found →
    (v.attributes u).run m = (.ok attributes, after) →
    attributes.get? AttributeName.lineTable = none →
    UnitRead v u m (.ok []) after
  | noOffset {found : DebugSection} {attributes : Attributes} {value : Value} {fault : Fault}
      {after : Memory} {position : Nat} :
    v.sections.get? .line = some found →
    (v.attributes u).run m = (.ok attributes, after) →
    attributes.get? AttributeName.lineTable = some value →
    value.toInt? = none →
    (fault = .wrongKind ∨ value = .null ∧ ∃ start next,
      v.readLineHeader u.layout found.data start = .failed fault next) →
    UnitRead v u m (.error fault) (after.stoppedAt position)
  | noHeader {found : DebugSection} {attributes : Attributes} {value : Value} {offset : Int}
      {fault : Fault} {between after : Memory} :
    v.sections.get? .line = some found →
    (v.attributes u).run m = (.ok attributes, between) →
    attributes.get? AttributeName.lineTable = some value →
    value.toInt? = some offset →
    (v.lineTableAt u.layout found.data offset).run between = (.error fault, after) →
    UnitRead v u m (.error fault) after
  | known {found : DebugSection} {attributes : Attributes} {value : Value} {offset : Int}
      {t : LineTable} {rows : List Row} {between after : Memory} :
    v.sections.get? .line = some found →
    (v.attributes u).run m = (.ok attributes, between) →
    attributes.get? AttributeName.lineTable = some value →
    value.toInt? = some offset →
    (v.lineTableAt u.layout found.data offset).run between = (.ok t, after) →
    t.rows = some rows →
    UnitRead v u m (.ok (rows.map (⟨·, t, directoryOf attributes⟩))) after
  | ran {found : DebugSection} {attributes : Attributes} {value : Value} {offset : Int}
      {t : LineTable} {rows : List Row} {between after : Memory} :
    v.sections.get? .line = some found →
    (v.attributes u).run m = (.ok attributes, between) →
    attributes.get? AttributeName.lineTable = some value →
    value.toInt? = some offset →
    (v.lineTableAt u.layout found.data offset).run between = (.ok t, after) →
    t.rows = none →
    (t.run found.data).rows = .ok rows →
    UnitRead v u m (.ok (rows.map (⟨·, t.ran found.data, directoryOf attributes⟩)))
      ((after.keep offset (t.ran found.data)).stoppedAt (stopAfter found.data t after))
  | failed {found : DebugSection} {attributes : Attributes} {value : Value} {offset : Int}
      {t : LineTable} {fault : Fault} {between after : Memory} :
    v.sections.get? .line = some found →
    (v.attributes u).run m = (.ok attributes, between) →
    attributes.get? AttributeName.lineTable = some value →
    value.toInt? = some offset →
    (v.lineTableAt u.layout found.data offset).run between = (.ok t, after) →
    t.rows = none →
    (t.run found.data).rows = .error fault →
    UnitRead v u m (.error fault)
      ((after.keep offset (t.ran found.data)).stoppedAt (stopAfter found.data t after))

/-- The reading of a unit goes in one of these ways. -/
lemma unitRead {result : Except Fault (List SourcedRow)}
    (h : (v.unitRows u).run m = (result, after)) : UnitRead v u m result after := by
  cases lines : v.sections.get? .line with
  | none =>
    rw [run_unitRows_of_no_lines lines] at h
    cases h
    exact .noLines lines
  | some found =>
  rcases entered : (v.attributes u).run m with ⟨fault | attributes, between⟩
  · rw [run_unitRows_of_error lines entered] at h
    cases h
    exact .noAttributes lines entered
  cases given : attributes.get? AttributeName.lineTable with
  | none =>
    rw [run_unitRows_of_no_table lines entered given] at h
    cases h
    exact .noTable lines entered given
  | some value =>
  cases kind : value.toInt? with
  | none =>
    obtain ⟨fault, position, refused, cause⟩ := run_unitRows_of_not_offset lines entered given kind
    cases h.symm.trans refused
    exact .noOffset lines entered given kind cause
  | some offset =>
  rw [run_unitRows_of_offset lines entered given kind] at h
  rcases parsed : (v.lineTableAt u.layout found.data offset).run between with ⟨fault | t, kept⟩ <;>
    rw [parsed] at h
  · cases h
    exact .noHeader lines entered given kind parsed
  dsimp only at h
  cases stored : t.rows with
  | some rows =>
    rw [run_rows_of_some _ _ _ stored] at h
    cases h
    exact .known lines entered given kind parsed stored
  | none =>
    rw [run_rows_of_none _ _ _ stored lines] at h
    cases decoded : (t.run found.data).rows with
    | ok rows =>
      rw [decoded] at h
      cases h
      exact .ran lines entered given kind parsed stored decoded
    | error fault =>
      rw [decoded] at h
      cases h
      exact .failed lines entered given kind parsed stored decoded

end WasmSourceMap.Dwarf.View
