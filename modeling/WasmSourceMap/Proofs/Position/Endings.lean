import WasmSourceMap.Container.Module
import WasmSourceMap.Proofs.Dwarf.Causes
import WasmSourceMap.Proofs.Dwarf.UnitList
import WasmSourceMap.Proofs.Position.Outcomes
import WasmSourceMap.Proofs.Position.UnitRows

/-!
# How builds end

A build gives a table, unless a number of a row does not fit 32 bits, the list of units cannot be
decoded, or the debug information has a fault that is not skippable (`Ends`). For the last, the
tables that the units leave in memory are `Sound` at each step (`View.sound_of_unitRows`), so that a
fault has a cause even where a unit meets a table that another unit has read. Such faults exist: a
line range of zero ends the build, though only one unit cannot be decoded (`build_zeroRange`).
-/

namespace WasmSourceMap

namespace Dwarf

/-- All tables in memory are as units leave them. -/
def Memory.Sound (v : View) (m : Memory) : Prop :=
  ∀ offset t, m.table? offset = some t → ∃ found, v.Sound found t

namespace View

variable {v : View} {u : UnitHeader} {m after : Memory} {fault : Fault} {found : DebugSection}
  {attributes : Attributes} {l : Layout} {offset : Int} {t : LineTable}

lemma sound_empty (v : View) : Memory.Sound v {} := nofun

lemma sound_stoppedAt (sound : m.Sound v) (position : Nat) : (m.stoppedAt position).Sound v := sound

lemma sound_keep (sound : m.Sound v) (table : v.Sound found t) : (m.keep offset t).Sound v := by
  intro other t' kept
  rw [Memory.table?_keep] at kept
  split at kept
  · cases kept
    exact ⟨found, table⟩
  · exact sound other t' kept

lemma sound_of_attributes {result : Except Fault Attributes} (sound : m.Sound v)
    (h : (v.attributes u).run m = (result, after)) : after.Sound v := by
  rcases run_attributes_memory h with rfl | rfl <;> exact sound

/-- A unit that is asked for its attributes may point at a line table. -/
lemma pointsAt_of_attributes {value : Value} (listed : u ∈ v.units.1)
    (lines : v.sections.get? .line = some found)
    (h : (v.attributes u).run m = (.ok attributes, after))
    (given : attributes.get? AttributeName.lineTable = some value)
    (kind : value.toInt? = some offset) : v.PointsAt u found offset := by
  obtain ⟨⟨ended, read⟩, _⟩ := run_attributes_ok h
  exact ⟨listed, lines, attributes, ended, value, read, given, kind⟩

lemma sound_of_lineTableAt (sound : m.Sound v) (points : v.PointsAt u found offset)
    (h : (v.lineTableAt u.layout found.data offset).run m = (.ok t, after)) :
    v.Sound found t ∧ after.Sound v := by
  -- A table comes from memory, where another unit has left it, or it is read now.
  rcases run_lineTableAt_ok h with ⟨kept, rfl⟩ | ⟨_, parsed⟩
  · obtain ⟨found', table⟩ := sound offset t kept
    cases points.lines.symm.trans table.lines
    exact ⟨table, sound⟩
  · obtain ⟨rfl, layout, same, position, rfl, read, stop⟩ := run_parseLineTable_ok parsed
    have table : v.Sound found t :=
      Holds.sound ⟨u, position, points, layout, read, stop⟩ same
    exact ⟨table, sound_keep (sound_stoppedAt sound _) table⟩

/-- The memory stays so, and the tables of the rows of a unit are such tables. -/
lemma sound_of_unitRows {result : Except Fault (List SourcedRow)} (sound : m.Sound v)
    (listed : u ∈ v.units.1) (h : (v.unitRows u).run m = (result, after)) :
    after.Sound v ∧ ∀ rows, result = .ok rows → ∀ r ∈ rows, ∃ found, v.Sound found r.table := by
  cases unitRead h with
  | noLines =>
    refine ⟨sound, ?_⟩
    rintro _ ⟨⟩
    exact List.forall_mem_nil _
  | noAttributes _ entered => exact ⟨sound_of_attributes sound entered, nofun⟩
  | noTable _ entered =>
    refine ⟨sound_of_attributes sound entered, ?_⟩
    rintro _ ⟨⟩
    exact List.forall_mem_nil _
  | noOffset _ entered =>
    exact ⟨sound_stoppedAt (sound_of_attributes sound entered) _, nofun⟩
  | noHeader _ entered _ _ parsed =>
    obtain ⟨⟨position, rfl⟩, _⟩ := run_lineTableAt_error parsed
    exact ⟨sound_stoppedAt (sound_of_attributes sound entered) position, nofun⟩
  | known lines entered given kind parsed =>
    have points := pointsAt_of_attributes listed lines entered given kind
    obtain ⟨table, sound⟩ := sound_of_lineTableAt (sound_of_attributes sound entered) points parsed
    refine ⟨sound, ?_⟩
    rintro _ ⟨⟩
    exact List.forall_mem_map.2 fun _ _ => ⟨_, table⟩
  | ran lines entered given kind parsed =>
    have points := pointsAt_of_attributes listed lines entered given kind
    obtain ⟨table, sound⟩ := sound_of_lineTableAt (sound_of_attributes sound entered) points parsed
    refine ⟨sound_stoppedAt (sound_keep sound table.ran) _, ?_⟩
    rintro _ ⟨⟩
    exact List.forall_mem_map.2 fun _ _ => ⟨_, table.ran⟩
  | failed lines entered given kind parsed =>
    have points := pointsAt_of_attributes listed lines entered given kind
    obtain ⟨table, sound⟩ := sound_of_lineTableAt (sound_of_attributes sound entered) points parsed
    exact ⟨sound_stoppedAt (sound_keep sound table.ran) _, nofun⟩

lemma caused_of_attributes (listed : u ∈ v.units.1)
    (h : (v.attributes u).run m = (.error fault, after)) : v.Caused fault := by
  rcases run_attributes_error h with unread | ⟨found, read⟩
  · exact (entry_fromData listed unread).caused (.entry listed unread)
  · rcases entry_fromAttributes read with fromData | ⟨rfl, misfit⟩
    · exact fromData.caused (.index listed read)
    · exact .misfit listed read misfit

/-- A unit that has no rows. -/
lemma caused_of_unitRows (sound : m.Sound v) (listed : u ∈ v.units.1)
    (h : (v.unitRows u).run m = (.error fault, after)) : v.Caused fault := by
  cases unitRead h with
  | noAttributes _ entered => exact caused_of_attributes listed entered
  | noOffset lines entered given kind cause =>
    obtain ⟨⟨ended, read⟩, _⟩ := run_attributes_ok entered
    rcases cause with rfl | ⟨rfl, start, next, unread⟩
    · exact .misfit listed read ⟨AttributeName.lineTable, by decide, _, given, kind⟩
    · exact .noValue listed read given lines unread
  | noHeader lines entered given kind parsed =>
    have points := pointsAt_of_attributes listed lines entered given kind
    rcases (run_lineTableAt_error parsed).2 with ⟨next, outside⟩ | ⟨position, next, rfl, unread⟩
    · exact (seekTo_fromData _ outside).caused (.offset points outside)
    · exact caused_of_readLineHeader points unread
  | failed lines entered given kind parsed _ failed =>
    have points := pointsAt_of_attributes listed lines entered given kind
    obtain ⟨table, _⟩ := sound_of_lineTableAt (sound_of_attributes sound entered) points parsed
    exact table.caused_of_run failed

end View

end Dwarf

namespace Position

open Dwarf (View UnitHeader Memory)

/-- Why a build over some units ends with a fault: a number of a row does not fit 32 bits, the list
of the units cannot be decoded to its end, or the debug information has a fault that is not
skippable, which has a cause. -/
inductive Ends (v : View) (codeOffset : Int)
    (decoded : List (Except Dwarf.Fault (List SourcedRow))) : Fault → Prop where
  | tooWide {rows : List SourcedRow} {r : SourcedRow} {quantity : Quantity} :
    .ok rows ∈ decoded → r ∈ rows → ¬FitsWord (r.number codeOffset quantity) →
      Ends v codeOffset decoded (.tooWide quantity (r.number codeOffset quantity))
  | unitList : v.units.2 = some .undecodable → Ends v codeOffset decoded .unitList
  | debugInfo {fault : Dwarf.Fault} :
    fault.isSkippable = false → v.Caused fault → Ends v codeOffset decoded (.debugInfo fault)

variable {v : View} {codeOffset : Int} {fault : Fault} {units rest : List UnitHeader}
  {decoded later : List (Except Dwarf.Fault (List SourcedRow))}

lemma Ends.mono (h : Ends v codeOffset later fault) (inside : later ⊆ decoded) :
    Ends v codeOffset decoded fault := by
  cases h with
  | tooWide mem row wide => exact .tooWide (inside mem) row wide
  | unitList ended => exact .unitList ended
  | debugInfo lasting caused => exact .debugInfo lasting caused

/-- The list of the units ends with the fault. -/
lemma ends_of_finish {t : PositionTable} (h : finish v.units.2 t = .error fault) :
    Ends v codeOffset decoded fault := by
  unfold finish at h
  split at h
  · cases h
  · rename_i own ended
    rcases View.refusal_of_units ended with rfl | rfl
    · cases h
      exact .unitList ended
    · cases h
      exact .debugInfo rfl (.addressSize ended)

/-- A row that does not become a point ends the build. -/
lemma ends_of_pointsOf {rows : List SourcedRow}
    (tables : ∀ r ∈ rows, ∃ found, v.Sound found r.table) (inside : .ok rows ∈ decoded)
    (h : pointsOf codeOffset rows = .error fault) : Ends v codeOffset decoded fault := by
  obtain ⟨r, mem, failed⟩ := Except.mapM_error h
  rcases pointOfRow_error failed with ⟨quantity, rfl, wide⟩ | ⟨own, rfl, lost⟩
  · exact .tooWide inside mem wide
  · obtain ⟨found, table⟩ := tables r mem
    exact .debugInfo (Dwarf.LineTable.fileEntry_lasting lost) (table.caused_of_fileEntry lost)

lemma ends_of_buildFrom {t : PositionTable} {m : Memory} (sound : m.Sound v)
    (listed : ∀ u ∈ units, u ∈ v.units.1)
    (h : (buildFrom v codeOffset v.units.2 units t m).table = .error fault) :
    Ends v codeOffset (v.decodeUnits units m) fault := by
  -- Each unit leaves the memory sound for the next one, whether it is left out or not.
  induction units generalizing t m with
  | nil => exact ends_of_finish h
  | cons u rest ih =>
    obtain ⟨here, others⟩ := List.forall_mem_cons.1 listed
    have unit := run_unitPoints v codeOffset u m
    rcases read : (v.unitRows u).run m with ⟨own | rows, after⟩ <;> rw [read] at unit
    · obtain ⟨sound', _⟩ := View.sound_of_unitRows sound here read
      rw [table_buildFrom_of_error unit] at h
      split at h
      · refine (ih sound' others h).mono ?_
        rw [View.decodeUnits, read]
        exact List.subset_cons_self _ _
      · rename_i lasting
        cases h
        exact .debugInfo (eq_false_of_ne_true lasting)
          (View.caused_of_unitRows sound here read)
    · obtain ⟨sound', tables⟩ := View.sound_of_unitRows sound here read
      change _ = (pointsOf codeOffset rows, after) at unit
      rw [View.decodeUnits, read]
      cases placed : pointsOf codeOffset rows with
      | error own =>
        rw [placed] at unit
        rw [table_buildFrom_of_error unit, pointsOf_error placed] at h
        cases h
        exact ends_of_pointsOf (tables rows rfl) List.mem_cons_self placed
      | ok points =>
        rw [placed] at unit
        rw [table_buildFrom_of_ok unit] at h
        exact (ih sound' others h).mono (List.subset_cons_self _ _)

/-- A build gives a table or ends for one of these reasons, and it tells of each unit that it leaves
out before it ends. -/
theorem build_ends (v : View) (codeOffset : Int) :
    ((∃ t, (build v codeOffset {}).table = .ok t) ∨
      ∃ fault, (build v codeOffset {}).table = .error fault ∧
        Ends v codeOffset (v.decodeUnits v.units.1 {}) fault) ∧
    (build v codeOffset {}).notices =
      (((outcomes v codeOffset v.units.1 {}).takeWhile (·.fatal?.isNone)).filter
        (·.isSkipped)).map fun o => .skippedUnit o.unit.offset := by
  refine ⟨?_, notices_buildFrom _ _ _⟩
  cases result : (build v codeOffset {}).table with
  | ok t => exact .inl ⟨t, rfl⟩
  | error fault =>
    exact .inr ⟨fault, rfl, ends_of_buildFrom (View.sound_empty v) (fun _ mem => mem) result⟩

/-- A module with one unit, whose line table has a line range of zero. Each section begins on a line
of its own. -/
def zeroRange : Bytes :=
  [0x00, 0x61, 0x73, 0x6d, 0x01, 0x00, 0x00, 0x00,
    0x00, 0x16, 0x0d, 0x2e, 0x64, 0x65, 0x62, 0x75, 0x67, 0x5f, 0x61, 0x62, 0x62, 0x72, 0x65, 0x76,
    0x01, 0x11, 0x00, 0x10, 0x17, 0x00, 0x00, 0x00,
    0x00, 0x1c, 0x0b, 0x2e, 0x64, 0x65, 0x62, 0x75, 0x67, 0x5f, 0x69, 0x6e, 0x66, 0x6f, 0x0c, 0x00,
    0x00, 0x00, 0x04, 0x00, 0x00, 0x00, 0x00, 0x00, 0x04, 0x01, 0x00, 0x00, 0x00, 0x00,
    0x00, 0x31, 0x0b, 0x2e, 0x64, 0x65, 0x62, 0x75, 0x67, 0x5f, 0x6c, 0x69, 0x6e, 0x65, 0x21, 0x00,
    0x00, 0x00, 0x03, 0x00, 0x1a, 0x00, 0x00, 0x00, 0x01, 0x01, 0xfb, 0x00, 0x0d, 0x00, 0x01, 0x01,
    0x01, 0x01, 0x00, 0x00, 0x00, 0x01, 0x00, 0x00, 0x01, 0x00, 0x61, 0x2e, 0x63, 0x00, 0x00, 0x00,
    0x00, 0x00, 0x21]

/-- A unit that cannot be decoded ends the build and is not left out. -/
theorem build_zeroRange :
    ∃ m v, Container.Module.parse zeroRange = .ok m ∧ View.load m none none = .ok v ∧
      (build v 0 {}).table = .error (.debugInfo .zeroDivisor) ∧ (build v 0 {}).notices = [] := by
  have all : (Container.Module.parse zeroRange).toOption.bind (fun m =>
      (View.load m none none).toOption.map fun v =>
        ((build v 0 {}).table.map (·.points), (build v 0 {}).notices)) =
      some (.error (.debugInfo .zeroDivisor), []) := by
    decide +kernel
  obtain ⟨m, isModule, all⟩ := Option.bind_eq_some_iff.1 all
  obtain ⟨v, isView, all⟩ := Option.map_eq_some_iff.1 all
  obtain ⟨ended, notices⟩ := Prod.mk.inj all
  exact ⟨m, v, Except.ok_of_toOption isModule, Except.ok_of_toOption isView,
    Except.error_of_map ended, notices⟩

end Position

end WasmSourceMap
