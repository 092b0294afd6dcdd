import Mathlib.Data.List.TakeWhile
import WasmSourceMap.Proofs.Dwarf.LineRun
import WasmSourceMap.Proofs.Dwarf.UnitList
import WasmSourceMap.Proofs.Position.Outcomes
import WasmSourceMap.Proofs.Position.UnitRows

/-!
# Units that are left out

A unit that cannot be decoded gives nothing to the table, but it leaves marks in the memory: that it
was entered, where the line section was read last, and its line table if the header could be read.
None of these marks can be seen. A table is kept without rows only if its program cannot be decoded
(`Doomed`), and then no later unit gets rows from it. So a build and the build over the units that
are not left out go through memories that `Agree`, and have the same outcomes (`outcomes_kept`).
-/

namespace WasmSourceMap

namespace Dwarf

/-- The program of the table cannot be decoded. -/
def View.Doomed (v : View) (t : LineTable) : Prop :=
  t.rows = none ∧ ∃ found fault, v.sections.get? .line = some found ∧
    (t.run found.data).rows = .error fault

/-- What two memories keep for an offset is the same, or can give rows to nobody. -/
def View.TablesAgree (v : View) (kept kept' : Option LineTable) : Prop :=
  kept = kept' ∨ (∃ t, kept = some t ∧ v.Doomed t) ∧ ∀ t, kept' = some t → v.Doomed t

/-- No reading of the units can tell whether it begins with the first memory or with the second,
unless the first keeps a table that can give it no rows. -/
structure Memory.Agree (v : View) (units : List UnitHeader) (m n : Memory) : Prop where
  entered : ∀ u ∈ units, m.entered.contains u.offset = n.entered.contains u.offset
  tables : ∀ offset, v.TablesAgree (m.table? offset) (n.table? offset)

namespace View

variable {v : View} {t : LineTable} {found : DebugSection} {a b c : Option LineTable}

/-- A table stays as it is when its program fails once more. -/
lemma Doomed.ran (h : v.Doomed t) (lines : v.sections.get? .line = some found) :
    v.Doomed (t.ran found.data) := by
  obtain ⟨_, other, fault, lines', failed⟩ := h
  cases lines.symm.trans lines'
  refine ⟨?_, found, fault, lines, ?_⟩
  · show (t.run found.data).rows.toOption = none
    rw [failed]
    rfl
  · rw [← failed]
    exact LineRun.rows_from rfl

lemma TablesAgree.trans (h : v.TablesAgree a b) (h' : v.TablesAgree b c) : v.TablesAgree a c := by
  rcases h with rfl | ⟨lost, others⟩
  · exact h'
  · rcases h' with rfl | ⟨_, others'⟩
    · exact .inr ⟨lost, others⟩
    · exact .inr ⟨lost, others'⟩

end View

namespace Memory.Agree

variable {v : View} {units rest : List UnitHeader} {u : UnitHeader} {m n k : Memory}

lemma refl (v : View) (units : List UnitHeader) (m : Memory) : Agree v units m m :=
  ⟨fun _ _ => rfl, fun _ => .inl rfl⟩

lemma trans (h : Agree v units m n) (h' : Agree v units n k) : Agree v units m k :=
  ⟨fun u mem => (h.entered u mem).trans (h'.entered u mem),
    fun offset => (h.tables offset).trans (h'.tables offset)⟩

lemma tail (h : Agree v (u :: rest) m n) : Agree v rest m n :=
  ⟨fun w mem => h.entered w (List.mem_cons_of_mem u mem), h.tables⟩

/-- A unit that is entered once more or once less is no other unit. -/
lemma enter_left (apart : ∀ w ∈ rest, w.offset ≠ u.offset) (h : Agree v rest m n) :
    Agree v rest (m.enter u.offset) n := by
  refine ⟨fun w mem => ?_, h.tables⟩
  rw [Memory.contains_enter, beq_false_of_ne (apart w mem), Bool.false_or]
  exact h.entered w mem

lemma enter_both (unit : Nat) (h : Agree v units m n) :
    Agree v units (m.enter unit) (n.enter unit) := by
  refine ⟨fun w mem => ?_, h.tables⟩
  rw [Memory.contains_enter, Memory.contains_enter, h.entered w mem]

lemma stoppedAt_left (position : Nat) (h : Agree v units m n) :
    Agree v units (m.stoppedAt position) n :=
  ⟨h.entered, h.tables⟩

lemma stoppedAt (position position' : Nat) (h : Agree v units m n) :
    Agree v units (m.stoppedAt position) (n.stoppedAt position') :=
  ⟨h.entered, h.tables⟩

lemma keep_both (offset : Int) (t : LineTable) (h : Agree v units m n) :
    Agree v units (m.keep offset t) (n.keep offset t) := by
  refine ⟨h.entered, fun other => ?_⟩
  rw [Memory.table?_keep, Memory.table?_keep]
  split
  · exact .inl rfl
  · exact h.tables other

end Memory.Agree

namespace View

variable {v : View} {units rest : List UnitHeader} {u : UnitHeader} {m n after : Memory}
  {l : Layout} {found : DebugSection} {offset : Int} {t : LineTable}

/-- The attributes of a unit are the same for memories that agree. -/
lemma run_attributes_agree {attributes : Attributes} (agree : Memory.Agree v (u :: rest) m n)
    (h : (v.attributes u).run m = (.ok attributes, after)) :
    ∃ after', (v.attributes u).run n = (.ok attributes, after') ∧
      Memory.Agree v (u :: rest) after after' := by
  obtain ⟨⟨fault, read⟩, _⟩ := run_attributes_ok h
  have same := agree.entered u List.mem_cons_self
  cases entered : m.entered.contains u.offset with
  | true =>
    rw [run_attributes_of_entered read entered] at h
    cases h
    exact ⟨n, run_attributes_of_entered read (same.symm.trans entered), agree⟩
  | false =>
    rw [run_attributes_of_new read entered] at h
    refine ⟨n.enter u.offset, ?_, ?_⟩
    · rw [run_attributes_of_new read (same.symm.trans entered), (Prod.mk.inj h).1]
    · rw [← (Prod.mk.inj h).2]
      exact agree.enter_both u.offset

/-- To enter a unit is no mark for the units after it. -/
lemma agree_of_run_attributes {result : Except Fault Attributes}
    (apart : ∀ w ∈ rest, w.offset ≠ u.offset) (h : (v.attributes u).run m = (result, after)) :
    Memory.Agree v rest after m := by
  rcases run_attributes_memory h with rfl | rfl
  · exact .refl v rest after
  · exact (Memory.Agree.refl v rest m).enter_left apart

/-- A table that can give rows is the same for memories that agree. -/
lemma run_lineTableAt_agree (agree : Memory.Agree v units m n)
    (h : (v.lineTableAt l found.data offset).run m = (.ok t, after)) (useful : ¬v.Doomed t) :
    ∃ after', (v.lineTableAt l found.data offset).run n = (.ok t, after') ∧
      Memory.Agree v units after after' := by
  cases kept : m.table? offset with
  | some t' =>
    rw [run_lineTableAt_of_some kept] at h
    cases h
    -- A table that the memories do not share is doomed, and so would be `t`.
    rcases agree.tables offset with same | ⟨⟨t', kept', lost⟩, _⟩
    · exact ⟨n, run_lineTableAt_of_some (same.symm.trans kept), agree⟩
    · cases kept.symm.trans kept'
      exact absurd lost useful
  | none =>
    rcases agree.tables offset with same | ⟨⟨t', kept', _⟩, _⟩
    · rw [run_lineTableAt_of_none kept, run_parseLineTable] at h
      rw [run_lineTableAt_of_none (same.symm.trans kept), run_parseLineTable]
      cases sought : seekTo offset found.data 0 with
      | failed fault next =>
        rw [sought] at h
        cases h
      | done _ position =>
        rw [sought] at h
        dsimp only at h ⊢
        cases read : v.readLineHeader l found.data position with
        | failed fault next =>
          rw [read] at h
          cases h
        | done header start =>
          rw [read] at h
          cases h
          exact ⟨_, rfl, (agree.stoppedAt start start).keep_both offset _⟩
    · cases kept.symm.trans kept'

/-- A unit that has rows has the same rows for memories that agree. -/
lemma run_unitRows_agree {rows : List SourcedRow} (agree : Memory.Agree v (u :: rest) m n)
    (h : (v.unitRows u).run m = (.ok rows, after)) :
    ∃ after', (v.unitRows u).run n = (.ok rows, after') ∧ Memory.Agree v rest after after' := by
  cases unitRead h with
  | noLines lines => exact ⟨n, run_unitRows_of_no_lines lines, agree.tail⟩
  | noTable lines entered given =>
    obtain ⟨after', entered', agree⟩ := run_attributes_agree agree entered
    exact ⟨after', run_unitRows_of_no_table lines entered' given, agree.tail⟩
  | known lines entered given kind parsed stored =>
    obtain ⟨between', entered', agree⟩ := run_attributes_agree agree entered
    obtain ⟨after', parsed', agree⟩ := run_lineTableAt_agree agree parsed
      fun lost => nomatch stored.symm.trans lost.1
    rw [run_unitRows_of_offset lines entered' given kind, parsed']
    dsimp only
    rw [run_rows_of_some _ _ _ stored]
    exact ⟨after', rfl, agree.tail⟩
  | @ran found _ _ offset t _ _ _ lines entered given kind parsed stored decoded =>
    have useful : ¬v.Doomed t := by
      rintro ⟨_, other, fault, lines', failed⟩
      cases lines.symm.trans lines'
      cases decoded.symm.trans failed
    obtain ⟨between', entered', agree⟩ := run_attributes_agree agree entered
    obtain ⟨after', parsed', agree⟩ := run_lineTableAt_agree agree parsed useful
    rw [run_unitRows_of_offset lines entered' given kind, parsed']
    dsimp only
    rw [run_rows_of_none _ _ _ stored lines, decoded]
    exact ⟨_, rfl, ((agree.keep_both offset _).stoppedAt _ _).tail⟩

/-- A table whose program failed is kept in vain. -/
lemma agree_of_lost (h : (v.lineTableAt l found.data offset).run m = (.ok t, after))
    (lost : v.Doomed t) (lines : v.sections.get? .line = some found) :
    Memory.Agree v units (after.keep offset (t.ran found.data)) m := by
  refine ⟨fun w _ => congrArg (·.contains w.offset) (entered_lineTableAt h), fun other => ?_⟩
  rw [Memory.table?_keep]
  rcases run_lineTableAt_ok h with ⟨kept, rfl⟩ | ⟨new, parsed⟩
  · by_cases here : other = offset
    · rw [if_pos here, here]
      refine .inr ⟨⟨_, rfl, lost.ran lines⟩, fun t' kept' => ?_⟩
      cases kept.symm.trans kept'
      exact lost
    · rw [if_neg here]
      exact .inl rfl
  · obtain ⟨rfl, _⟩ := run_parseLineTable_ok parsed
    by_cases here : other = offset
    · rw [if_pos here, here]
      exact .inr ⟨⟨_, rfl, lost.ran lines⟩, fun t' kept => nomatch new.symm.trans kept⟩
    · rw [if_neg here, Memory.table?_keep, if_neg here]
      exact .inl rfl

/-- The marks of a unit that cannot be decoded are seen by no unit after it. -/
lemma agree_of_run_unitRows_error {fault : Fault} (apart : ∀ w ∈ rest, w.offset ≠ u.offset)
    (h : (v.unitRows u).run m = (.error fault, after)) : Memory.Agree v rest after m := by
  cases unitRead h with
  | noAttributes _ entered => exact agree_of_run_attributes apart entered
  | noOffset _ entered => exact (agree_of_run_attributes apart entered).stoppedAt_left _
  | noHeader _ entered _ _ parsed =>
    obtain ⟨⟨position, rfl⟩, _⟩ := run_lineTableAt_error parsed
    exact (agree_of_run_attributes apart entered).stoppedAt_left position
  | failed lines entered _ _ parsed stored failed =>
    refine .trans (.stoppedAt_left _ ?_) (agree_of_run_attributes apart entered)
    exact agree_of_lost parsed ⟨stored, _, _, lines, failed⟩ lines

end View

end Dwarf

namespace Position

open Dwarf (View UnitHeader Memory)

/-- The outcomes of the units that are not left out. -/
def kept (all : List Outcome) : List Outcome := all.filter fun o => !o.isSkipped

variable {v : View} {codeOffset : Int} {ended : Option Dwarf.Fault} {m n : Memory}

/-- Without the units that are left out, all others come to the same. -/
lemma outcomes_kept {units : List UnitHeader}
    (apart : units.Pairwise fun u w => w.offset ≠ u.offset) (agree : Memory.Agree v units m n)
    (lasting : ∀ o ∈ outcomes v codeOffset units m, o.fatal? = none) :
    outcomes v codeOffset ((kept (outcomes v codeOffset units m)).map (·.unit)) n =
      kept (outcomes v codeOffset units m) := by
  -- The builds part at a unit that is left out: only the first goes through it, and what it leaves
  -- in the first memory is within what the memories may differ in.
  induction units generalizing m n with
  | nil => rfl
  | cons u rest ih =>
    obtain ⟨others, apart⟩ := List.pairwise_cons.1 apart
    have unit := run_unitPoints v codeOffset u m
    rcases decoded : (v.unitRows u).run m with ⟨fault | rows, after⟩ <;> rw [decoded] at unit
    · have agree := (View.agree_of_run_unitRows_error others decoded).trans agree.tail
      rw [outcomes_cons unit] at lasting ⊢
      obtain ⟨here, later⟩ := List.forall_mem_cons.1 lasting
      have skipped : Outcome.isSkipped ⟨u, .error (.debugInfo fault)⟩ = true := by
        simpa [Outcome.fatal?, Outcome.isSkipped] using here
      rw [kept, List.filter_cons_of_neg (by simp [skipped])]
      exact ih apart agree later
    · obtain ⟨after', decoded', agree⟩ := View.run_unitRows_agree agree decoded
      have unit' := run_unitPoints v codeOffset u n
      rw [decoded'] at unit'
      change _ = (pointsOf codeOffset rows, after) at unit
      rw [outcomes_cons unit] at lasting ⊢
      obtain ⟨here, later⟩ := List.forall_mem_cons.1 lasting
      have stays : Outcome.isSkipped ⟨u, pointsOf codeOffset rows⟩ = false := by
        cases placed : pointsOf codeOffset rows with
        | ok points => rfl
        | error fault => exact pointsOf_error placed
      rw [kept, List.filter_cons_of_pos (by simp [stays]), List.map_cons, outcomes_cons unit']
      exact congrArg _ (ih apart agree later)

/-- A unit that is left out gives nothing. -/
lemma flatMap_given_kept (all : List Outcome) :
    (kept all).flatMap Outcome.given = all.flatMap Outcome.given := by
  induction all with
  | nil => rfl
  | cons o rest ih =>
    rw [List.flatMap_cons, ← ih]
    cases skipped : o.isSkipped with
    | true =>
      have nothing : o.given = [] := by
        unfold Outcome.isSkipped at skipped
        unfold Outcome.given
        cases points : o.points with
        | ok points =>
          rw [points] at skipped
          cases skipped
        | error fault => rfl
      rw [kept, List.filter_cons_of_neg (by simp [skipped]), nothing, List.nil_append]
      rfl
    | false =>
      rw [kept, List.filter_cons_of_pos (by simp [skipped]), List.flatMap_cons]
      rfl

section

variable {units : List UnitHeader} {t built : PositionTable}

/-- No unit ends a build that succeeds. -/
lemma fatal?_of_buildFrom_ok (h : (buildFrom v codeOffset ended units t m).table = .ok built) :
    ∀ o ∈ outcomes v codeOffset units m, o.fatal? = none := by
  rw [table_buildFrom] at h
  cases first : (outcomes v codeOffset units m).findSome? Outcome.fatal? with
  | none => exact List.findSome?_eq_none_iff.1 first
  | some fault =>
    rw [first] at h
    cases h

lemma table_of_lasting (lasting : ∀ o ∈ outcomes v codeOffset units m, o.fatal? = none) :
    (buildFrom v codeOffset ended units t m).table =
      finish ended (t.insertAll ((outcomes v codeOffset units m).flatMap Outcome.given)) := by
  rw [table_buildFrom, List.findSome?_eq_none_iff.2 lasting]

lemma notices_of_lasting (lasting : ∀ o ∈ outcomes v codeOffset units m, o.fatal? = none) :
    (buildFrom v codeOffset ended units t m).notices =
      ((outcomes v codeOffset units m).filter (·.isSkipped)).map
        fun o => .skippedUnit o.unit.offset := by
  rw [notices_buildFrom, List.takeWhile_eq_self_iff.2]
  intro o mem
  rw [lasting o mem]
  rfl

end

/-- A build that succeeds leaves out the units that cannot be decoded, and they leave no trace. The
table is that of the points of all other units, in their order; one notice is told for each unit
that is left out, in the order of the units and with its offset; and the build over the other units
alone gives the same table and tells nothing. -/
theorem build_without_skipped {t : PositionTable} (h : (build v codeOffset m).table = .ok t) :
    let all := outcomes v codeOffset v.units.1 m
    let others := (kept all).map (·.unit)
    all.map (·.unit) = v.units.1 ∧
      (∀ o ∈ all, o.isSkipped = true ∨ ∃ points, o.points = .ok points) ∧
      t = .ofList ((kept all).flatMap Outcome.given) ∧
      (build v codeOffset m).notices.map Notice.text =
        (all.filter (·.isSkipped)).map (fun o =>
          ("WARNING: Skipping compilation unit at offset 0x" ++
            Text.Hexadecimal.ofNat o.unit.offset : WideString)) ∧
      outcomes v codeOffset others m = kept all ∧
      (buildFrom v codeOffset v.units.2 others .empty m).table = .ok t ∧
      (buildFrom v codeOffset v.units.2 others .empty m).notices = [] := by
  intro all others
  have lasting : ∀ o ∈ all, o.fatal? = none := fatal?_of_buildFrom_ok h
  have inTable : finish v.units.2 (.ofList (all.flatMap Outcome.given)) = .ok t :=
    (table_of_lasting lasting).symm.trans h
  have again : outcomes v codeOffset others m = kept all :=
    outcomes_kept v.pairwise_units (.refl v _ m) lasting
  have lastingAgain : ∀ o ∈ outcomes v codeOffset others m, o.fatal? = none := by
    rw [again]
    exact fun o mem => lasting o (List.mem_filter.1 mem).1
  refine ⟨map_unit_outcomes _ m, fun o mem => ?_, ?_, ?_, again, ?_, ?_⟩
  · cases result : o.points with
    | ok points => exact .inr ⟨points, rfl⟩
    | error fault =>
      have := lasting o mem
      left
      simpa [Outcome.fatal?, Outcome.isSkipped, result] using this
  · rw [flatMap_given_kept]
    exact finish_ok inTable
  · unfold build
    rw [notices_of_lasting lasting, List.map_map]
    rfl
  · rw [table_of_lasting lastingAgain, again, flatMap_given_kept]
    exact inTable
  · rw [notices_of_lasting lastingAgain, again, kept, List.filter_filter]
    simp

/-- A module with three units. The second one has rows at the addresses of the two others, but its
program ends early. Each section begins on a line of its own. -/
def brokenBetween : Bytes :=
  [0x00, 0x61, 0x73, 0x6d, 0x01, 0x00, 0x00, 0x00,
    0x00, 0x16, 0x0d, 0x2e, 0x64, 0x65, 0x62, 0x75, 0x67, 0x5f, 0x61, 0x62, 0x62, 0x72, 0x65, 0x76,
    0x01, 0x11, 0x00, 0x10, 0x17, 0x00, 0x00, 0x00,
    0x00, 0x3c, 0x0b, 0x2e, 0x64, 0x65, 0x62, 0x75, 0x67, 0x5f, 0x69, 0x6e, 0x66, 0x6f, 0x0c, 0x00,
    0x00, 0x00, 0x04, 0x00, 0x00, 0x00, 0x00, 0x00, 0x04, 0x01, 0x00, 0x00, 0x00, 0x00, 0x0c, 0x00,
    0x00, 0x00, 0x04, 0x00, 0x00, 0x00, 0x00, 0x00, 0x04, 0x01, 0x33, 0x00, 0x00, 0x00, 0x0c, 0x00,
    0x00, 0x00, 0x04, 0x00, 0x00, 0x00, 0x00, 0x00, 0x04, 0x01, 0x1a, 0x00, 0x00, 0x00,
    0x00, 0x59, 0x0b, 0x2e, 0x64, 0x65, 0x62, 0x75, 0x67, 0x5f, 0x6c, 0x69, 0x6e, 0x65, 0x16, 0x00,
    0x00, 0x00, 0x03, 0x00, 0x0e, 0x00, 0x00, 0x00, 0x01, 0x01, 0x01, 0x04, 0x01, 0x00, 0x61, 0x2e,
    0x63, 0x00, 0x00, 0x00, 0x00, 0x00, 0x01, 0x05, 0x15, 0x00, 0x00, 0x00, 0x03, 0x00, 0x0e, 0x00,
    0x00, 0x00, 0x01, 0x01, 0x01, 0x04, 0x01, 0x00, 0x63, 0x2e, 0x63, 0x00, 0x00, 0x00, 0x00, 0x00,
    0x05, 0x1a, 0x00, 0x00, 0x00, 0x03, 0x00, 0x0e, 0x00, 0x00, 0x00, 0x01, 0x01, 0x01, 0x04, 0x01,
    0x00, 0x62, 0x2e, 0x63, 0x00, 0x00, 0x00, 0x00, 0x00, 0x01, 0x05]

/-- The points of a module that is parsed, with what is told about its units. -/
def summary (data : Bytes) : Option (List Point × List WideString) :=
  (Container.Module.parse data).toOption.bind fun m =>
    (View.load m none none).toOption.bind fun v =>
      (build v 0 {}).table.toOption.map fun t =>
        (t.points, (build v 0 {}).notices.map Notice.text)

/-- The rows of the second unit are nowhere in the table. -/
theorem build_without_skipped_brokenBetween :
    ∃ m v t, Container.Module.parse brokenBetween = .ok m ∧ View.load m none none = .ok v ∧
      (build v 0 {}).table = .ok t ∧
      t.points = [⟨some "a.c", 0, 2, 0, false⟩, ⟨some "c.c", 1, 2, 0, false⟩] ∧
      (build v 0 {}).notices.map Notice.text =
        (["WARNING: Skipping compilation unit at offset 0x10"] : List WideString) ∧
      t = .ofList ((kept (outcomes v 0 v.units.1 {})).flatMap Outcome.given) ∧
      (buildFrom v 0 v.units.2 ((kept (outcomes v 0 v.units.1 {})).map (·.unit)) .empty {}).table =
        .ok t := by
  have all : summary brokenBetween =
      some (([⟨some "a.c", 0, 2, 0, false⟩, ⟨some "c.c", 1, 2, 0, false⟩] : List Point),
        (["WARNING: Skipping compilation unit at offset 0x10"] : List WideString)) := by
    decide +kernel
  unfold summary at all
  obtain ⟨m, isModule, all⟩ := Option.bind_eq_some_iff.1 all
  obtain ⟨v, isView, all⟩ := Option.bind_eq_some_iff.1 all
  obtain ⟨t, isTable, all⟩ := Option.map_eq_some_iff.1 all
  obtain ⟨points, notices⟩ := Prod.mk.inj all
  have built := Except.ok_of_toOption isTable
  obtain ⟨_, _, inserted, _, _, alone, _⟩ := build_without_skipped built
  exact ⟨m, v, t, Except.ok_of_toOption isModule, Except.ok_of_toOption isView, built, points,
    notices, inserted, alone⟩

end Position

end WasmSourceMap
