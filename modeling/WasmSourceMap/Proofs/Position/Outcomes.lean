import WasmSourceMap.Proofs.Position.DecodedRows

/-!
# What becomes of the units of a build

A build takes the units in order, and of each one come points or a fault (`outcomes`). A fault that
is skippable leaves the unit out, any other ends the build. What a build leaves is read off the
outcomes: the table (`table_buildFrom`) and what it tells (`notices_buildFrom`).
-/

namespace WasmSourceMap.Position

open Dwarf (View UnitHeader Memory run_bind_of_ok run_bind_of_error)

/-- A unit with its points, or with why it has none. -/
structure Outcome where
  unit : UnitHeader
  points : Except Fault (List Point)

namespace Outcome

/-- The fault that ends a build at the unit. -/
def fatal? (o : Outcome) : Option Fault :=
  match o.points with
  | .ok _ => none
  | .error fault => if fault.isSkippable then none else some fault

/-- The unit is left out, and the build goes on. -/
def isSkipped (o : Outcome) : Bool :=
  match o.points with
  | .ok _ => false
  | .error fault => fault.isSkippable

/-- What the unit gives to the table. -/
def given (o : Outcome) : List Point := o.points.toOption.getD []

end Outcome

/-- What becomes of each unit, with the mark that those before it left on the memory. -/
def outcomes (v : View) (codeOffset : Int) : List UnitHeader → Memory → List Outcome
  | [], _ => []
  | u :: rest, m =>
    let (points, after) := (unitPoints v codeOffset u).run m
    ⟨u, points⟩ :: outcomes v codeOffset rest after

variable {v : View} {codeOffset : Int} {ended : Option Dwarf.Fault}

lemma outcomes_cons {u : UnitHeader} {rest : List UnitHeader} {m after : Memory}
    {points : Except Fault (List Point)}
    (h : (unitPoints v codeOffset u).run m = (points, after)) :
    outcomes v codeOffset (u :: rest) m = ⟨u, points⟩ :: outcomes v codeOffset rest after := by
  rw [outcomes, h]

/-- Every unit has an outcome. -/
lemma map_unit_outcomes (units : List UnitHeader) (m : Memory) :
    (outcomes v codeOffset units m).map (·.unit) = units := by
  induction units generalizing m with
  | nil => rfl
  | cons u rest ih =>
    rcases h : (unitPoints v codeOffset u).run m with ⟨points, after⟩
    rw [outcomes_cons h, List.map_cons, ih]

/-- The table holds what the units give, unless one of them ends the build. -/
lemma table_buildFrom (units : List UnitHeader) (t : PositionTable) (m : Memory) :
    (buildFrom v codeOffset ended units t m).table =
      match (outcomes v codeOffset units m).findSome? Outcome.fatal? with
      | some fault => .error fault
      | none =>
        finish ended (t.insertAll ((outcomes v codeOffset units m).flatMap Outcome.given)) := by
  induction units generalizing t m with
  | nil => rfl
  | cons u rest ih =>
    rcases h : (unitPoints v codeOffset u).run m with ⟨fault | points, after⟩
    · rw [table_buildFrom_of_error h, outcomes_cons h, List.findSome?_cons]
      cases skippable : fault.isSkippable with
      | true =>
        rw [if_pos rfl, ih]
        simp [Outcome.fatal?, Outcome.given, skippable, Except.toOption]
      | false => simp [Outcome.fatal?, skippable]
    · rw [table_buildFrom_of_ok h, ih, outcomes_cons h, List.findSome?_cons, List.flatMap_cons,
        PositionTable.insertAll_append]
      rfl

/-- A build tells of each unit that it leaves out before it ends. -/
lemma notices_buildFrom (units : List UnitHeader) (t : PositionTable) (m : Memory) :
    (buildFrom v codeOffset ended units t m).notices =
      (((outcomes v codeOffset units m).takeWhile (·.fatal?.isNone)).filter (·.isSkipped)).map
        fun o => .skippedUnit o.unit.offset := by
  induction units generalizing t m with
  | nil => rfl
  | cons u rest ih =>
    rcases h : (unitPoints v codeOffset u).run m with ⟨fault | points, after⟩
    · rw [outcomes_cons h, List.takeWhile_cons]
      cases skippable : fault.isSkippable with
      | true => simp [buildFrom, h, skippable, Outcome.fatal?, Outcome.isSkipped, ih]
      | false => simp [buildFrom, h, skippable, Outcome.fatal?]
    · rw [outcomes_cons h, List.takeWhile_cons]
      simp [buildFrom, h, Outcome.fatal?, Outcome.isSkipped, ih]

end WasmSourceMap.Position
