import Mathlib.Tactic.Lemma
import WasmSourceMap.Position.Build
import WasmSourceMap.Proofs.Results

/-!
# Paths that are known

The points of a unit are made with the paths that earlier rows looked up. What is known of a file is
always what looking it up again would give (`KnownFrom`): this holds when nothing is known, and each
row keeps it, whether its file was known or is remembered from then on. So the points are those of
each row on its own (`pointsOfRows_eq_mapM`).
-/

namespace WasmSourceMap.Position

open Dwarf (LineTable Row)

/-- The point of a row whose file is looked up for it. -/
def pointOfRow (t : LineTable) (directory : Option String) (codeOffset : Int) (r : Row) :
    Except Fault Point :=
  checkedPoint (pathOf t directory r.file) codeOffset r

/-- What is known of a file is what looking it up gives. -/
def KnownFrom (t : LineTable) (directory : Option String) (known : KnownPaths) : Prop :=
  ∀ file path, known.lookup file = some path → pathOf t directory file = .ok path

variable {t : LineTable} {directory : Option String} {codeOffset : Int} {known : KnownPaths}

/-- A point has the path that its file has. -/
lemma source_of_checkedPoint {path : Except Fault (Option String)} {r : Row} {p : Point}
    (h : checkedPoint path codeOffset r = .ok p) : path = .ok p.source := by
  unfold checkedPoint at h
  obtain ⟨address, _, h⟩ := Except.bind_ok h
  obtain ⟨line, _, h⟩ := Except.bind_ok h
  obtain ⟨column, _, h⟩ := Except.bind_ok h
  obtain ⟨source, found, h⟩ := Except.bind_ok h
  cases h
  exact found

namespace KnownFrom

lemma nil : KnownFrom t directory [] := by
  intro file path h
  cases h

/-- It makes no difference whether a path is known or looked up. -/
lemma recallPath (h : KnownFrom t directory known) (file : Nat) :
    recallPath t directory known file = pathOf t directory file := by
  unfold Position.recallPath
  cases found : known.lookup file with
  | none => rfl
  | some path => exact (h file path found).symm

lemma remember (h : KnownFrom t directory known) {file : Nat} {path : Option String}
    (found : pathOf t directory file = .ok path) :
    KnownFrom t directory (remember known file path) := by
  unfold Position.remember
  cases known.lookup file with
  | some _ => exact h
  | none =>
    intro other told e
    rw [List.lookup_cons] at e
    cases same : other == file with
    | true =>
      rw [same] at e
      rw [beq_iff_eq.1 same, found]
      exact congrArg Except.ok (Option.some.inj e)
    | false =>
      rw [same] at e
      exact h other told e

/-- The points of rows with some paths known are the points of the rows. -/
lemma pointsFrom (h : KnownFrom t directory known) (rows : List Row) :
    pointsFrom t directory codeOffset known rows =
      rows.mapM (pointOfRow t directory codeOffset) := by
  induction rows generalizing known with
  | nil => rfl
  | cons r rest ih =>
    rw [Position.pointsFrom, List.mapM_cons, h.recallPath r.file]
    change pointOfRow t directory codeOffset r >>= _ = _
    cases placed : pointOfRow t directory codeOffset r with
    | error fault => rfl
    | ok p =>
      rw [Except.ok_bind, Except.ok_bind, ih (h.remember (source_of_checkedPoint placed))]

end KnownFrom

/-- The points of the rows of a unit are those of each row on its own. -/
lemma pointsOfRows_eq_mapM (t : LineTable) (directory : Option String) (codeOffset : Int)
    (rows : List Row) :
    pointsOfRows t directory codeOffset rows = rows.mapM (pointOfRow t directory codeOffset) :=
  KnownFrom.nil.pointsFrom rows

end WasmSourceMap.Position
