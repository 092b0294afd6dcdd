import WasmSourceMap.Dwarf.Form

/-!
# Abbreviations

An entry of the info section names an abbreviation by its code; the abbreviation lists the
attributes of the entry and their forms. A table of abbreviations ends with the code zero, and the
last declaration of a code counts.
-/

namespace WasmSourceMap.Dwarf

/-- An attribute of an abbreviation: its name, the code of its form and the value that the form for
implicit constants takes. -/
structure AttributeSpec where
  name : Nat
  form : Nat
  constant : Int
deriving DecidableEq, Repr

/-- The declaration of a code. -/
structure Abbreviation where
  code : Nat
  tag : Nat
  hasChildren : Bool
  attributes : List AttributeSpec
deriving DecidableEq, Repr

namespace AttributeSpec

/-- The constant of the form that has one. -/
def readConstant (form : Nat) : Reader Fault Int :=
  if form = implicitConstantCode then Reader.sleb else pure 0

/-- An attribute; two zeros end the list. -/
def read : Reader Fault (Option AttributeSpec) := do
  let name ← Reader.uleb
  let form ← Reader.uleb
  let constant ← readConstant form
  return if name = 0 ∧ form = 0 then none else some { name, form, constant }

theorem read_consumes : Reader.Consumes read :=
  .bind (Reader.Consumes.uleb.mapFault _) fun _ =>
    .bind (Reader.Consumes.uleb.mapFault _).within fun form =>
      .bind (by
        unfold readConstant
        split
        · exact (Reader.Consumes.sleb.mapFault _).within
        · exact .pure 0) fun _ => .pure _

end AttributeSpec

namespace Abbreviation

/-- What follows the code of a declaration. -/
def readBody (code : Nat) : Reader Fault Abbreviation := do
  let tag ← Reader.uleb
  let children ← Reader.byte
  Reader.check (children ≤ 1) .undecodable
  let attributes ← Reader.collect AttributeSpec.read AttributeSpec.read_consumes
  return { code, tag, hasChildren := children = 1, attributes }

/-- A declaration; the code zero ends the table. -/
def read : Reader Fault (Option Abbreviation) := do
  let code ← Reader.uleb
  if code = 0 then return none
  else return some (← readBody code)

/-- A list that is collected consumes data, since what ends it does. -/
theorem collect_consumes {α : Type} {r : Reader Fault (Option α)} (consumes : Reader.Consumes r) :
    Reader.Consumes (Reader.collect r consumes) := by
  intro data position items next h
  change Reader.collectAt r consumes data position = _ at h
  fun_induction Reader.collectAt r consumes data position generalizing items next with
  | case1 => cases h
  | case2 position middle e =>
    simp only [Outcome.done.injEq] at h
    have := consumes e
    omega
  | case3 position a middle e rest last hm ih =>
    simp only [Outcome.done.injEq] at h
    have := consumes e
    have := ih hm
    omega
  | case4 => cases h

theorem read_consumes : Reader.Consumes read :=
  .bind (Reader.Consumes.uleb.mapFault _) fun code => by
    by_cases h : code = 0
    · rw [if_pos h]
      exact .pure none
    · rw [if_neg h]
      refine .bind (.bind (Reader.Consumes.uleb.mapFault _).within fun _ =>
        .bind (Reader.Consumes.byte.mapFault _).within fun _ =>
          .bind (.check _ _) fun _ =>
            .bind (collect_consumes _).within fun _ => .pure _) fun _ => .pure _

/-- The table at an offset of the abbreviation section, which must lie inside it. -/
def table (data : Bytes) (offset : Nat) : Except Fault (List Abbreviation) :=
  if offset < data.length then (Reader.collect read read_consumes).run data offset
  else .error .undecodable

/-- The last declaration of a code. -/
def find (table : List Abbreviation) (code : Nat) : Except Fault Abbreviation :=
  match table.reverse.find? fun a => a.code == code with
  | some a => .ok a
  | none => .error .undecodable

end Abbreviation

end WasmSourceMap.Dwarf
