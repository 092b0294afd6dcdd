import Mathlib.Tactic.Lemma
import WasmSourceMap.Position.Build
import WasmSourceMap.Proofs.SourcePath.Joining

/-!
# Files of line tables of different versions

Version 5 counts files from zero instead of one, and it lists the directory of the compilation as
directory zero, where version 4 has none. So a file has the same path in both, unless it is in
directory zero: there version 5 puts the directory of the compilation in front of itself
(`filePath_listing_five`). That changes the path if the directory is relative and leads somewhere
(`filePath_listing_iff`).
-/

namespace WasmSourceMap

open Dwarf (LineTable Value)

namespace Dwarf

/-- A line table of some version with some directories, and with some files by name and number of
the directory. -/
def LineTable.listing (t : LineTable) (version : Nat) (directories : List Value)
    (files : List (Value × Nat)) : LineTable :=
  { t with
    header := { t.header with version, directories := some directories }
    files := some (files.map fun file =>
      { name := file.1, directory := some (.integer file.2) }) }

/-- The directory with a number, counted from one. -/
def listed (directories : List Value) : Nat → Option String
  | 0 => none
  | k + 1 => directories[k]?.bind Value.text?

end Dwarf

namespace Position

open Dwarf (listed)

variable (t t' : LineTable) (base : Value) (directories : List Value) (files : List (Value × Nat))

/-- The path of a file is that of its name in its directory, however the table finds them. -/
lemma filePath_listing {version number i : Nat} (directoryOf : Nat → Option String)
    (place : (t.listing version directories files).filePlace number = some i)
    (found : ∀ k : Nat,
      ((t.listing version directories files).directoryPlace (.integer k) >>=
        (t.listing version directories files).directoryAt) = .ok (directoryOf k))
    (compilation : Option String) :
    filePath (t.listing version directories files) compilation number =
      .ok (files[i]?.map fun file =>
        SourcePath.join (file.1.text?.getD "") (directoryOf file.2) compilation) := by
  have list : (t.listing version directories files).files = some (files.map fun file =>
    ⟨file.1, some (.integer file.2)⟩) := rfl
  unfold filePath LineTable.fileEntry
  rw [place, list]
  dsimp only
  rw [List.getElem?_map]
  cases files[i]? with
  | none => rfl
  | some file =>
    dsimp only [Option.map_some]
    rw [← bind_assoc, found]
    rfl

/-- Version 4 finds a directory by its number. -/
lemma filePath_listing_four (compilation : Option String) (i : Nat) :
    filePath (t.listing 4 directories files) compilation (i + 1) =
      .ok (files[i]?.map fun file =>
        SourcePath.join (file.1.text?.getD "") (listed directories file.2) compilation) := by
  apply filePath_listing t directories files (listed directories) rfl
  intro k
  cases k with
  | zero => rfl
  | succ k =>
    have before : (t.listing 4 directories files).directoryPlace (.integer (k + 1 : Nat)) =
        .ok k := congrArg Except.ok (Int.add_sub_cancel k 1)
    rw [before]
    rfl

/-- So does version 5, but directory zero is the first of its list. -/
lemma filePath_listing_five (compilation : Option String) (i : Nat) :
    filePath (t.listing 5 (base :: directories) files) compilation i =
      .ok (files[i]?.map fun file =>
        SourcePath.join (file.1.text?.getD "")
          (if file.2 = 0 then base.text? else listed directories file.2) compilation) := by
  apply filePath_listing t (base :: directories) files
    (fun k => if k = 0 then base.text? else listed directories k) rfl
  intro k
  cases k <;> rfl

/-- File `i + 1` of version 4 has the path of file `i` of version 5, which lists the directory of
the compilation in front of the others, unless the file has a relative name, is in directory zero
and the directory of the compilation is another one below itself. -/
theorem filePath_listing_iff (i : Nat) :
    filePath (t.listing 4 directories files) base.text? (i + 1) =
        filePath (t'.listing 5 (base :: directories) files) base.text? i ↔
      ∀ name directory, files[i]? = some (name, 0) → base.text? = some directory →
        SourcePath.isAbsolute (name.text?.getD "") = false →
          SourcePath.join directory none (some directory) = SourcePath.normalize directory := by
  rw [filePath_listing_four, filePath_listing_five, Except.ok.injEq]
  cases files[i]? with
  | none => simp
  | some file =>
    obtain ⟨name, k⟩ := file
    cases k with
    | succ k => simp [listed]
    | zero =>
      cases base.text? with
      | none => simp [listed]
      | some directory =>
        simp only [Option.map_some, Option.some.injEq, Prod.mk.injEq, and_true, if_true, listed]
        constructor
        · rintro same _ _ rfl rfl relative
          exact (SourcePath.join_twice_iff relative directory).1 same.symm
        · intro again
          cases absolute : SourcePath.isAbsolute (name.text?.getD "") with
          | true =>
            rw [SourcePath.join_of_isAbsolute absolute, SourcePath.join_of_isAbsolute absolute]
          | false =>
            have twice := again _ _ rfl rfl absolute
            exact ((SourcePath.join_twice_iff absolute directory).2 twice).symm

/-- A line table with an empty program. -/
def emptyProgram : LineTable where
  layout := { wide := false, addressSize := .four, version := 4 }
  header := {
    length := 0, version := 4, minimumInstructionLength := 1, maximumOperations := 1
    lineBase := -5, lineRange := 14, opcodeBase := 13, directories := none, files := none }
  start := 0
  stop := 0
  files := none
  rows := some []

/-- With a relative directory of the compilation, version 5 names it twice. -/
theorem filePath_listing_relative :
    filePath (emptyProgram.listing 4 [] [(.string "main.c", 0)]) (some "proj") 1 =
        .ok (some "proj/main.c") ∧
      filePath (emptyProgram.listing 5 [.string "proj"] [(.string "main.c", 0)]) (some "proj") 0 =
        .ok (some "proj/proj/main.c") := by
  rw [filePath_listing_four, filePath_listing_five, Except.ok.injEq, Except.ok.injEq]
  decide +kernel

end Position

end WasmSourceMap
