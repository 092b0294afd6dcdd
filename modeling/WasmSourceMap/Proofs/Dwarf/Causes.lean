import WasmSourceMap.Proofs.Dwarf.FileLookup
import WasmSourceMap.Proofs.Dwarf.LineRun
import WasmSourceMap.Proofs.Dwarf.ReadFaults

/-!
# What faults are caused by

Each fault that rows of a unit or files of such rows can have goes back to something in the debug
information (`Caused`). A program that divides by zero has an instruction that divides, which it
comes to (`Reaches`), and a zero in its header. A table of version 5 or later may have entries of
the wrong kind, or lack some. An older table has all its files with the numbers of their directories
(`LineHeader.Listed`), and so it stays as its program adds files, unless one that it adds has no
name (`hasFiles_of_from`). Hence what the units leave in memory is `Sound`.
-/

namespace WasmSourceMap

namespace Dwarf

open Reader (Gives)

/-- The file has the number of its directory, as files before version 5 do. -/
def LineFile.Numbered (file : LineFile) : Prop := ∃ n : Nat, file.directory = some (.integer n)

/-- There are directories and files, and the files have the numbers of their directories. -/
structure LineHeader.Listed (h : LineHeader) : Prop where
  directories : h.directories.isSome = true
  files : ∃ files, h.files = some files ∧ ∀ file ∈ files, file.Numbered

lemma readFile_gives : Gives (fun file => file.Numbered ∨ file.directory = none) readFile := by
  refine .bind fun name => ?_
  unfold readFileFields
  split
  · exact .pure (.inr rfl)
  · refine .bind fun directory => .bind fun _ => .bind fun _ => .pure (.inl ⟨directory, rfl⟩)

lemma readListedFile_gives : Gives (∀ file ∈ ·, LineFile.Numbered file) readListedFile := by
  refine .bind_of readFile_gives fun file numbered => .pure ?_
  rcases numbered with numbered | absent
  · obtain ⟨n, given⟩ := numbered
    rw [given]
    rintro _ ⟨⟩
    exact ⟨n, given⟩
  · rw [absent]
    nofun

lemma Instruction.readExtended_gives (l : Layout) (length code : Nat) :
    Gives (fun i => ∀ file, i = .defineFile file → file.Numbered ∨ file.directory = none)
      (readExtended l length code) := by
  unfold readExtended
  split
  · exact .pure nofun
  · exact .bind fun _ => .pure nofun
  · refine .bind_of readFile_gives fun file numbered => .pure ?_
    rintro _ ⟨⟩
    exact numbered
  · exact .bind fun _ => .pure nofun
  · exact .bind fun _ => .pure nofun

/-- A file that an instruction defines has the number of its directory, or none. -/
lemma Instruction.read_gives (h : LineHeader) (l : Layout) :
    Gives (fun i => ∀ file, i = .defineFile file → file.Numbered ∨ file.directory = none)
      (read h l) := by
  refine .bind fun opcode => ?_
  unfold readBody
  split
  · exact .pure nofun
  · split
    · exact .bind fun length => .bind fun code => readExtended_gives l length _
    · unfold readStandard
      repeat' first
        | exact .pure nofun
        | exact .fail
        | exact .bind fun _ => .pure nofun
        | split

/-- The instructions that divide by numbers of the header. -/
def Instruction.divides : Instruction → Bool
  | .special _ | .advanceByConstant => true
  | _ => false

/-- Only one instruction changes the files, and that adds one at the end. -/
lemma LineMachine.execute_files {h : LineHeader} {m after : LineMachine} {i : Instruction}
    {row : Option Row} (done : m.execute h i = .ok (after, row)) :
    after.files = m.files ∨
      ∃ file, i = .defineFile file ∧ after.files = m.files.map (· ++ [file]) := by
  cases i with
  | special adjusted =>
    obtain ⟨r, _, done⟩ := Except.bind_ok done
    cases done
    exact .inl rfl
  | advanceByConstant =>
    obtain ⟨r, _, done⟩ := Except.bind_ok done
    cases done
    exact .inl rfl
  | defineFile file =>
    change (if h.version < 5 then Except.ok (_, none) else _) = _ at done
    split at done <;> cases done
    exact .inr ⟨file, rfl, rfl⟩
  | _ =>
    cases done
    exact .inl rfl

namespace View

variable {v : View} {l : Layout} {data : Bytes} {position next : Nat} {header : LineHeader}

lemma readTables_gives (v : View) (l : Layout) {version : Nat} (old : version < 5) :
    Gives (fun given => given.1.isSome = true ∧
      ∃ files, given.2 = some files ∧ ∀ file ∈ files, LineFile.Numbered file)
      (v.readTables l version) := by
  unfold readTables
  rw [if_pos old]
  refine .bind fun directories => ?_
  refine .bind_of (.collect readListedFile_gives _) fun files numbered => .pure ?_
  exact ⟨rfl, files, rfl, numbered⟩

/-- A header tells its version, and before version 5 it has directories and files. -/
lemma readLineHeader_done (h : v.readLineHeader l data position = .done header next) :
    readVersion.run data position = .ok header.version ∧ (header.version < 5 → header.Listed) := by
  unfold readLineHeader at h
  obtain ⟨length, afterLength, inLength, h⟩ := Reader.bind_done h
  obtain ⟨version, afterVersion, inVersion, h⟩ := Reader.bind_done h
  have told : readVersion.run data position = .ok version :=
    Reader.run_of_done ((Reader.bind_of_done inLength).trans inVersion)
  have tables : ∀ (f : Option (List Value) × Option (List LineFile) → LineHeader) (count : Nat),
      (∀ given, (f given).version = version ∧ (f given).directories = given.1 ∧
        (f given).files = given.2) →
      Gives (fun header => header.version = version ∧ (version < 5 → header.Listed)) (do
        let _opcodeLengths ← Reader.times count (Reader.byte.mapFault .ofRead : Reader Fault UInt8)
        let given ← v.readTables l version
        return f given) := by
    intro f count built
    refine .bind fun _ => ?_
    by_cases old : version < 5
    · refine .bind_of (readTables_gives v l old) fun given listed => .pure ?_
      obtain ⟨same, directories, files⟩ := built given
      refine ⟨same, fun _ => ⟨?_, ?_⟩⟩
      · rw [directories]
        exact listed.1
      · rw [files]
        exact listed.2
    · exact .bind fun given => .pure ⟨(built given).1, fun h => absurd h old⟩
  have given : header.version = version ∧ (version < 5 → header.Listed) := by
    refine (?_ : Gives (fun header : LineHeader =>
      header.version = version ∧ (version < 5 → header.Listed)) _) h
    -- What is in between are numbers, and some versions have more of them.
    dsimp only
    repeat' first
      | exact tables _ _ fun _ => ⟨rfl, rfl, rfl⟩
      | refine .bind fun _ => ?_
      | split
  rw [told, given.1]
  exact ⟨rfl, given.2⟩

/-- A unit says that its line table is at an offset of the line section. -/
structure PointsAt (v : View) (u : UnitHeader) (found : DebugSection) (offset : Int) : Prop where
  listed : u ∈ v.units.1
  lines : v.sections.get? .line = some found
  value : ∃ attributes ended value, v.entry u = .ok (attributes, ended) ∧
    attributes.get? AttributeName.lineTable = some value ∧ value.toInt? = some offset

/-- A unit points at the table: its header is there, and its program follows. -/
def Holds (v : View) (found : DebugSection) (t : LineTable) : Prop :=
  ∃ (u : UnitHeader) (position : Nat), v.PointsAt u found position ∧ t.layout = u.layout ∧
    v.readLineHeader u.layout found.data position = .done t.header t.start ∧
    t.stop = position + t.header.length + u.layout.lengthWidth

/-- A position that the program of a table comes to, instruction by instruction. -/
inductive InProgram (v : View) (found : DebugSection) (t : LineTable) : Nat → Prop where
  | start : v.Holds found t → InProgram v found t t.start
  | next {position next : Nat} {i : Instruction} :
    InProgram v found t position → position < t.stop →
    Instruction.read t.header t.layout found.data position = .done i next →
    InProgram v found t next

/-- A program comes to an instruction. -/
def Reaches (v : View) (t : LineTable) (i : Instruction) : Prop :=
  ∃ found position next, v.InProgram found t position ∧ position < t.stop ∧
    Instruction.read t.header t.layout found.data position = .done i next

/-- A unit points at a table of version 5 or later. -/
def HasNewTable (v : View) : Prop :=
  ∃ (u : UnitHeader) (found : DebugSection) (position : Nat),
    v.PointsAt u found position ∧ NewAt found.data position

/-- Which reading has a fault: that of the top entry of a unit or of its indexes, the way to its
line table, or the reading of the header there or of an instruction. -/
inductive Told (v : View) (fault : Fault) : Prop where
  | entry {u : UnitHeader} : u ∈ v.units.1 → v.entry u = .error fault → Told v fault
  | index {u : UnitHeader} {attributes : Attributes} :
    u ∈ v.units.1 → v.entry u = .ok (attributes, some fault) → Told v fault
  | offset {u : UnitHeader} {found : DebugSection} {offset : Int} {next : Nat} :
    v.PointsAt u found offset → seekTo offset found.data 0 = .failed fault next → Told v fault
  | header {u : UnitHeader} {found : DebugSection} {position next : Nat} :
    v.PointsAt u found position →
    v.readLineHeader u.layout found.data position = .failed fault next → Told v fault
  | instruction {found : DebugSection} {t : LineTable} {position next : Nat} :
    v.InProgram found t position → position < t.stop →
    Instruction.read t.header t.layout found.data position = .failed fault next → Told v fault

/-- What a fault is caused by. Any data can be `undecodable`; each other fault tells something about
the debug information. -/
inductive Caused (v : View) : Fault → Prop where
  | undecodable : Caused v .undecodable
  | lacksSection : v.Told .missingSection → v.LacksSection → Caused v .missingSection
  | leadsOut : v.Told .outOfRange → Caused v .outOfRange
  | addressSize : v.units.2 = some .badAddressSize → Caused v .badAddressSize
  | zeroDivisor {t : LineTable} {i : Instruction} :
    v.Reaches t i → i.divides = true → t.header.lineRange = 0 ∨ t.header.maximumOperations = 0 →
    Caused v .zeroDivisor
  | newTable {fault : Fault} :
    v.HasNewTable → fault = .wrongKind ∨ fault = .missingField → Caused v fault
  | nameless {t : LineTable} {file : LineFile} :
    v.Reaches t (.defineFile file) → file.directory = none → Caused v .missingField
  | misfit {u : UnitHeader} {attributes : Attributes} {ended : Option Fault} :
    u ∈ v.units.1 → v.entry u = .ok (attributes, ended) → attributes.Misfit → Caused v .wrongKind
  | noValue {u : UnitHeader} {attributes : Attributes} {ended : Option Fault}
      {found : DebugSection} {fault : Fault} {position next : Nat} :
    u ∈ v.units.1 → v.entry u = .ok (attributes, ended) →
    attributes.get? AttributeName.lineTable = some .null → v.sections.get? .line = some found →
    v.readLineHeader u.layout found.data position = .failed fault next → Caused v fault

section

variable {found : DebugSection} {t : LineTable} {fault : Fault}

lemma FromData.caused (h : v.FromData fault) (told : v.Told fault) : v.Caused fault := by
  rcases h with rfl | rfl | ⟨rfl, lacks⟩
  · exact .undecodable
  · exact .leadsOut told
  · exact .lacksSection told lacks

lemma caused_of_readLineHeader {u : UnitHeader} (points : v.PointsAt u found position)
    (h : v.readLineHeader u.layout found.data position = .failed fault next) : v.Caused fault := by
  rcases readLineHeader_fromHeader h with fromData | ⟨new, kinds⟩
  · exact fromData.caused (.header points h)
  · exact .newTable ⟨u, found, position, points, new⟩ kinds

lemma Holds.hasNewTable (h : v.Holds found t) (new : 5 ≤ t.header.version) : v.HasNewTable := by
  obtain ⟨u, position, points, _, read, _⟩ := h
  exact ⟨u, found, position, points, _, (readLineHeader_done read).1, new⟩

lemma Holds.listed (h : v.Holds found t) (old : t.header.version < 5) : t.header.Listed := by
  obtain ⟨u, position, _, _, read, _⟩ := h
  exact (readLineHeader_done read).2 old

lemma InProgram.holds (h : v.InProgram found t position) : v.Holds found t := by
  induction h with
  | start held => exact held
  | next _ _ _ ih => exact ih

/-- An instruction that cannot be carried out divides by zero, or adds a file to a new table. -/
lemma caused_of_execute {m : LineMachine} {i : Instruction} (inside : v.InProgram found t position)
    (before : position < t.stop)
    (read : Instruction.read t.header t.layout found.data position = .done i next)
    (h : m.execute t.header i = .error fault) : v.Caused fault := by
  have reached : v.Reaches t i := ⟨found, position, next, inside, before, read⟩
  -- Of all instructions three can fail: two divide, and one adds a file.
  cases i with
  | special adjusted =>
    rcases Except.bind_error h with divided | ⟨r, _, h⟩
    · unfold Registers.special at divided
      split at divided <;> cases divided
      rename_i zero
      exact .zeroDivisor reached rfl zero
    · cases h
  | advanceByConstant =>
    rcases Except.bind_error h with divided | ⟨r, _, h⟩
    · unfold Registers.advanceByConstant at divided
      split at divided <;> cases divided
      rename_i zero
      exact .zeroDivisor reached rfl (.inl zero)
    · cases h
  | defineFile file =>
    change (if t.header.version < 5 then _ else Except.error Fault.missingField) = _ at h
    split at h
    · cases h
    · rename_i new
      cases h
      exact .newTable (inside.holds.hasNewTable (Nat.le_of_not_lt new)) (.inr rfl)
  | _ => cases h

/-- A program that cannot be decoded to its end. -/
lemma caused_of_from {m : LineMachine} (inside : v.InProgram found t position)
    (h : (LineRun.from t.header t.layout t.stop found.data position m).rows = .error fault) :
    v.Caused fault := by
  fun_induction LineRun.from t.header t.layout t.stop found.data position m generalizing fault with
  | case1 position m before own next read =>
    cases h
    have fromData : v.FromData own := Instruction.read_fromData t.header t.layout read
    exact fromData.caused (.instruction inside before read)
  | case2 position m before i next read own failed =>
    cases h
    exact caused_of_execute inside before read failed
  | case3 position m before i next read after row done =>
    rename_i ih
    exact ih (inside.next before read) (Except.error_of_map h)
  | case4 => cases h

/-- A file of a table before version 5: it has the number of its directory, unless a program defines
it without a name. -/
def Findable (v : View) (file : LineFile) : Prop :=
  file.Numbered ∨ file.directory = none ∧ ∃ t, v.Reaches t (.defineFile file)

/-- Before version 5, a table has files that can be found. -/
def HasFiles (v : View) (version : Nat) (files : Option (List LineFile)) : Prop :=
  version < 5 → ∃ known, files = some known ∧ ∀ file ∈ known, v.Findable file

/-- An instruction of a program keeps the files so. -/
lemma hasFiles_of_execute {m after : LineMachine} {i : Instruction} {row : Option Row}
    (inside : v.InProgram found t position) (before : position < t.stop)
    (read : Instruction.read t.header t.layout found.data position = .done i next)
    (h : m.execute t.header i = .ok (after, row)) (given : v.HasFiles t.header.version m.files) :
    v.HasFiles t.header.version after.files := by
  intro old
  obtain ⟨known, e, each⟩ := given old
  -- Files are added at the end only, so those that are known stay.
  rcases LineMachine.execute_files h with same | ⟨file, rfl, added⟩
  · exact ⟨known, same.trans e, each⟩
  · rw [e] at added
    refine ⟨known ++ [file], added, List.forall_mem_append.2 ⟨each, ?_⟩⟩
    intro _ only
    obtain rfl := List.mem_singleton.1 only
    rcases Instruction.read_gives _ _ read _ rfl with numbered | absent
    · exact .inl numbered
    · exact .inr ⟨absent, t, found, position, next, inside, before, read⟩

lemma hasFiles_of_from {m : LineMachine} (inside : v.InProgram found t position)
    (given : v.HasFiles t.header.version m.files) :
    v.HasFiles t.header.version
      (LineRun.from t.header t.layout t.stop found.data position m).files := by
  fun_induction LineRun.from t.header t.layout t.stop found.data position m with
  | case1 => exact given
  | case2 => exact given
  | case3 position m before i next read after row done =>
    rename_i ih
    exact ih (inside.next before read) (hasFiles_of_execute inside before read done given)
  | case4 => exact given

/-- A table as the units leave it. -/
structure Sound (v : View) (found : DebugSection) (t : LineTable) : Prop where
  held : v.Holds found t
  files : v.HasFiles t.header.version t.files

/-- A table whose header was just read. -/
lemma Holds.sound (h : v.Holds found t) (same : t.files = t.header.files) : v.Sound found t := by
  refine ⟨h, fun old => ?_⟩
  obtain ⟨known, e, each⟩ := (h.listed old).files
  exact ⟨known, same.trans e, fun file mem => .inl (each file mem)⟩

lemma Sound.ran (h : v.Sound found t) : v.Sound found (t.ran found.data) := by
  have files : v.HasFiles t.header.version (t.run found.data).files :=
    hasFiles_of_from (.start h.held) h.files
  exact ⟨h.held, files⟩

lemma Sound.caused_of_run (h : v.Sound found t) (failed : (t.run found.data).rows = .error fault) :
    v.Caused fault :=
  caused_of_from (.start h.held) failed

lemma Sound.lines (h : v.Sound found t) : v.sections.get? .line = some found := by
  obtain ⟨_, _, points, _⟩ := h.held
  exact points.lines

/-- A file of a row that cannot be looked up. -/
lemma Sound.caused_of_fileEntry {index : Nat} (h : v.Sound found t)
    (failed : t.fileEntry index = .error fault) : v.Caused fault := by
  have cause := LineTable.fileEntry_error failed
  by_cases new : 5 ≤ t.header.version
  · apply Caused.newTable (h.held.hasNewTable new)
    rcases cause with ⟨kind, _⟩ | ⟨_, _, _, _, ⟨kind, _⟩ | ⟨kind, _⟩⟩
    · exact .inl kind
    · exact .inr kind
    · exact .inl kind
  · -- Before version 5 only a file without a name says nothing about its directory.
    have old := Nat.lt_of_not_le new
    obtain ⟨known, e, each⟩ := h.files old
    rcases cause with ⟨_, missing | missing⟩ | ⟨files, file, given, mem, kind⟩
    · cases e.symm.trans missing
    · have there := (h.held.listed old).directories
      rw [missing] at there
      cases there
    · cases e.symm.trans given
      rcases each file mem with ⟨n, numbered⟩ | ⟨absent, nameless⟩
      · rcases kind with ⟨_, absent⟩ | ⟨_, value, directory, other⟩
        · cases numbered.symm.trans absent
        · cases numbered.symm.trans directory
          cases other
      · rcases kind with ⟨rfl, _⟩ | ⟨_, value, directory, _⟩
        · obtain ⟨t, reached⟩ := nameless
          exact .nameless reached absent
        · cases absent.symm.trans directory

end

end View

end Dwarf

end WasmSourceMap
