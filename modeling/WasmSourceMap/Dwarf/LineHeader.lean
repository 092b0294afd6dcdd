import WasmSourceMap.Dwarf.UnitEntry

/-!
# Headers of line tables

The header of a line table gives the numbers that its program works with, and the directories and
files that rows refer to. Before version 5 these are lists of strings that end with an empty one;
from version 5 on the header first says which fields an entry has. Offsets have the width that the
unit says, whatever the header itself says.
-/

namespace WasmSourceMap.Dwarf

/-- A file of a line table. A file without directory field cannot be looked up. -/
structure LineFile where
  name : Value
  directory : Option Value
deriving DecidableEq, Repr

/-- The header of a line table. A table from version 5 on that is empty is missing. -/
structure LineHeader where
  length : Nat
  version : Nat
  minimumInstructionLength : Nat
  maximumOperations : Nat
  lineBase : Int
  lineRange : Nat
  opcodeBase : Nat
  directories : Option (List Value)
  files : Option (List LineFile)
deriving DecidableEq, Repr

/-- A field of the entries of a table: its content type and the code of its form. -/
structure EntryField where
  content : Nat
  form : Nat
deriving DecidableEq, Repr

namespace EntryField

def path : Nat := 1
def directoryIndex : Nat := 2

/-- The content types that have a meaning. -/
def knownContents : List Nat := [1, 2, 3, 4, 5, 0x2000, 0x2001, 0x2002, 0x3FFF]

def read : Reader Fault EntryField := do
  let content ← Reader.uleb
  Reader.check (knownContents.contains content) .undecodable
  let form ← Reader.uleb
  return { content, form }

end EntryField

/-- The values of an entry by content type. -/
abbrev FieldValues := List (Nat × Value)

namespace FieldValues

def get? (values : FieldValues) (content : Nat) : Option Value :=
  (values.find? fun entry => entry.1 == content).map (·.2)

/-- Give a content type a value, in the place of the one it has. -/
def set (content : Nat) (value : Value) : FieldValues → FieldValues
  | [] => [(content, value)]
  | entry :: rest =>
    if entry.1 = content then (content, value) :: rest else entry :: set content value rest

end FieldValues

/-- A table of entries with the fields that they have. -/
structure EntryTable where
  fields : List EntryField
  entries : List FieldValues
deriving DecidableEq, Repr

namespace EntryTable

/-- The values of an entry; of a repeated content type the last one counts. -/
def readEntry (l : Layout) : List EntryField → FieldValues → Reader Fault FieldValues
  | [], values => pure values
  | field :: rest, values => do
    let form ← Reader.ofExcept (Form.known field.form)
    let value ← form.readRaw l
    readEntry l rest (values.set field.content value)

/-- A table: its fields behind their number, then its entries behind theirs. -/
def read (l : Layout) : Reader Fault EntryTable := do
  let fieldCount ← Reader.unsigned 1
  let fields ← Reader.times fieldCount EntryField.read
  let count ← Reader.uleb
  let entries ← Reader.times count (readEntry l fields [])
  return { fields, entries }

end EntryTable

/-- The text a value of a path stands for if it is an offset of a string section. -/
def pathString (s : Sections) (kind : SectionKind) (value : Value) : Except Fault Value := do
  let data ← s.require kind
  match value with
  | .null => return .null
  | value =>
    match value.toInt? with
    | some offset => return Value.ofString? (← stringAt data offset)
    | none => .error .wrongKind

/-- Replace the values of a content type in all entries. -/
def replaceContent (content : Nat) (f : Value → Except Fault Value) (entries : List FieldValues) :
    Except Fault (List FieldValues) :=
  entries.mapM fun values => do
    return values.set content (← f ((values.get? content).getD .null))

namespace View

/-- Replace the values of a field by what they stand for. Indexes of strings have no base here. -/
def resolveField (v : View) (entries : List FieldValues) (field : EntryField) :
    Except Fault (List FieldValues) :=
  match Form.ofCode? field.form with
  | some .lineStringOffset =>
    replaceContent field.content (pathString v.sections .lineStr) entries
  | some .stringOffset => replaceContent field.content (pathString v.sections .str) entries
  | some .supplementaryStringOffset =>
    match v.supplementary with
    | some other => replaceContent field.content (pathString other .str) entries
    | none => replaceContent field.content (fun value => .ok (.string value.literal)) entries
  | some (.stringIndex _) => .error .undecodable
  | _ => .ok entries

/-- The entries of a table with all values replaced by what they stand for. -/
def resolveTable (v : View) (t : EntryTable) : Except Fault (List FieldValues) :=
  t.fields.foldlM v.resolveField t.entries

end View

/-- The paths of the directories; a directory has to have one. -/
def directoryPaths (entries : List FieldValues) : Except Fault (Option (List Value)) :=
  if entries = [] then .ok none
  else do
    return some (← entries.mapM fun values =>
      match values.get? EntryField.path with
      | some path => .ok path
      | none => .error .missingField)

/-- The files of a table of entries. -/
def entryFiles (entries : List FieldValues) : Option (List LineFile) :=
  if entries = [] then none
  else
    some (entries.map fun values =>
      { name := (values.get? EntryField.path).getD .null
        directory := some ((values.get? EntryField.directoryIndex).getD .null) })

/-- A string that is not empty; an empty one ends a list. -/
def readListed : Reader Fault (Option Bytes) := do
  let name ← Reader.zeroTerminated
  return if name = [] then none else some name

theorem readListed_consumes : Reader.Consumes readListed :=
  .bind (Reader.Consumes.zeroTerminated.mapFault _) fun _ => .pure _

/-- What follows the name of a file before version 5; an empty name stands alone. -/
def readFileFields (name : Bytes) : Reader Fault LineFile :=
  if name = [] then pure { name := .bytes [], directory := none }
  else do
    let directory ← Reader.uleb
    let _modified ← Reader.uleb
    let _length ← Reader.uleb
    return { name := .bytes name, directory := some (.integer directory) }

/-- A file before version 5. -/
def readFile : Reader Fault LineFile := do
  let name ← Reader.zeroTerminated
  readFileFields name

/-- A file of a list; an empty name ends the list. -/
def readListedFile : Reader Fault (Option LineFile) := do
  let file ← readFile
  return if file.directory.isNone then none else some file

theorem readFile_consumes : Reader.Consumes readFile :=
  .bind (Reader.Consumes.zeroTerminated.mapFault _) fun name => by
    unfold readFileFields
    split
    · exact .pure _
    · exact .bind (Reader.Consumes.uleb.mapFault _).within fun _ =>
        .bind (Reader.Consumes.uleb.mapFault _).within fun _ =>
          .bind (Reader.Consumes.uleb.mapFault _).within fun _ => .pure _

theorem readListedFile_consumes : Reader.Consumes readListedFile :=
  .bind readFile_consumes fun _ => .pure _

namespace View

/-- The directories and files of a header. -/
def readTables (v : View) (l : Layout) (version : Nat) :
    Reader Fault (Option (List Value) × Option (List LineFile)) :=
  if version < 5 then do
    let directories ← Reader.collect readListed readListed_consumes
    let files ← Reader.collect readListedFile readListedFile_consumes
    return (some (directories.map .bytes), some files)
  else do
    let directoryTable ← EntryTable.read l
    let fileTable ← EntryTable.read l
    let directoryEntries ← Reader.ofExcept (v.resolveTable directoryTable)
    let fileEntries ← Reader.ofExcept (v.resolveTable fileTable)
    let directories ← Reader.ofExcept (directoryPaths directoryEntries)
    return (directories, entryFiles fileEntries)

def signedByte (n : Nat) : Int := if n < 128 then n else n - 256

/-- The header of a line table. -/
def readLineHeader (v : View) (l : Layout) : Reader Fault LineHeader := do
  let (_, length) ← readInitialLength
  let version ← Reader.unsigned 2
  if 5 ≤ version then
    let _addressSize ← Reader.unsigned 1
    let _segmentSelectorSize ← Reader.unsigned 1
  let _headerLength ← Reader.unsigned l.offsetWidth
  let minimumInstructionLength ← Reader.unsigned 1
  let maximumOperations ← if 4 ≤ version then Reader.unsigned 1 else pure 1
  let _defaultIsStatement ← Reader.unsigned 1
  let lineBase ← Reader.unsigned 1
  let lineRange ← Reader.unsigned 1
  let opcodeBase ← Reader.unsigned 1
  let _opcodeLengths ← Reader.times (opcodeBase - 1) Reader.byte
  let (directories, files) ← v.readTables l version
  return {
    length, version, minimumInstructionLength, maximumOperations
    lineBase := signedByte lineBase
    lineRange, opcodeBase, directories, files }

end View

end WasmSourceMap.Dwarf
