import WasmSourceMap.Container.Symbol
import WasmSourceMap.Proofs.Leb128.Numeral

/-!
# Symbol tables as they are written

The written forms of symbols and of the linking section, which is a run of subsections. Which parts
a symbol has depends on what it names and on two of its flags, and what it does not have it is read
without (`Symbol.reads`). A subsection that holds no symbols may hold any bytes
(`Subsection.reads`), and the symbols of the section are those of its last table (`Linking.reads`).
-/

namespace WasmSourceMap.Container.Written

/-- What has an index of its own and may have a name. -/
inductive Indexed where
  | function
  | global
  | tag
  | table
deriving DecidableEq, Repr

def Indexed.kind : Indexed → SymbolKind
  | function => .function
  | global => .global
  | tag => .tag
  | table => .table

/-- The place of a data symbol. -/
structure DataPlace where
  segment : Numeral
  offset : Numeral
  size : Numeral

def DataPlace.bytes (p : DataPlace) : Bytes := p.segment.bytes ++ (p.offset.bytes ++ p.size.bytes)

/-- What a symbol names, with the parts that are written of it. -/
inductive Entity where
  | data (name : Block) (place : Option DataPlace)
  | ofSection (index : Numeral)
  | indexed (what : Indexed) (index : Numeral) (name : Option Block)

namespace Entity

def kind : Entity → SymbolKind
  | data .. => .data
  | ofSection _ => .section
  | indexed what .. => what.kind

def bytes : Entity → Bytes
  | data name place => name.bytes ++ (place.map DataPlace.bytes).getD []
  | ofSection index => index.bytes
  | indexed _ index name => index.bytes ++ (name.map Block.bytes).getD []

/-- The parts that are written are those that the flags ask for: a data symbol has a place if it is
defined, and what has an index has a name if it is defined or has an explicit name. -/
def FitsFlags (flags : Nat) : Entity → Prop
  | data _ place => place.isSome = !Symbol.hasFlag 0x10 flags
  | ofSection _ => True
  | indexed _ _ name => name.isSome = (!Symbol.hasFlag 0x10 flags || Symbol.hasFlag 0x40 flags)

/-- The symbol; a part that is not written is empty or zero. -/
def symbol (flags : Nat) : Entity → Container.Symbol
  | data name place =>
    { kind := .data, flags, name := name.text
      index := (place.map (·.segment.value)).getD 0
      offset := (place.map (·.offset.value)).getD 0
      size := (place.map (·.size.value)).getD 0 }
  | ofSection index => { kind := .section, flags, index := index.value }
  | indexed what index name =>
    { kind := what.kind, flags, index := index.value, name := (name.map Block.text).getD "" }

end Entity

/-- A symbol behind the flags that say which parts it has. -/
structure Symbol where
  flags : Numeral
  entity : Entity
  fits : entity.FitsFlags flags.value

namespace Symbol

/-- The byte of the kind, the flags and the parts. -/
def bytes (s : Symbol) : Bytes :=
  UInt8.ofNat s.entity.kind.code :: (s.flags.bytes ++ s.entity.bytes)

def symbol (s : Symbol) : Container.Symbol := s.entity.symbol s.flags.value

lemma ofCode_kind (e : Entity) : SymbolKind.ofCode (UInt8.ofNat e.kind.code).toNat = e.kind := by
  cases e with
  | data => rfl
  | ofSection => rfl
  | indexed what => cases what <;> rfl

/-- A data symbol has a place if it is defined. -/
lemma readDataPlace_reads (t : Container.Symbol) {place : Option DataPlace}
    (fits : place.isSome = !t.isUndefined) (start : Nat) :
    t.readDataPlace.Reads start ((place.map DataPlace.bytes).getD []) { t with
      index := (place.map (·.segment.value)).getD t.index
      offset := (place.map (·.offset.value)).getD t.offset
      size := (place.map (·.size.value)).getD t.size } := by
  have undefined : t.isUndefined = !place.isSome := by rw [fits, Bool.not_not]
  unfold Container.Symbol.readDataPlace
  rw [undefined]
  cases place with
  | none => exact .pure t
  | some place =>
    refine .bind (place.segment.reads start).mapFault ?_
    refine .bind (place.offset.reads _).mapFault ?_
    exact .bind_pure (place.size.reads _).mapFault _

/-- What has an index has a name if it is defined or has an explicit name. -/
lemma readOwnName_reads (t : Container.Symbol) {name : Option Block}
    (fits : name.isSome = (!t.isUndefined || t.hasExplicitName)) (start : Nat) :
    t.readOwnName.Reads start ((name.map Block.bytes).getD [])
      { t with name := (name.map Block.text).getD t.name } := by
  unfold Container.Symbol.readOwnName
  rw [← fits]
  cases name with
  | none => exact .pure t
  | some name => exact .bind_pure (name.reads start).mapFault _

lemma reads (s : Symbol) (start : Nat) : Container.Symbol.read.Reads start s.bytes s.symbol := by
  obtain ⟨flags, entity, fits⟩ := s
  refine .bind (Reader.Reads.byte _).mapFault (.bind (flags.reads _).mapFault ?_)
  rw [ofCode_kind]
  cases entity with
  | data name place =>
    refine .bind (name.reads _).mapFault ?_
    refine readDataPlace_reads _ ?_ _
    exact fits
  | ofSection index => exact .bind_pure (index.reads _).mapFault _
  | indexed what index name =>
    cases what <;>
    · refine .bind (index.reads _).mapFault ?_
      refine readOwnName_reads _ ?_ _
      exact fits

end Symbol

/-- A subsection of the linking section: a symbol table, or anything else under another code. -/
inductive Subsection where
  | symbols (size : Numeral) (table : Counted Symbol)
    (counts : size.value = (table.bytes Symbol.bytes).length)
  | other (code : UInt8) (block : Block) (noSymbols : code.toNat ≠ symbolTableCode)

namespace Subsection

/-- A symbol table behind the shortest form of its length. -/
def ofTable (table : Counted Symbol) : Subsection :=
  symbols (.ofNat (table.bytes Symbol.bytes).length) table rfl

def bytes : Subsection → Bytes
  | symbols size table _ => UInt8.ofNat symbolTableCode :: (size.bytes ++ table.bytes Symbol.bytes)
  | other code block _ => code :: block.bytes

def table? : Subsection → Option (List Symbol)
  | symbols _ table _ => some table.items
  | other .. => none

lemma readSymbolTable_reads (table : Counted Symbol) (start : Nat) :
    (readSymbolTable symbolTableCode).Reads start (table.bytes Symbol.bytes)
      (some (table.items.map Symbol.symbol)) := by
  refine .bind (table.count.reads start).mapFault ?_
  rw [table.counts, ← Reader.layOut_const Symbol.symbol]
  exact .bind_pure (.times (fun start s => s.reads start) _ table.items) _

lemma reads (s : Subsection) (start : Nat) :
    readSubsection.Reads start s.bytes (s.table?.map (·.map Symbol.symbol)) := by
  cases s with
  | symbols size table counts =>
    refine .bind (Reader.Reads.byte _).mapFault (.bind (size.reads _).mapFault ?_)
    refine .bind_empty .position (.bind_done (readSymbolTable_reads table _) ?_)
    rw [counts]
    exact .bind_pure (Reader.Reads.skip []).mapFault _
  | other code block noSymbols =>
    -- Nothing of it is read, so its bytes are skipped by their number alone.
    refine .bind (Reader.Reads.byte code).mapFault (.bind (block.size.reads _).mapFault ?_)
    refine .bind_empty .position ?_
    rw [block.counts, readSymbolTable, if_neg noSymbols]
    exact .bind_empty (.pure none) (.bind_pure (Reader.Reads.skip block.content).mapFault _)

end Subsection

/-- The linking section behind its name: the version and the subsections. -/
structure Linking where
  version : Numeral
  subsections : List Subsection
  current : version.value = linkingVersion

namespace Linking

def bytes (l : Linking) : Bytes := l.version.bytes ++ l.subsections.flatMap Subsection.bytes

/-- Subsections behind the shortest form of the version. -/
def ofSubsections (subsections : List Subsection) : Linking where
  version := .ofNat linkingVersion
  subsections := subsections
  current := rfl

/-- The symbols of the last table. -/
def symbols (l : Linking) : List Symbol :=
  ((l.subsections.filterMap Subsection.table?).getLast?).getD []

lemma symbols_of_tables (l : Linking) :
    (((l.subsections.map fun s => s.table?.map (·.map Symbol.symbol)).filterMap
      id).getLast?).getD [] = l.symbols.map Symbol.symbol := by
  have tables : (l.subsections.map fun s => s.table?.map (·.map Symbol.symbol)).filterMap id =
      (l.subsections.filterMap Subsection.table?).map (·.map Symbol.symbol) := by
    rw [List.filterMap_map, List.map_filterMap]
    rfl
  rw [tables, List.getLast?_map, symbols]
  cases (l.subsections.filterMap Subsection.table?).getLast? <;> rfl

/-- The symbols are read from wherever the payload of the section lies. -/
lemma readLinking_of_drop (l : Linking) {s : Container.Section} {data rest : Bytes}
    (inside : s.dataOffset ≤ data.length) (here : data.drop s.dataOffset = l.bytes ++ rest)
    (ends : s.stop = s.dataOffset + l.bytes.length) (position : Nat) :
    readLinking s data position = .done (l.symbols.map Symbol.symbol) s.stop := by
  have stop : s.stop = s.dataOffset + l.version.bytes.length +
      (l.subsections.flatMap Subsection.bytes).length := by
    rw [ends, bytes, List.length_append, Nat.add_assoc]
  have tail : Reader.Reads (do
      let version ← Reader.uleb
      Reader.check (version = linkingVersion) (.badLinkingVersion version)
      let tables ← Reader.repeatUntil s.stop readSubsection readSubsection_advances
      return ((tables.filterMap id).getLast?).getD [] : Reader Fault (List Container.Symbol))
      s.dataOffset l.bytes (l.symbols.map Symbol.symbol) := by
    refine .bind (l.version.reads _).mapFault ?_
    refine .bind_empty (.check (decide_eq_true l.current) _) ?_
    rw [← l.symbols_of_tables, ← Reader.layOut_const, stop]
    exact .bind_pure (.repeatUntil (fun start s => s.reads start) _ _ _) _
  have there := Reader.mapFault_of_done (f := Fault.unreadable) (Reader.seek_of_le inside position)
  rw [ends]
  exact (Reader.bind_of_done there).trans (tail inside here)

end Linking

end WasmSourceMap.Container.Written
