import Mathlib.Data.List.Forall2
import WasmSourceMap.Proofs.Container.Layout
import WasmSourceMap.Proofs.Reader.Rounds

/-!
# Counts that a module claims

Sections say how many imports, functions, segments, symbols and relocations they hold, and nothing
holds these counts, or the sizes of what is skipped, against the end of a section or of the data.
Still no count is worth more than the bytes behind it: every reader that parsing repeats takes some
bytes in each round (`Repeated.takes`), so all its loops end before the bytes are used up, whatever
they are told (`LoopsEnd`), and an accepted module has no more items than it has bytes for
(`Module.CountsFit`).
-/

namespace WasmSourceMap

namespace Container

open Reader (Consumes Within Takes Loops)

variable {data : Bytes} {position next : Nat}

namespace Contents

lemma readLimits_consumes : Consumes readLimits := by
  refine .bind (Consumes.uleb.mapFault _) fun flags => ?_
  refine .bind (Consumes.uleb.within.mapFault _) fun _ => ?_
  split
  · exact .bind (Consumes.uleb.within.mapFault _) fun _ => .pure _
  · exact .pure _

lemma readImportDescription_consumes (kind : Nat) : Consumes (readImportDescription kind) := by
  unfold readImportDescription
  split
  · exact .bind (Consumes.uleb.mapFault _) fun _ => .pure _
  · exact .bind (Consumes.byte.mapFault _) fun _ =>
      .bind readLimits_consumes.within fun _ => .pure _
  · exact .bind readLimits_consumes fun _ => .pure _
  · exact .bind (Consumes.byte.mapFault _) fun _ =>
      .bind (Consumes.byte.within.mapFault _) fun _ => .pure _
  · exact .bind (Consumes.byte.mapFault _) fun _ =>
      .bind (Consumes.uleb.within.mapFault _) fun _ => .pure _
  · exact nofun

/-- Two names, a kind and what follows the kind. -/
lemma readImport_takes : Takes 4 readImport := by
  show Takes (1 + (1 + (1 + 1))) readImport
  exact .bind (Takes.name.mapFault _) fun _ => .bind (Takes.name.mapFault _) fun _ =>
    .bind (Takes.byte.mapFault _) fun kind => .of_consumes (readImportDescription_consumes _)

/-- The size of a body; the body itself may be skipped beyond the end of the data. -/
lemma readFunctionOffset_takes (base : Nat) : Takes 1 (readFunctionOffset base) := by
  intro data position a next h
  obtain ⟨start, p₁, h₁, h⟩ := Reader.bind_done h
  obtain ⟨size, p₂, h₂, h⟩ := Reader.bind_done h
  obtain ⟨body, p₃, h₃, h⟩ := Reader.bind_done h
  obtain ⟨_, p₄, h₄, h⟩ := Reader.bind_done h
  obtain ⟨_, rfl⟩ := Reader.pure_done h
  have := Reader.position_done h₁
  have := Consumes.uleb (Reader.mapFault_done h₂)
  have := Reader.position_done h₃
  have := Reader.seek_done (Reader.mapFault_done h₄)
  omega

lemma readOffsetExpression_consumes : Consumes readOffsetExpression := by
  have operand : ∀ opcode, Within (readOperand opcode) := by
    intro opcode
    unfold readOperand
    split
    · exact Consumes.sleb.within.mapFault _
    split
    · exact .bind (Consumes.uleb.within.mapFault _) fun _ => .pure _
    · exact .pure _
  exact .bind (Consumes.byte.mapFault _) fun opcode => .bind (operand _) fun _ =>
    .bind (Consumes.byte.within.mapFault _) fun _ => .bind (.check _ _) fun _ => .pure _

lemma readPlacement_within (flags : Nat) : Within (readPlacement flags) := by
  unfold readPlacement
  split
  · exact .pure _
  split
  · exact .bind (Consumes.uleb.within.mapFault _) fun _ =>
      .bind readOffsetExpression_consumes.within fun _ => .pure _
  · exact .bind (.pure _) fun _ => .bind readOffsetExpression_consumes.within fun _ => .pure _

/-- The flags and the size; the bytes of the segment may be skipped beyond the end of the data. -/
lemma readSegment_takes : Takes 2 readSegment := by
  intro data position a next h
  obtain ⟨flags, p₁, h₁, h⟩ := Reader.bind_done h
  obtain ⟨place, p₂, h₂, h⟩ := Reader.bind_done h
  obtain ⟨size, p₃, h₃, h⟩ := Reader.bind_done h
  obtain ⟨dataOffset, p₄, h₄, h⟩ := Reader.bind_done h
  obtain ⟨_, p₅, h₅, h⟩ := Reader.bind_done h
  obtain ⟨_, rfl⟩ := Reader.pure_done h
  have := Consumes.uleb (Reader.mapFault_done h₁)
  have := readPlacement_within flags h₂
  have := Consumes.uleb (Reader.mapFault_done h₃)
  have := Reader.position_done h₄
  have := Reader.seek_done (Reader.mapFault_done h₅)
  omega

/-- The id and the size of a section. -/
lemma readSection_takes : Takes 2 readSection := by
  intro data position r next h
  obtain ⟨_, read⟩ := readSection_section h
  obtain ⟨ordered, starts⟩ := Section.read_ordered read
  have ends := (readSection_done h).1
  have inside := readSection_inside h
  have := ordered.header_le_offset
  have := ordered.offset_le_dataOffset
  have := ordered.dataOffset_le_stop
  omega

end Contents

namespace Symbol

lemma readDataPlace_within (s : Symbol) : Within (readDataPlace s) := by
  unfold readDataPlace
  split
  · exact .pure s
  · exact .bind (Consumes.uleb.within.mapFault _) fun _ =>
      .bind (Consumes.uleb.within.mapFault _) fun _ =>
        .bind (Consumes.uleb.within.mapFault _) fun _ => .pure _

lemma readOwnName_within (s : Symbol) : Within (readOwnName s) := by
  unfold readOwnName
  split
  · exact .bind (Within.name.mapFault _) fun _ => .pure _
  · exact .pure s

lemma readBody_takes (s : Symbol) : Takes 1 (readBody s) := by
  unfold readBody
  split
  · exact .bind_within (Takes.name.mapFault _) fun _ => readDataPlace_within _
  · exact .bind_within (Takes.uleb.mapFault _) fun _ => .pure _
  · exact .bind_within (Takes.uleb.mapFault _) fun _ => readOwnName_within _

/-- A kind, flags and what follows them. -/
lemma read_takes : Takes 3 read := by
  show Takes (1 + (1 + 1)) read
  exact .bind (Takes.byte.mapFault _) fun _ => .bind (Takes.uleb.mapFault _) fun _ =>
    readBody_takes _

end Symbol

/-- A kind and a size; the subsection may be left beyond the end of the data, and in front of the
end of its symbols. -/
lemma readSubsection_takes : Takes 2 readSubsection := by
  intro data position symbols next h
  obtain ⟨kind, p₁, h₁, h⟩ := Reader.bind_done h
  obtain ⟨size, p₂, h₂, h⟩ := Reader.bind_done h
  obtain ⟨start, p₃, h₃, h⟩ := Reader.bind_done h
  obtain ⟨_, p₄, _, h⟩ := Reader.bind_done h
  obtain ⟨_, p₅, h₅, h⟩ := Reader.bind_done h
  obtain ⟨_, rfl⟩ := Reader.pure_done h
  have := Reader.byte_done (Reader.mapFault_done h₁)
  have := Consumes.uleb (Reader.mapFault_done h₂)
  have := Reader.position_done h₃
  have := Reader.seek_done (Reader.mapFault_done h₅)
  omega

/-- A code, a place and a symbol, whether there is an addend or not. -/
lemma ListedRelocation.read_takes : Takes 3 ListedRelocation.read := by
  have addend : ∀ code, Within (Relocation.readAddend code) := by
    intro code
    unfold Relocation.readAddend
    split
    · exact Consumes.sleb.within.mapFault _
    · exact .pure _
  show Takes (1 + (1 + 1)) ListedRelocation.read
  exact .bind (Takes.byte.mapFault _) fun code => .bind (Takes.uleb.mapFault _) fun _ =>
    .bind_within (Takes.uleb.mapFault _) fun _ => .bind (addend _) fun _ => .pure _

lemma Relocation.read_takes (sectionName : String) (nameSize : Nat) :
    Takes 3 (Relocation.read sectionName nameSize) := by
  intro data position r next h
  obtain ⟨l, listed, _⟩ := read_listed h
  exact ListedRelocation.read_takes listed

/-- The readers that parsing repeats, with the least number of bytes that each takes: sections,
imports, function bodies, data segments, subsections of the linking section, symbols and
relocations. -/
inductive Repeated : ∀ {α : Type}, Nat → Reader Fault α → Prop where
  | sections : Repeated 2 Contents.readSection
  | imports : Repeated 4 Contents.readImport
  | functions (base : Nat) : Repeated 1 (Contents.readFunctionOffset base)
  | segments : Repeated 2 Contents.readSegment
  | subsections : Repeated 2 readSubsection
  | symbols : Repeated 3 Symbol.read
  | relocations (sectionName : String) (nameSize : Nat) :
    Repeated 3 (Relocation.read sectionName nameSize)

lemma Repeated.takes {α : Type} {least : Nat} {r : Reader Fault α} (h : Repeated least r) :
    Takes least r := by
  cases h with
  | sections => exact Contents.readSection_takes
  | imports => exact Contents.readImport_takes
  | functions base => exact Contents.readFunctionOffset_takes base
  | segments => exact Contents.readSegment_takes
  | subsections => exact readSubsection_takes
  | symbols => exact Symbol.read_takes
  | relocations sectionName nameSize => exact Relocation.read_takes sectionName nameSize

/-- All loops of parsing end before the bytes are used up: numbers, which are loops over bytes, and
loops over other readers, whatever count they are told and whatever position they go up to. -/
structure LoopsEnd (data : Bytes) : Prop where
  unsigned (position : Nat) : ∃ rounds bytes, Loops Reader.byte data position rounds bytes ∧
    (Reader.uleb data position).ending = bytes.ending ∧ rounds ≤ data.length - position
  signed (position : Nat) : ∃ rounds bytes, Loops Reader.byte data position rounds bytes ∧
    (Reader.sleb data position).ending = bytes.ending ∧ rounds ≤ data.length - position
  counted {α : Type} {least : Nat} {r : Reader Fault α} (repeated : Repeated least r)
    (count position : Nat) : ∃ rounds, Loops r data position rounds
      (Reader.times count r data position) ∧ rounds * least ≤ data.length - position
  upTo {α : Type} {least : Nat} {r : Reader Fault α} (repeated : Repeated least r)
    (stop : Nat) (advances : Reader.Advances r) (position : Nat) : ∃ rounds, Loops r data position
      rounds (Reader.repeatUntil stop r advances data position) ∧
        rounds * least ≤ data.length - position

lemma loopsEnd (data : Bytes) : LoopsEnd data where
  unsigned position := by
    obtain ⟨rounds, bytes, loops, ends⟩ := Reader.uleb_unrolls.loops data position
    exact ⟨rounds, bytes, loops, ends, Nat.mul_one rounds ▸ loops.le Takes.byte⟩
  signed position := by
    obtain ⟨rounds, bytes, loops, ends⟩ := Reader.sleb_unrolls.loops data position
    exact ⟨rounds, bytes, loops, ends, Nat.mul_one rounds ▸ loops.le Takes.byte⟩
  counted repeated count position := by
    obtain ⟨rounds, loops⟩ := Reader.times_loops _ data count position
    exact ⟨rounds, loops, loops.le repeated.takes⟩
  upTo repeated stop advances position := by
    obtain ⟨rounds, loops⟩ := Reader.repeatUntil_loops _ data stop advances position
    exact ⟨rounds, loops, loops.le repeated.takes⟩

/-- The section of imports, of code or of data, which begin with a count. -/
def Section.IsCounted (s : Section) : Prop :=
  s.id = importId ∨ s.id = codeId ∨ s.id = dataId

/-- What a section says about functions and data is no more than the bytes from its content on. -/
structure Section.CountsFit (data : Bytes) (s : Section) (c : Contents) : Prop where
  read : ∃ next, Contents.readBody s data s.offset = .done c next
  claimed : s.IsCounted →
    ∃ count next, Reader.uleb data s.offset = .done count next ∧ count ≤ data.length - s.offset
  importedFunctions : c.importedFunctions ≤ data.length - s.offset
  functionOffsets : c.functionOffsets.length ≤ data.length - s.offset
  segments : c.segments.length ≤ data.length - s.offset

namespace Contents

lemma readImports_le {n : Nat} (h : readImports data position = .done n next) :
    ∃ count middle, Reader.uleb data position = .done count middle ∧
      count ≤ data.length - position ∧ n ≤ count := by
  obtain ⟨count, middle, counted, h⟩ := Reader.bind_done h
  obtain ⟨imports, last, all, h⟩ := Reader.bind_done h
  obtain ⟨rfl, _⟩ := Reader.pure_done h
  have counted := Reader.mapFault_done counted
  refine ⟨count, middle, counted, Reader.count_le_of_times readImport_takes counted all, ?_⟩
  rw [← Reader.length_of_times all]
  exact List.count_le_length

/-- The bodies or the segments behind a count. -/
lemma counted_le {α : Type} {least : Nat} {r : Reader Fault α} (takes : Takes (least + 1) r)
    {items : List α}
    (h : (Reader.mapFault .unreadable Reader.uleb >>= fun count => Reader.times count r) data
      position = .done items next) :
    ∃ count middle, Reader.uleb data position = .done count middle ∧
      count ≤ data.length - position ∧ items.length = count := by
  obtain ⟨count, middle, counted, all⟩ := Reader.bind_done h
  have counted := Reader.mapFault_done counted
  exact ⟨count, middle, counted, Reader.count_le_of_times takes counted all,
    Reader.length_of_times all⟩

lemma readBody_countsFit {s : Section} {c : Contents}
    (h : readBody s data s.offset = .done c next) : s.CountsFit data c := by
  have read := h
  unfold readBody at h
  split at h
  · obtain ⟨n, last, imports, h⟩ := Reader.bind_done h
    obtain ⟨rfl, _⟩ := Reader.pure_done h
    obtain ⟨count, middle, counted, room, fewer⟩ := readImports_le imports
    exact ⟨⟨next, read⟩, fun _ => ⟨count, middle, counted, room⟩, Nat.le_trans fewer room,
      Nat.zero_le _, Nat.zero_le _⟩
  split at h
  · obtain ⟨offsets, last, bodies, h⟩ := Reader.bind_done h
    obtain ⟨rfl, _⟩ := Reader.pure_done h
    obtain ⟨count, middle, counted, room, rfl⟩ :=
      counted_le (readFunctionOffset_takes s.offset) bodies
    exact ⟨⟨next, read⟩, fun _ => ⟨_, middle, counted, room⟩, Nat.zero_le _, room, Nat.zero_le _⟩
  split at h
  · obtain ⟨segments, last, all, h⟩ := Reader.bind_done h
    obtain ⟨rfl, _⟩ := Reader.pure_done h
    obtain ⟨count, middle, counted, room, rfl⟩ := counted_le readSegment_takes all
    exact ⟨⟨next, read⟩, fun _ => ⟨_, middle, counted, room⟩, Nat.zero_le _, Nat.zero_le _, room⟩
  · rename_i notImport notCode notData
    obtain ⟨rfl, _⟩ := Reader.pure_done h
    refine ⟨⟨next, read⟩, fun counted => ?_, Nat.zero_le _, Nat.zero_le _, Nat.zero_le _⟩
    rcases counted with isImport | isCode | isData
    · exact absurd isImport notImport
    · exact absurd isCode notCode
    · exact absurd isData notData

lemma readSection_countsFit {r : Section × Contents}
    (h : readSection data position = .done r next) : r.1.CountsFit data r.2 := by
  obtain ⟨s, p₁, _, h⟩ := Reader.bind_done h
  obtain ⟨_, p₂, h₂, h⟩ := Reader.bind_done h
  obtain ⟨contents, p₃, h₃, h⟩ := Reader.bind_done h
  obtain ⟨_, p₄, _, h⟩ := Reader.bind_done h
  obtain ⟨rfl, _⟩ := Reader.pure_done h
  obtain rfl := Reader.seek_done (Reader.mapFault_done h₂)
  exact readBody_countsFit h₃

end Contents

lemma readSubsection_symbols {symbols : List Symbol}
    (h : readSubsection data position = .done (some symbols) next) :
    symbols.length ≤ data.length - position := by
  obtain ⟨kind, p₁, h₁, h⟩ := Reader.bind_done h
  obtain ⟨size, p₂, h₂, h⟩ := Reader.bind_done h
  obtain ⟨start, p₃, h₃, h⟩ := Reader.bind_done h
  obtain ⟨found, p₄, h₄, h⟩ := Reader.bind_done h
  obtain ⟨_, p₅, _, h⟩ := Reader.bind_done h
  obtain ⟨rfl, _⟩ := Reader.pure_done h
  have := Reader.byte_done (Reader.mapFault_done h₁)
  have := Consumes.uleb (Reader.mapFault_done h₂)
  have := Reader.position_done h₃
  unfold readSymbolTable at h₄
  split at h₄
  · obtain ⟨count, middle, counted, h₄⟩ := Reader.bind_done h₄
    obtain ⟨all, last, table, h₄⟩ := Reader.bind_done h₄
    obtain ⟨same, _⟩ := Reader.pure_done h₄
    cases same
    have := Reader.count_le_of_times Symbol.read_takes (Reader.mapFault_done counted) table
    rw [Reader.length_of_times table]
    omega
  · cases (Reader.pure_done h₄).1

/-- The last symbol table of the linking section has no more symbols than there are bytes from its
payload on. -/
lemma readLinking_symbols {s : Section} {symbols : List Symbol}
    (h : readLinking s data position = .done symbols next) :
    symbols.length ≤ data.length - s.dataOffset := by
  obtain ⟨_, p₁, h₁, h⟩ := Reader.bind_done h
  obtain ⟨version, p₂, h₂, h⟩ := Reader.bind_done h
  obtain ⟨_, p₃, h₃, h⟩ := Reader.bind_done h
  obtain ⟨tables, p₄, h₄, h⟩ := Reader.bind_done h
  obtain ⟨rfl, _⟩ := Reader.pure_done h
  have start := Reader.seek_done (Reader.mapFault_done h₁)
  have version := Consumes.uleb (Reader.mapFault_done h₂)
  have same := (Reader.check_done h₃).2
  cases last : (tables.filterMap id).getLast? with
  | none => exact Nat.zero_le _
  | some table =>
    obtain ⟨found, mem, rfl⟩ := List.mem_filterMap.1 (List.mem_of_getLast? last)
    obtain ⟨rounds, loops⟩ := Reader.repeatUntil_loops _ data s.stop readSubsection_advances p₃
    obtain ⟨p, q, behind, read⟩ := loops.read_of_mem readSubsection_takes h₄ mem
    have := readSubsection_symbols read
    show table.length ≤ _
    omega

/-- A relocation section lists no more relocations than there are bytes from its payload on. -/
lemma RelocationSection.Listed.entries_le {sections : List Section} {s : Section}
    {r : RelocationSection} (listed : Listed sections data s r) :
    r.entries.length ≤ data.length - s.dataOffset := by
  obtain ⟨target, entries, last, _, read, shifted, _⟩ := listed
  obtain ⟨index, p₁, h₁, h⟩ := Reader.bind_done read
  obtain ⟨count, p₂, h₂, h⟩ := Reader.bind_done h
  obtain ⟨all, p₃, h₃, h⟩ := Reader.bind_done h
  obtain ⟨same, _⟩ := Reader.pure_done h
  cases same
  have := Consumes.uleb (Reader.mapFault_done h₁)
  have := Reader.count_le_of_times ListedRelocation.read_takes (Reader.mapFault_done h₂) h₃
  rw [shifted, List.length_map, Reader.length_of_times h₃]
  omega

namespace Module

/-- A module holds no more than it has bytes for: two bytes for a section, and for the items of a
section those from its content on. -/
structure CountsFit (m : Module) (data : Bytes) : Prop where
  sections : m.sections.length ≤ (data.length - 8) / 2
  contents : ∃ parts, m.contents = Contents.concat parts ∧
    List.Forall₂ (Section.CountsFit data) m.sections parts
  symbols : ∀ s, m.sectionNamed "linking" = some s → m.symbols.length ≤ data.length - s.offset
  noSymbols : m.sectionNamed "linking" = none → m.symbols = []
  relocations : List.Forall₂ (fun s r => r.entries.length ≤ data.length - s.offset)
    (m.sections.filter RelocationSection.isRelocation) m.relocations

variable {m : Module}

lemma sections_le_of_parse (parsed : parse data = .ok m) :
    m.sections.length ≤ (data.length - 8) / 2 := by
  obtain ⟨parts, p₁, p₂, p₃, p₄, h₁, h₂, _, _, _, sections, _⟩ := parse_ok parsed
  obtain ⟨rounds, loops⟩ := Reader.repeatUntil_loops _ data data.length
    Contents.readSection_advances p₁
  have each := loops.length h₂
  have room := loops.le Contents.readSection_takes
  rw [readPreamble_done h₁, ← each] at room
  rw [sections, List.length_map]
  omega

lemma contents_of_parse (parsed : parse data = .ok m) :
    ∃ parts, m.contents = Contents.concat parts ∧
      List.Forall₂ (Section.CountsFit data) m.sections parts := by
  obtain ⟨parts, p₁, p₂, p₃, p₄, _, h₂, _, _, _, sections, contents⟩ := parse_ok parsed
  refine ⟨parts.map Prod.snd, contents, ?_⟩
  rw [sections, List.forall₂_map_left_iff, List.forall₂_map_right_iff, List.forall₂_same]
  intro r mem
  obtain ⟨p, q, read⟩ := Reader.read_of_mem_repeatUntilAt h₂ mem
  exact Contents.readSection_countsFit read

lemma symbols_of_parse (parsed : parse data = .ok m) :
    (∀ s, m.sectionNamed "linking" = some s → m.symbols.length ≤ data.length - s.offset) ∧
      (m.sectionNamed "linking" = none → m.symbols = []) := by
  obtain ⟨parts, p₁, p₂, p₃, p₄, _, _, h₃, _, _, sections, _⟩ := parse_ok parsed
  rw [← sections] at h₃
  unfold readSymbols at h₃
  constructor
  · intro s found
    have ordered := ordered_of_parse parsed s (List.mem_of_find?_eq_some found)
    have behind := ordered.offset_le_dataOffset
    unfold sectionNamed at found
    rw [found] at h₃
    have := readLinking_symbols h₃
    omega
  · intro none
    unfold sectionNamed at none
    rw [none] at h₃
    exact (Reader.pure_done h₃).1.symm

lemma relocations_le_of_parse (parsed : parse data = .ok m) :
    List.Forall₂ (fun s r => r.entries.length ≤ data.length - s.offset)
      (m.sections.filter RelocationSection.isRelocation) m.relocations := by
  have ordered : ∀ s ∈ m.sections.filter RelocationSection.isRelocation, s.Ordered :=
    fun s mem => ordered_of_parse parsed s (List.mem_of_mem_filter mem)
  have listed := listed_of_parse parsed
  rw [data_of_parse parsed] at listed
  refine ((List.forall₂_and_left _ _).2 ⟨ordered, listed⟩).imp ?_
  rintro s r ⟨order, lists⟩
  have := order.offset_le_dataOffset
  have := lists.entries_le
  omega

/-- Whatever counts and sizes some bytes claim, parsing them ends, as none of its loops has more
rounds than there are bytes left for, and a module that is accepted has no more sections, imports,
functions, segments, symbols and relocations than its bytes allow. -/
theorem parse_bounded (data : Bytes) :
    LoopsEnd data ∧ ∀ m, parse data = .ok m → m.CountsFit data := by
  refine ⟨loopsEnd data, fun m parsed => ?_⟩
  obtain ⟨symbols, noSymbols⟩ := symbols_of_parse parsed
  exact ⟨sections_le_of_parse parsed, contents_of_parse parsed, symbols, noSymbols,
    relocations_le_of_parse parsed⟩

/-- A code section of one byte, which says that there are two functions, and a memory section, from
which both are read: the second would end far behind the data. -/
def skipsBehind : Bytes :=
  [0x00, 0x61, 0x73, 0x6d, 0x01, 0x00, 0x00, 0x00,
    0x0a, 0x01, 0x02,
    0x05, 0x06, 0x00, 0x00, 0x00, 0x00, 0x7f, 0x00]

/-- Both functions are recorded, and no loop over function bodies has more than the eight rounds
that there are bytes for, however many are claimed. -/
theorem parse_bounded_skipsBehind :
    (∃ m, parse skipsBehind = .ok m ∧ m.contents.functionOffsets = [1, 7] ∧
      m.CountsFit skipsBehind) ∧
    ∃ rounds ≤ 8, Loops (Contents.readFunctionOffset 10) skipsBehind 11 rounds
      (Reader.times 1000000000000 (Contents.readFunctionOffset 10) skipsBehind 11) := by
  have accepted : (parse skipsBehind >>= fun m => pure m.contents.functionOffsets) =
      .ok [1, 7] := by
    decide +kernel
  obtain ⟨m, parsed, facts⟩ := Except.bind_ok accepted
  obtain ⟨loops, fits⟩ := parse_bounded skipsBehind
  obtain ⟨rounds, loop, room⟩ := loops.counted (.functions 10) 1000000000000 11
  exact ⟨⟨m, parsed, Except.ok.inj facts, fits m parsed⟩, rounds, Nat.mul_one rounds ▸ room, loop⟩

end Module

end Container

end WasmSourceMap
