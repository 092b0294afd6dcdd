import WasmSourceMap.Proofs.Container.Layout
import WasmSourceMap.Proofs.Container.Written.Contents
import WasmSourceMap.Proofs.Container.Written.Symbols

/-!
# Modules as they are written

A module is written as its preamble and its sections, one after the other. Every list of sections is
read back section by section, each with its contents (`readSections_write`), and so the bytes are a
module if the first linking section, if there is one, holds symbols and no section is named as one
of relocations (`parse_write`). With sections of relocations the bytes may be refused; if they are a
module, its sections, contents and symbols are the same (`of_parse_write`).
-/

namespace WasmSourceMap.Container

namespace Written

open Reader (layOut)

/-- The content of a section that is no custom section. -/
inductive Content where
  | imports (table : Counted Import)
  | code (bodies : Counted Block)
  | data (segments : Counted Segment)
  | other (id : UInt8) (payload : Bytes)
    (unknown : id.toNat ∉ [Section.customId, Section.importId, Section.codeId, Section.dataId])

namespace Content

def id : Content → UInt8
  | imports _ => UInt8.ofNat Section.importId
  | code _ => UInt8.ofNat Section.codeId
  | data _ => UInt8.ofNat Section.dataId
  | other id _ _ => id

def bytes : Content → Bytes
  | imports table => table.bytes Import.bytes
  | code bodies => bodies.bytes Block.bytes
  | data segments => segments.bytes Segment.bytes
  | other _ payload _ => payload

/-- What the content says about functions and data if it begins at `start`. -/
def contents (start : Nat) : Content → Contents
  | imports table => { importedFunctions := table.items.countP Import.isFunction }
  | code bodies => { functionOffsets := bodyStarts bodies.count.bytes.length bodies.items }
  | data segments =>
    { segments := layOut Segment.bytes Segment.placed (start + segments.count.bytes.length)
        segments.items }
  | other .. => {}

lemma id_ne_customId (c : Content) : c.id.toNat ≠ Section.customId := by
  cases c with
  | imports =>
    show (UInt8.ofNat Section.importId).toNat ≠ _
    decide
  | code =>
    show (UInt8.ofNat Section.codeId).toNat ≠ _
    decide
  | data =>
    show (UInt8.ofNat Section.dataId).toNat ≠ _
    decide
  | other id payload unknown => exact fun e => unknown (List.mem_cons.2 (.inl e))

/-- The content is read as what it says; a content of another kind is not read at all. -/
lemma readBody_done (c : Content) {s : Container.Section} (same : s.id = c.id.toNat)
    {data rest : Bytes} (inside : s.offset ≤ data.length)
    (here : data.drop s.offset = c.bytes ++ rest) :
    ∃ next, Contents.readBody s data s.offset = .done (c.contents s.offset) next := by
  unfold Contents.readBody
  rw [same]
  cases c with
  | imports table =>
    exact ⟨_, Reader.Reads.bind_pure (readImports_reads table s.offset) _ inside here⟩
  | code bodies =>
    exact ⟨_, Reader.Reads.bind_pure (readFunctionOffsets_reads bodies s.offset) _ inside here⟩
  | data segments =>
    have all := segments.reads (fun start s => s.reads start) Fault.unreadable s.offset
    exact ⟨_, Reader.Reads.bind_pure all _ inside here⟩
  | other id payload unknown =>
    simp only [List.mem_cons, List.not_mem_nil, or_false, not_or] at unknown
    obtain ⟨_, notImports, notCode, notData⟩ := unknown
    rw [Content.id, if_neg notImports, if_neg notCode, if_neg notData]
    exact ⟨_, rfl⟩

end Content

/-- A section of a module. -/
inductive Section where
  | custom (c : CustomSection)
  | plain (size : Numeral) (content : Content) (counts : size.value = content.bytes.length)

namespace Section

/-- A section behind the shortest form of the length of its content. -/
def ofContent (content : Content) : Section := plain (.ofNat content.bytes.length) content rfl

def bytes : Section → Bytes
  | custom c => c.bytes
  | plain size content _ => content.id :: (size.bytes ++ content.bytes)

/-- Where the section lies if it begins at `start`. -/
def placed (start : Nat) : Section → Container.Section
  | custom c => c.placed start
  | plain size content _ =>
    { id := content.id.toNat
      headerOffset := start
      offset := start + 1 + size.bytes.length
      size := size.value
      name := ""
      dataOffset := start + 1 + size.bytes.length }

def contents (start : Nat) : Section → Contents
  | custom _ => {}
  | plain size content _ => content.contents (start + 1 + size.bytes.length)

/-- What follows the length, and the name of a custom section. -/
def payload : Section → Bytes
  | custom c => c.payload
  | plain _ content _ => content.bytes

def isNamed (name : String) : Section → Bool
  | custom c => c.name == name
  | plain .. => false

def isRelocation : Section → Bool
  | custom c => relocationMark.toList.isPrefixOf c.name.toList
  | plain .. => false

lemma isNamed_placed (name : String) (start : Nat) (s : Section) :
    (s.placed start).isNamed name = s.isNamed name := by
  cases s with
  | custom c => rfl
  | plain size content counts =>
    exact Bool.and_eq_false_iff.2 (.inl (beq_false_of_ne content.id_ne_customId))

lemma isRelocation_placed (start : Nat) (s : Section) :
    RelocationSection.isRelocation (s.placed start) = s.isRelocation := by
  cases s with
  | custom c => rfl
  | plain size content counts =>
    exact Bool.and_eq_false_iff.2 (.inl (beq_false_of_ne content.id_ne_customId))

/-- The linking section is not one of relocations. -/
lemma not_isRelocation_of_linking {c : CustomSection} (named : c.name = "linking") :
    (custom c).isRelocation = false := by
  show relocationMark.toList.isPrefixOf c.name.toList = false
  rw [named]
  rfl

lemma stop_placed (start : Nat) (s : Section) : (s.placed start).stop = start + s.bytes.length := by
  cases s with
  | custom c => exact c.stop_placed start
  | plain size content counts =>
    show start + 1 + size.bytes.length + size.value = _
    rw [counts, bytes, List.length_cons, List.length_append]
    omega

lemma read_plain (size : Numeral) (content : Content) (counts : size.value = content.bytes.length)
    (start : Nat) :
    Container.Section.read.Reads start (plain size content counts).bytes
      ((plain size content counts).placed start) := by
  have header : Container.Section.readHeader.Reads start (content.id :: size.bytes)
      ((plain size content counts).placed start) := by
    refine .bind_empty .position (.bind (Reader.Reads.byte content.id).mapFault ?_)
    exact .bind_done (size.reads _).mapFault (.bind_empty .position (.pure _))
  have behind : ((plain size content counts).placed start).stop =
      start + (content.id :: size.bytes).length + content.bytes.length := by
    rw [stop_placed, bytes, List.length_cons, List.length_cons, List.length_append]
    omega
  have nameless : Container.Section.readName ((plain size content counts).placed start) =
      pure ((plain size content counts).placed start) := if_neg content.id_ne_customId
  refine .bind header (.demand (Nat.le_of_eq behind) ?_)
  rw [nameless, behind]
  exact .bind_empty (.pure _) (.bind_pure (Reader.Reads.skip content.bytes).mapFault _)

/-- The content of a section lies behind its length. -/
lemma drop_content {size : Numeral} {content : Content} {counts : size.value = content.bytes.length}
    {data rest : Bytes} {start : Nat} (inside : start ≤ data.length)
    (here : data.drop start = (plain size content counts).bytes ++ rest) :
    start + 1 + size.bytes.length ≤ data.length ∧
      data.drop (start + 1 + size.bytes.length) = content.bytes ++ rest := by
  have split : data.drop start = (content.id :: size.bytes) ++ (content.bytes ++ rest) := by
    rw [here, bytes, List.cons_append, List.cons_append, List.append_assoc]
  have offset : start + (content.id :: size.bytes).length = start + 1 + size.bytes.length := by
    rw [List.length_cons]
    omega
  rw [← offset]
  exact ⟨Reader.add_le_of_drop inside split, Reader.drop_add split⟩

/-- A section is read with its place and its contents, and left at its end. -/
lemma reads (s : Section) (start : Nat) :
    Contents.readSection.Reads start s.bytes (s.placed start, s.contents start) := by
  cases s with
  | custom c => exact c.readSection_reads start
  | plain size content counts =>
    refine Contents.readSection_reads (read_plain size content counts start)
      (stop_placed start _) fun data rest inside here => ?_
    obtain ⟨insideContent, atContent⟩ := drop_content inside here
    exact content.readBody_done rfl insideContent atContent

end Section

/-- The magic number and the version. -/
def preamble : Bytes := [0x00, 0x61, 0x73, 0x6d, 0x01, 0x00, 0x00, 0x00]

/-- A module with some sections. -/
def write (sections : List Section) : Bytes := preamble ++ sections.flatMap Section.bytes

/-- The sections with their places. -/
def placedAll (sections : List Section) : List Container.Section :=
  layOut Section.bytes Section.placed 8 sections

/-- What the sections say about functions and data. -/
def contentsAll (sections : List Section) : List Contents :=
  layOut Section.bytes Section.contents 8 sections

lemma readPreamble_preamble (rest : Bytes) :
    Module.readPreamble (preamble ++ rest) 0 = .done () 8 := by
  have alone : Module.readPreamble preamble 0 = .done () 8 := rfl
  exact Module.readPreamble_stable alone rest

/-- The sections lie behind the preamble. -/
lemma drop_preamble (sections : List Section) :
    8 ≤ (write sections).length ∧
      (write sections).drop 8 = sections.flatMap Section.bytes ++ [] := by
  rw [List.append_nil, write, List.length_append]
  exact ⟨Nat.le_add_right 8 _, rfl⟩

lemma readSections_write (sections : List Section) :
    ∃ parts, Module.readSections (write sections) 8 = .done parts (write sections).length ∧
      parts.map Prod.fst = placedAll sections ∧ parts.map Prod.snd = contentsAll sections := by
  have length : (write sections).length = 8 + (sections.flatMap Section.bytes).length :=
    List.length_append
  obtain ⟨inside, here⟩ := drop_preamble sections
  have all := Reader.Reads.repeatUntil (fun start s => Section.reads s start)
    Contents.readSection_advances 8 sections
  have read := all inside here
  rw [← length] at read
  refine ⟨_, read, ?_, ?_⟩
  · exact Reader.map_layOut Prod.fst _ 8 sections
  · exact Reader.map_layOut Prod.snd _ 8 sections

/-- What the symbols of a module are: those of the first linking section, if there is one. -/
inductive Links (sections : List Section) : List Symbol → Prop where
  | none (nowhere : ∀ s ∈ sections, s.isNamed "linking" = false) : Links sections []
  | some {before after : List Section} {c : CustomSection} (l : Linking)
      (split : sections = before ++ .custom c :: after)
      (first : ∀ s ∈ before, s.isNamed "linking" = false) (named : c.name = "linking")
      (payload : c.payload = l.bytes) : Links sections l.symbols

/-- Where the section begins that is written behind some sections. -/
def startBehind (before : List Section) : Nat := 8 + (before.flatMap Section.bytes).length

/-- A section of a module begins behind those before it. -/
lemma drop_write (before : List Section) (s : Section) (after : List Section) :
    startBehind before ≤ (write (before ++ s :: after)).length ∧
      (write (before ++ s :: after)).drop (startBehind before) =
        s.bytes ++ after.flatMap Section.bytes := by
  have start : startBehind before = (preamble ++ before.flatMap Section.bytes).length := by
    rw [List.length_append]
    rfl
  have split : write (before ++ s :: after) =
      preamble ++ before.flatMap Section.bytes ++ (s.bytes ++ after.flatMap Section.bytes) := by
    rw [write, List.flatMap_append, List.flatMap_cons, List.append_assoc]
  rw [start, split]
  refine ⟨?_, List.drop_left⟩
  exact Nat.le_trans (Nat.le_add_right _ _) (Nat.le_of_eq List.length_append.symm)

/-- The payload of a section lies at its data offset. -/
lemma Section.drop_dataOffset (s : Section) {data rest : Bytes} {start : Nat}
    (inside : start ≤ data.length) (here : data.drop start = s.bytes ++ rest) :
    (s.placed start).dataOffset ≤ data.length ∧
      data.drop (s.placed start).dataOffset = s.payload ++ rest := by
  cases s with
  | custom c => exact c.drop_dataOffset inside here
  | plain size content counts => exact drop_content inside here

/-- The payload of a section is what lies from its data offset to its end. -/
lemma Section.take_drop_placed (s : Section) {data rest : Bytes} {start : Nat}
    (inside : start ≤ data.length) (here : data.drop start = s.bytes ++ rest) :
    (data.drop (s.placed start).dataOffset).take
      ((s.placed start).stop - (s.placed start).dataOffset) = s.payload := by
  have stop : (s.placed start).stop = (s.placed start).dataOffset + s.payload.length := by
    cases s with
    | custom c => exact c.stop_eq_dataOffset_add start
    | plain size content counts =>
      show start + 1 + size.bytes.length + size.value = _
      rw [counts]
      rfl
  rw [(s.drop_dataOffset inside here).2, stop, Nat.add_sub_cancel_left, List.take_left]

section

variable {p : Container.Section → Bool} {q : Section → Bool} {sections : List Section} {start : Nat}

/-- A question about sections has the same answer for their places. -/
lemma not_of_mem_placed (same : ∀ start s, p (Section.placed start s) = q s)
    (nowhere : ∀ s ∈ sections, q s = false) :
    ∀ t ∈ layOut Section.bytes Section.placed start sections, ¬p t = true := by
  intro t mem
  obtain ⟨place, s, inside, rfl⟩ := Reader.exists_of_mem_layOut mem
  rw [same, nowhere s inside]
  exact Bool.false_ne_true

lemma none_found (same : ∀ start s, p (Section.placed start s) = q s)
    (nowhere : ∀ s ∈ sections, q s = false) :
    (layOut Section.bytes Section.placed start sections).find? p = Option.none :=
  List.find?_eq_none.2 (not_of_mem_placed same nowhere)

end

namespace Links

variable {sections : List Section} {symbols : List Symbol}

/-- The symbols are read from where they are written. -/
lemma readSymbols_done (links : Links sections symbols) (position : Nat) :
    ∃ next, Module.readSymbols (placedAll sections) (write sections) position =
      .done (symbols.map Symbol.symbol) next := by
  cases links with
  | none nowhere =>
    refine ⟨position, ?_⟩
    unfold Module.readSymbols placedAll
    rw [none_found (Section.isNamed_placed _) nowhere]
    rfl
  | @some before after c l split first named payload =>
    obtain rfl := split
    obtain ⟨inside, here⟩ := drop_write before (.custom c) after
    -- Sections of the same name may follow, but the first one is found.
    have found : (placedAll (before ++ .custom c :: after)).find?
        (Container.Section.isNamed "linking") = Option.some (c.placed (startBehind before)) := by
      unfold placedAll
      rw [Reader.layOut_append, List.find?_append, none_found (Section.isNamed_placed _) first]
      exact List.find?_cons_of_pos (beq_iff_eq.2 named)
    obtain ⟨insidePayload, atPayload⟩ := c.drop_dataOffset inside here
    have ends := c.stop_eq_dataOffset_add (startBehind before)
    rw [payload] at atPayload ends
    refine ⟨(c.placed (startBehind before)).stop, ?_⟩
    unfold Module.readSymbols
    rw [found]
    exact l.readLinking_of_drop insidePayload atPayload ends position

end Links

variable {sections : List Section} {symbols : List Symbol} {m : Module}

/-- The bytes are a module, unless sections of relocations are in the way. -/
lemma parse_write (links : Links sections symbols)
    (noRelocations : ∀ s ∈ sections, s.isRelocation = false) :
    ∃ m, Module.parse (write sections) = .ok m := by
  obtain ⟨parts, read, places, _⟩ := readSections_write sections
  obtain ⟨next, symbolsRead⟩ := links.readSymbols_done (write sections).length
  have none : (placedAll sections).filter RelocationSection.isRelocation = [] := by
    exact List.filter_eq_nil_iff.2 (not_of_mem_placed Section.isRelocation_placed noRelocations)
  rw [← places] at symbolsRead none
  have relocations : RelocationSection.readAll (parts.map Prod.fst)
      ((parts.map Prod.fst).filter RelocationSection.isRelocation) (write sections) next =
        .done [] next := by
    rw [none]
    rfl
  exact ⟨_, Module.parse_of_done (readPreamble_preamble _) read symbolsRead relocations⟩

/-- One more section is not in the way if it is not one of relocations. -/
lemma noRelocation_insert {before after : List Section} {s : Section}
    (others : ∀ t ∈ before ++ after, t.isRelocation = false) (own : s.isRelocation = false) :
    ∀ t ∈ before ++ s :: after, t.isRelocation = false := by
  obtain ⟨inFront, behind⟩ := List.forall_mem_append.1 others
  exact List.forall_mem_append.2 ⟨inFront, List.forall_mem_cons.2 ⟨own, behind⟩⟩

/-- What module they are. -/
lemma of_parse_write (links : Links sections symbols)
    (parsed : Module.parse (write sections) = .ok m) :
    m.data = write sections ∧ m.sections = placedAll sections ∧
      m.contents = Contents.concat (contentsAll sections) ∧
      m.symbols = symbols.map Symbol.symbol := by
  obtain ⟨parts, p₁, p₂, p₃, p₄, h₁, h₂, h₃, _, data, places, contents⟩ := Module.parse_ok parsed
  obtain rfl := Module.readPreamble_done h₁
  obtain ⟨parts', read, places', contents'⟩ := readSections_write sections
  rw [h₂] at read
  cases read
  rw [places'] at places h₃
  rw [contents'] at contents
  obtain ⟨next, symbolsRead⟩ := links.readSymbols_done (write sections).length
  rw [h₃] at symbolsRead
  exact ⟨data, places, contents, (Outcome.done.inj symbolsRead).1⟩

end Written

end WasmSourceMap.Container
