import WasmSourceMap.Proofs.Container.Stability
import WasmSourceMap.Proofs.Reader.Written
import WasmSourceMap.Proofs.Text.Utf8
import WasmSourceMap.UrlSection

/-!
# A custom section after a module

A module is followed by a custom section, whose lengths may be padded. The sections of the module
are read as before, the last of them ends where the module ends, and there the new section begins
(`readSections_append`). Symbols and relocations are read from sections of certain names, so a
section with another name does not matter to them, and the whole is read as the module with one more
section (`parse_append`).
-/

namespace WasmSourceMap

namespace Container

/-- If a section is read, and its contents are there, then it is read with its contents and left at
its end. -/
lemma Contents.readSection_reads {s : Section} {contents : Contents} {written : Bytes} {start : Nat}
    (read : Section.read.Reads start written s) (ends : s.stop = start + written.length)
    (body : ∀ data rest, start ≤ data.length → data.drop start = written ++ rest →
      ∃ next, readBody s data s.offset = .done contents next) :
    readSection.Reads start written (s, contents) := by
  intro data rest inside here
  have within := Reader.add_le_of_drop inside here
  obtain ⟨next, contentsRead⟩ := body data rest inside here
  rw [← ends] at within ⊢
  have content : s.offset ≤ data.length := Nat.le_trans (Nat.le_add_right _ _) within
  refine (Reader.bind_of_done (read inside here)).trans ?_
  refine (Reader.bind_of_done (Reader.mapFault_of_done (Reader.seek_of_le content _))).trans ?_
  refine (Reader.bind_of_done contentsRead).trans ?_
  exact Reader.bind_of_done (Reader.mapFault_of_done (Reader.seek_of_le within _))

/-- A custom section as bytes: a length, a name behind its length and a payload. -/
structure CustomSection where
  sizeField : Bytes
  nameField : Bytes
  nameBytes : Bytes
  payload : Bytes
  countsContent : Leb128.decode sizeField =
    .ok ((nameField ++ (nameBytes ++ payload)).length, sizeField.length)
  countsName : Leb128.decode nameField = .ok (nameBytes.length, nameField.length)

namespace CustomSection

/-- What follows the length. -/
def content (c : CustomSection) : Bytes := c.nameField ++ (c.nameBytes ++ c.payload)

/-- The whole section. -/
def bytes (c : CustomSection) : Bytes := 0 :: (c.sizeField ++ c.content)

/-- The name that is read. -/
def name (c : CustomSection) : String := Text.Utf8.decode c.nameBytes

/-- Where the section lies if so many bytes come before it. -/
def placed (c : CustomSection) (start : Nat) : Section where
  id := Section.customId
  headerOffset := start
  offset := start + 1 + c.sizeField.length
  size := c.content.length
  name := c.name
  dataOffset := start + 1 + c.sizeField.length + c.nameField.length + c.nameBytes.length

variable (c : CustomSection)

lemma length_bytes : c.bytes.length = 1 + c.sizeField.length + c.content.length := by
  rw [bytes, List.length_cons, List.length_append]
  omega

lemma stop_placed (start : Nat) : (c.placed start).stop = start + c.bytes.length := by
  rw [length_bytes, Section.stop, placed]
  dsimp only
  omega

lemma totalSize_placed (start : Nat) : (c.placed start).totalSize = c.bytes.length := by
  rw [Section.totalSize, stop_placed]
  exact Nat.add_sub_cancel_left _ _

lemma dataOffset_le_stop (start : Nat) : (c.placed start).dataOffset ≤ (c.placed start).stop := by
  rw [Section.stop, placed]
  dsimp only
  rw [content, List.length_append, List.length_append]
  omega

/-- The section stands behind what is in front of it. -/
lemma drop_append (before : Bytes) : before.length ≤ (before ++ c.bytes).length ∧
    (before ++ c.bytes).drop before.length = c.bytes ++ [] := by
  rw [List.drop_left, List.append_nil, List.length_append]
  exact ⟨Nat.le_add_right _ _, rfl⟩

lemma stop_eq_dataOffset_add (start : Nat) :
    (c.placed start).stop = (c.placed start).dataOffset + c.payload.length := by
  rw [stop_placed, length_bytes, content, List.length_append, List.length_append, placed]
  dsimp only
  omega

/-- The payload lies behind the name. -/
lemma drop_dataOffset {data rest : Bytes} {start : Nat} (inside : start ≤ data.length)
    (here : data.drop start = c.bytes ++ rest) :
    (c.placed start).dataOffset ≤ data.length ∧
      data.drop (c.placed start).dataOffset = c.payload ++ rest := by
  have split : data.drop start = (0 :: c.sizeField) ++ (c.nameField ++ (c.nameBytes ++
      (c.payload ++ rest))) := by
    rw [here, bytes, content]
    simp only [List.cons_append, List.append_assoc]
  have atName := Reader.drop_add split
  have insideName := Reader.add_le_of_drop inside split
  have atText := Reader.drop_add atName
  have insideText := Reader.add_le_of_drop insideName atName
  have behind : start + (0 :: c.sizeField).length + c.nameField.length + c.nameBytes.length =
      (c.placed start).dataOffset := by
    rw [List.length_cons, placed]
    dsimp only
    omega
  rw [← behind]
  exact ⟨Reader.add_le_of_drop insideText atText, Reader.drop_add atText⟩

/-- What is known of the section before its name is read. -/
def header (start : Nat) : Section :=
  { c.placed start with name := "", dataOffset := (c.placed start).offset }

lemma readHeader_reads (start : Nat) :
    Section.readHeader.Reads start (0 :: c.sizeField) (c.header start) := by
  have size : Reader.uleb.Reads (start + 1) c.sizeField c.content.length :=
    fun _ _ _ here => Reader.uleb_of_drop here c.countsContent
  refine .bind_empty .position (.bind (Reader.Reads.byte 0).mapFault ?_)
  exact .bind_done size.mapFault (.bind_empty .position (.pure _))

lemma readName_reads (start : Nat) :
    (Section.readName (c.header start)).Reads (c.placed start).offset (c.nameField ++ c.nameBytes)
      (c.placed start) := by
  have length : Reader.uleb.Reads (c.placed start).offset c.nameField c.nameBytes.length :=
    fun _ _ _ here => Reader.uleb_of_drop here c.countsName
  have name : Reader.name.Reads (c.placed start).offset (c.nameField ++ c.nameBytes) c.name :=
    .bind length (.bind_pure (.bytes c.nameBytes) _)
  have behind : (c.placed start).offset + (c.nameField ++ c.nameBytes).length =
      (c.placed start).dataOffset := by
    rw [List.length_append, ← Nat.add_assoc]
    rfl
  refine .bind_done name.mapFault ?_
  rw [behind]
  refine .bind_empty .position (.bind_empty (.check ?_ _) (.pure _))
  exact decide_eq_true (c.dataOffset_le_stop start)

/-- The section is read wherever it stands. -/
lemma read_reads (start : Nat) : Section.read.Reads start c.bytes (c.placed start) := by
  have split : c.bytes = (0 :: c.sizeField) ++ ((c.nameField ++ c.nameBytes) ++ c.payload) := by
    rw [bytes, content, List.cons_append, List.append_assoc]
  have offset : start + (0 :: c.sizeField).length = (c.placed start).offset := by
    rw [List.length_cons, placed]
    dsimp only
    omega
  have behind : (c.header start).stop = (c.placed start).offset +
      (c.nameField ++ c.nameBytes).length + c.payload.length := by
    rw [List.length_append, ← Nat.add_assoc]
    exact c.stop_eq_dataOffset_add start
  rw [split]
  refine .bind (c.readHeader_reads start) ?_
  rw [offset]
  refine .demand ?_ (.bind (c.readName_reads start) ?_)
  · rw [List.length_append, ← Nat.add_assoc]
    exact Nat.le_of_eq behind
  · rw [behind]
    exact .bind_pure (Reader.Reads.skip c.payload).mapFault _

/-- It has no functions and no data. -/
lemma readSection_reads (start : Nat) :
    Contents.readSection.Reads start c.bytes (c.placed start, {}) :=
  Contents.readSection_reads (c.read_reads start) (c.stop_placed start)
    fun _ _ _ _ => ⟨_, rfl⟩

/-- The custom section of a name and a payload. -/
def ofName (name : String) (payload : Bytes) : CustomSection where
  nameBytes := Text.Utf8.encode name
  payload := payload
  nameField := Leb128.encode (Text.Utf8.encode name).length
  sizeField := Leb128.encode
    (Leb128.encode (Text.Utf8.encode name).length ++ (Text.Utf8.encode name ++ payload)).length
  countsContent := Leb128.decode_encode _
  countsName := Leb128.decode_encode _

@[simp]
lemma name_ofName (name : String) (payload : Bytes) : (ofName name payload).name = name :=
  Text.Utf8.decode_encode name

/-- The section that names a source map. -/
def ofUrl (name url : String) : CustomSection where
  nameBytes := Text.Utf8.encode name
  payload := UrlSection.counted (Text.Utf8.encode url)
  nameField := Leb128.encode (Text.Utf8.encode name).length
  sizeField := Leb128.encode (Leb128.encode (Text.Utf8.encode name).length ++
    (Text.Utf8.encode name ++ UrlSection.counted (Text.Utf8.encode url))).length
  countsContent := Leb128.decode_encode _
  countsName := Leb128.decode_encode _

lemma bytes_ofUrl (name url : String) : (ofUrl name url).bytes = UrlSection.encode name url := by
  unfold UrlSection.encode UrlSection.counted
  rw [List.append_assoc]
  rfl

lemma name_ofUrl (name url : String) : (ofUrl name url).name = name := Text.Utf8.decode_encode name

end CustomSection

namespace RelocationSection

/-- The target of a relocation section is among the sections, so more sections do not matter. -/
lemma readEntries_append {sections : List Section} {s : Section} {target : Nat} {data : Bytes}
    {position next : Nat} {entries : List Relocation}
    (h : readEntries sections s target data position = .done entries next) (more : List Section) :
    readEntries (sections ++ more) s target = readEntries sections s target := by
  unfold readEntries at h ⊢
  cases found : sections[target]? with
  | none =>
    rw [found] at h
    cases h
  | some t => rw [List.getElem?_append_left (List.getElem?_eq_some_iff.1 found).1, found]

lemma readAll_append {sections : List Section} (more : List Section) {wanted : List Section}
    {data : Bytes} {position next : Nat} {found : List RelocationSection}
    (h : readAll sections wanted data position = .done found next) :
    readAll (sections ++ more) wanted data position = .done found next := by
  induction wanted generalizing position found next with
  | nil => exact h
  | cons s rest ih =>
    obtain ⟨first, p₁, h₁, h⟩ := Reader.bind_done h
    obtain ⟨others, p₂, h₂, h⟩ := Reader.bind_done h
    have same : read (sections ++ more) s data position = .done first p₁ := by
      obtain ⟨u, q₁, s₁, h₁⟩ := Reader.bind_done h₁
      obtain ⟨target, q₂, s₂, h₁⟩ := Reader.bind_done h₁
      obtain ⟨entries, q₃, s₃, h₁⟩ := Reader.bind_done h₁
      refine (Reader.bind_of_done s₁).trans ((Reader.bind_of_done s₂).trans ?_)
      rw [readEntries_append s₃ more]
      exact (Reader.bind_of_done s₃).trans h₁
    exact (Reader.bind_of_done same).trans ((Reader.bind_of_done (ih h₂)).trans h)

end RelocationSection

namespace Module

variable {data : Bytes} {m : Module}

/-- What the steps of a parse that succeeds read. -/
lemma parse_ok (h : parse data = .ok m) :
    ∃ parts p₁ p₂ p₃ p₄, readPreamble data 0 = .done () p₁ ∧
      readSections data p₁ = .done parts p₂ ∧
      readSymbols (parts.map Prod.fst) data p₂ = .done m.symbols p₃ ∧
      RelocationSection.readAll (parts.map Prod.fst)
        ((parts.map Prod.fst).filter RelocationSection.isRelocation) data p₃ =
          .done m.relocations p₄ ∧
      m.data = data ∧ m.sections = parts.map Prod.fst ∧
      m.contents = Contents.concat (parts.map Prod.snd) := by
  obtain ⟨p, h⟩ := Reader.run_ok h
  obtain ⟨_, p₁, h₁, h⟩ := Reader.bind_done h
  obtain ⟨parts, p₂, h₂, h⟩ := Reader.bind_done h
  obtain ⟨symbols, p₃, h₃, h⟩ := Reader.bind_done h
  obtain ⟨relocations, p₄, h₄, h⟩ := Reader.bind_done h
  obtain ⟨rfl, _⟩ := Reader.pure_done h
  exact ⟨parts, p₁, p₂, p₃, p₄, h₁, h₂, h₃, h₄, rfl, rfl, rfl⟩

/-- The steps of a parse make the module. -/
lemma parse_of_done {parts : List (Section × Contents)} {symbols : List Symbol}
    {relocations : List RelocationSection} {p₁ p₂ p₃ p₄ : Nat}
    (h₁ : readPreamble data 0 = .done () p₁) (h₂ : readSections data p₁ = .done parts p₂)
    (h₃ : readSymbols (parts.map Prod.fst) data p₂ = .done symbols p₃)
    (h₄ : RelocationSection.readAll (parts.map Prod.fst)
      ((parts.map Prod.fst).filter RelocationSection.isRelocation) data p₃ = .done relocations p₄) :
    parse data = .ok {
      data, symbols, relocations
      sections := parts.map Prod.fst
      contents := Contents.concat (parts.map Prod.snd) } := by
  have read : ∃ next, Module.read data 0 = .done _ next :=
    ⟨p₄, (Reader.bind_of_done h₁).trans <| (Reader.bind_of_done h₂).trans <|
      (Reader.bind_of_done h₃).trans (Reader.bind_of_done h₄)⟩
  obtain ⟨next, read⟩ := read
  exact Reader.run_of_done read

/-- The sections of a module end where its data ends. -/
lemma readSections_end {parts : List (Section × Contents)} {position next : Nat}
    (start : position ≤ data.length) (h : readSections data position = .done parts next) :
    next = data.length := by
  have inside : ∀ p r q, Contents.readSection data p = .done r q → q ≤ data.length := by
    intro p r q e
    rw [← (Contents.readSection_done e).1]
    exact Contents.readSection_inside e
  exact Nat.le_antisymm (Reader.repeatUntilAt_le inside start h) (Reader.le_of_repeatUntilAt h)

/-- The sections in front of a custom section are read as before, and then the custom section. -/
lemma readSections_append {parts : List (Section × Contents)} {position next : Nat}
    (start : position ≤ data.length) (h : readSections data position = .done parts next)
    (c : CustomSection) :
    readSections (data ++ c.bytes) position =
      .done (parts ++ [(c.placed data.length, ({} : Contents))]) (data ++ c.bytes).length := by
  have longer : data.length < (data ++ c.bytes).length := by
    rw [List.length_append, c.length_bytes]
    omega
  have custom : Reader.repeatUntilAt (data ++ c.bytes).length Contents.readSection
      Contents.readSection_advances (data ++ c.bytes) next =
        .done [(c.placed data.length, ({} : Contents))] (data ++ c.bytes).length := by
    obtain ⟨inside, here⟩ := c.drop_append data
    have read := c.readSection_reads data.length inside here
    rw [← List.length_append] at read
    rw [readSections_end start h, Reader.repeatUntilAt, if_pos longer, read]
    dsimp only
    rw [Reader.repeatUntilAt_of_le _ _ (Nat.le_refl _)]
  exact Reader.repeatUntilAt_further Contents.readSection_stable (Nat.le_of_lt longer) h custom

/-- A section of another name does not matter to the symbols. -/
lemma readSymbols_append (sections : List Section) {s : Section}
    (other : s.isNamed "linking" = false) :
    readSymbols (sections ++ [s]) = readSymbols sections := by
  have same : (sections ++ [s]).find? (Section.isNamed "linking") =
      sections.find? (Section.isNamed "linking") := by
    rw [List.find?_append, List.find?_cons_of_neg (by rw [other]; exact Bool.false_ne_true)]
    exact Option.or_none
  unfold readSymbols
  rw [same]

end Module

namespace Contents

lemma concat_append_empty (parts : List Contents) :
    concat (parts ++ [({} : Contents)]) = concat parts := by
  unfold concat
  rw [List.foldr_append]
  rfl

end Contents

namespace Module

variable {data : Bytes} {m : Module}

/-- The module with a custom section at its end. -/
def append (m : Module) (c : CustomSection) : Module :=
  { m with data := m.data ++ c.bytes, sections := m.sections ++ [c.placed m.data.length] }

/-- The payload of the new section. -/
lemma payload_placed (m : Module) (c : CustomSection) :
    (m.append c).payload (c.placed m.data.length) = c.payload := by
  obtain ⟨inside, here⟩ := c.drop_append m.data
  have atPayload := (c.drop_dataOffset inside here).2
  unfold payload append
  rw [atPayload, c.stop_eq_dataOffset_add, Nat.add_sub_cancel_left, List.take_left]

lemma data_of_parse (h : parse data = .ok m) : m.data = data := by
  obtain ⟨parts, p₁, p₂, p₃, p₄, _, _, _, _, same, _, _⟩ := parse_ok h
  exact same

/-- All sections of a module end inside its data. -/
lemma stop_le_of_parse (h : parse data = .ok m) {s : Section} (hs : s ∈ m.sections) :
    s.stop ≤ data.length := by
  obtain ⟨parts, p₁, p₂, p₃, p₄, _, h₂, _, _, _, sections, _⟩ := parse_ok h
  rw [sections] at hs
  obtain ⟨r, mem, rfl⟩ := List.mem_map.1 hs
  obtain ⟨p, q, read⟩ := Reader.read_of_mem_repeatUntilAt h₂ mem
  exact Contents.readSection_inside read

/-- A module in front of a custom section that is neither the linking section nor holds relocations
is read as the module with one more section. -/
theorem parse_append (h : parse data = .ok m) (c : CustomSection)
    (notLinking : c.name ≠ "linking") (notRelocation : ¬relocationMark.toList <+: c.name.toList) :
    parse (data ++ c.bytes) = .ok (m.append c) := by
  obtain ⟨parts, p₁, p₂, p₃, p₄, h₁, h₂, h₃, h₄, same, sections, contents⟩ := parse_ok h
  have noLinking : (c.placed data.length).isNamed "linking" = false :=
    Bool.and_eq_false_iff.2 (.inr (beq_false_of_ne notLinking))
  have noRelocation : RelocationSection.isRelocation (c.placed data.length) = false := by
    refine Bool.and_eq_false_iff.2 (.inr (Bool.eq_false_iff.2 fun e => ?_))
    exact notRelocation (List.isPrefixOf_iff_prefix.1 e)
  have names : (parts ++ [(c.placed data.length, ({} : Contents))]).map Prod.fst =
      m.sections ++ [c.placed data.length] := by
    rw [List.map_append, sections]
    rfl
  rw [← sections] at h₃ h₄
  have inSections := readSections_append (readPreamble_inside h₁) h₂ c
  -- The sections now end further off, so symbols and relocations are read from another position on.
  obtain ⟨q₁, inSymbols⟩ := readSymbols_anywhere _ h₃ c.bytes (data ++ c.bytes).length
  obtain ⟨q₂, inRelocations⟩ := RelocationSection.readAll_anywhere _ _ h₄ c.bytes q₁
  rw [← readSymbols_append m.sections noLinking, ← names] at inSymbols
  have more := RelocationSection.readAll_append [c.placed data.length] inRelocations
  have wanted : (m.sections ++ [c.placed data.length]).filter RelocationSection.isRelocation =
      m.sections.filter RelocationSection.isRelocation := by
    rw [List.filter_append, List.filter_cons_of_neg (by rw [noRelocation]; exact Bool.false_ne_true)]
    exact List.append_nil _
  rw [← wanted, ← names] at more
  have inContents : Contents.concat ((parts ++ [(c.placed data.length, ({} : Contents))]).map
      Prod.snd) = m.contents := by
    rw [List.map_append, contents]
    exact Contents.concat_append_empty _
  rw [parse_of_done (readPreamble_stable h₁ c.bytes) inSections inSymbols more]
  rw [names, inContents, append, same]

end Module

/-- A module with one function that does nothing. -/
def oneBody : Bytes :=
  [0x00, 0x61, 0x73, 0x6d, 0x01, 0x00, 0x00, 0x00, 0x0a, 0x04, 0x01, 0x02, 0x00, 0x0b]

end Container

end WasmSourceMap
