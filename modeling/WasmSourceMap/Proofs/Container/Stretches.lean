import WasmSourceMap.Proofs.Container.Layout
import WasmSourceMap.Proofs.Leb128.TwosComplement

/-!
# The bytes of a section

Where a section lies depends on what is in front of it, but its name and its payload do not: a
custom section that is read is a custom section as bytes, wherever it stands
(`Section.read_custom`). So two modules with the same bytes for some of their sections, in the
same order, find the same payloads by the names of these (`Module.payload_sectionNamed`), whatever
other sections they have.
-/

namespace WasmSourceMap

namespace Leb128

/-- A spelling of a number is decoded as the number, to its end. -/
lemma decode_of_spells {spelling : Bytes} {n : Nat} (h : groupCode.Spells spelling n) :
    decode spelling = .ok (n, spelling.length) := by
  induction h with
  | last digit ends =>
    cases digit
    exact if_pos ends
  | more digit goesOn _ ih =>
    cases digit
    have large : ¬_ < 128 := Nat.not_lt.2 goesOn
    rw [decode, if_neg large, ih]
    rfl

end Leb128

namespace Reader

variable {data : Bytes} {position next : Nat}

/-- A number that is read is spelled where it is read. -/
lemma uleb_spelled {n : Nat} (h : uleb data position = .done n next) :
    ∃ spelling rest, data.drop position = spelling ++ rest ∧ next = position + spelling.length ∧
      Leb128.decode spelling = .ok (n, spelling.length) := by
  obtain ⟨count, rfl, decoded⟩ := decode_of_uleb h
  obtain ⟨spelling, rest, here, rfl, spells⟩ := Leb128.decode_ok decoded
  exact ⟨spelling, rest, here, rfl, Leb128.decode_of_spells spells⟩

/-- Bytes that are read stand where they are read. -/
lemma bytes_taken {count : Nat} {taken : Bytes} (h : bytes count data position = .done taken next) :
    ∃ rest, data.drop position = taken ++ rest ∧ taken.length = count ∧
      next = position + count := by
  unfold bytes at h
  dsimp only at h
  split at h
  · rename_i enough
    cases h
    exact ⟨_, (List.take_append_drop count _).symm, enough, rfl⟩
  · split at h <;> cases h

lemma byte_taken {b : UInt8} (h : byte data position = .done b next) :
    ∃ rest, data.drop position = b :: rest ∧ next = position + 1 := by
  unfold byte at h
  split at h
  · rename_i found
    cases h
    obtain ⟨inside, rfl⟩ := List.getElem?_eq_some_iff.1 found
    exact ⟨_, List.drop_eq_getElem_cons inside, rfl⟩
  · cases h

/-- A text that is read stands behind its length where it is read. -/
lemma name_taken {text : String} (h : name data position = .done text next) :
    ∃ nameField nameBytes rest, data.drop position = nameField ++ (nameBytes ++ rest) ∧
      Leb128.decode nameField = .ok (nameBytes.length, nameField.length) ∧
      text = Text.Utf8.decode nameBytes ∧
      next = position + nameField.length + nameBytes.length := by
  obtain ⟨count, middle, counted, h⟩ := bind_done h
  obtain ⟨nameBytes, last, taken, h⟩ := bind_done h
  obtain ⟨rfl, rfl⟩ := pure_done h
  obtain ⟨nameField, behind, here, rfl, spelled⟩ := uleb_spelled counted
  obtain ⟨rest, there, rfl, rfl⟩ := bytes_taken taken
  have known : behind = nameBytes ++ rest := (drop_add here).symm.trans there
  exact ⟨nameField, nameBytes, rest, known ▸ here, spelled, rfl, rfl⟩

end Reader

namespace Container

namespace Section

variable {data : Bytes} {position next : Nat}

/-- A name behind its length, inside the length of the content, begins a custom section. -/
lemma exists_custom {sizeField nameField nameBytes behind : Bytes} {size : Nat}
    (countsContent : Leb128.decode sizeField = .ok (size, sizeField.length))
    (countsName : Leb128.decode nameField = .ok (nameBytes.length, nameField.length))
    (inside : nameField.length + nameBytes.length ≤ size)
    (fits : size ≤ (nameField ++ (nameBytes ++ behind)).length) :
    ∃ (c : CustomSection) (rest : Bytes),
      (0 :: sizeField) ++ (nameField ++ (nameBytes ++ behind)) = c.bytes ++ rest ∧
      c.sizeField = sizeField ∧ c.nameField = nameField ∧ c.nameBytes = nameBytes ∧
      c.content.length = size := by
  rw [List.length_append, List.length_append] at fits
  -- The payload is as long as the length says.
  obtain ⟨payload, rest, rfl, long⟩ : ∃ payload rest, behind = payload ++ rest ∧
      payload.length = size - nameField.length - nameBytes.length := by
    refine ⟨_, _, (List.take_append_drop (size - nameField.length - nameBytes.length) _).symm, ?_⟩
    rw [List.length_take]
    omega
  have length : (nameField ++ (nameBytes ++ payload)).length = size := by
    rw [List.length_append, List.length_append]
    omega
  refine ⟨⟨sizeField, nameField, nameBytes, payload, ?_, countsName⟩, rest, ?_, rfl, rfl, rfl,
    length⟩
  · rw [length, countsContent]
  · rw [CustomSection.bytes, CustomSection.content]
    simp only [List.cons_append, List.append_assoc]

/-- A section begins with its id and its length. -/
lemma readHeader_taken {s : Section} (h : readHeader data position = .done s next) :
    ∃ (id : UInt8) (sizeField : Bytes) (size : Nat) (rest : Bytes),
      data.drop position = (id :: sizeField) ++ rest ∧
      Leb128.decode sizeField = .ok (size, sizeField.length) ∧
      data.drop next = rest ∧ next = position + 1 + sizeField.length ∧
      s = ⟨id.toNat, position, next, size, "", next⟩ := by
  obtain ⟨headerOffset, p₁, h₁, h⟩ := Reader.bind_done h
  obtain ⟨id, p₂, h₂, h⟩ := Reader.bind_done h
  obtain ⟨size, p₃, h₃, h⟩ := Reader.bind_done h
  obtain ⟨offset, p₄, h₄, h⟩ := Reader.bind_done h
  obtain ⟨rfl, rfl⟩ := Reader.pure_done h
  obtain ⟨rfl, start⟩ := Reader.position_done h₁
  subst start
  obtain ⟨behind, here, rfl⟩ := Reader.byte_taken (Reader.mapFault_done h₂)
  obtain ⟨sizeField, rest, there, rfl, spelled⟩ := Reader.uleb_spelled (Reader.mapFault_done h₃)
  obtain ⟨rfl, rfl⟩ := Reader.position_done h₄
  have split : data.drop p₁ = [id] ++ behind := here
  rw [(Reader.drop_add split).symm.trans there] at split
  exact ⟨id, sizeField, size, rest, split, spelled, Reader.drop_add there, rfl, rfl⟩

/-- A header is given a name if it is that of a custom section, and then the name ends inside the
section. -/
lemma readName_taken {header s : Section} (h : readName header data position = .done s next) :
    header.id ≠ customId ∧ s = header ∨
      header.id = customId ∧ ∃ name dataOffset, s = { header with name, dataOffset } ∧
        Reader.name data position = .done name dataOffset ∧ dataOffset ≤ header.stop := by
  unfold readName at h
  split at h
  · obtain ⟨name, p₁, h₁, h⟩ := Reader.bind_done h
    obtain ⟨dataOffset, p₂, h₂, h⟩ := Reader.bind_done h
    obtain ⟨_, p₃, h₃, h⟩ := Reader.bind_done h
    obtain ⟨rfl, _⟩ := Reader.pure_done h
    obtain ⟨rfl, _⟩ := Reader.position_done h₂
    have inside := of_decide_eq_true (Reader.check_done h₃).1
    exact .inr ⟨‹_›, name, dataOffset, rfl, Reader.mapFault_done h₁, inside⟩
  · obtain ⟨rfl, _⟩ := Reader.pure_done h
    exact .inl ⟨‹_›, rfl⟩

/-- A section is read as a header that ends inside the data, and then its name. -/
lemma read_taken {s : Section} (h : read data position = .done s next) :
    ∃ header middle last, readHeader data position = .done header middle ∧
      header.stop ≤ data.length ∧ readName header data middle = .done s last := by
  obtain ⟨header, p₁, h₁, h⟩ := Reader.bind_done h
  obtain ⟨fits, h⟩ := Reader.demand_done h
  obtain ⟨named, p₂, h₂, h⟩ := Reader.bind_done h
  obtain ⟨_, p₃, _, h⟩ := Reader.bind_done h
  obtain ⟨rfl, _⟩ := Reader.pure_done h
  exact ⟨header, p₁, p₂, h₁, fits, h₂⟩

/-- A custom section that is read is a custom section as bytes. -/
lemma read_custom {s : Section} (h : read data position = .done s next) (custom : s.id = customId) :
    ∃ (c : CustomSection) (rest : Bytes), data.drop position = c.bytes ++ rest ∧
      s = c.placed position := by
  obtain ⟨header, middle, last, isHeader, fits, isNamed⟩ := read_taken h
  obtain ⟨id, sizeField, size, content, here, countsContent, behindSize, rfl, rfl⟩ :=
    readHeader_taken isHeader
  obtain ⟨other, rfl⟩ | ⟨isCustom, name, dataOffset, rfl, isName, inside⟩ := readName_taken isNamed
  · exact absurd custom other
  obtain ⟨nameField, nameBytes, behind, there, countsName, rfl, rfl⟩ := Reader.name_taken isName
  have zero : id = 0 := UInt8.toNat_inj.1 isCustom
  subst zero
  have known : content = nameField ++ (nameBytes ++ behind) := behindSize.symm.trans there
  have total := congrArg List.length behindSize
  rw [List.length_drop] at total
  simp only [stop] at fits inside
  have long : size ≤ (nameField ++ (nameBytes ++ behind)).length := by
    rw [← known]
    omega
  obtain ⟨c, rest, bytes, rfl, rfl, rfl, length⟩ :=
    exists_custom countsContent countsName (by omega) long
  refine ⟨c, rest, by rw [here, known, bytes], ?_⟩
  rw [CustomSection.placed, length]
  rfl

/-- A section begins with its id. -/
lemma read_id {s : Section} (h : read data position = .done s next) :
    ∃ (id : UInt8) (rest : Bytes), data.drop position = id :: rest ∧ s.id = id.toNat := by
  obtain ⟨header, middle, last, isHeader, _, isNamed⟩ := read_taken h
  obtain ⟨id, sizeField, size, content, here, _, _, _, rfl⟩ := readHeader_taken isHeader
  refine ⟨id, sizeField ++ content, here, ?_⟩
  obtain ⟨_, rfl⟩ | ⟨_, name, dataOffset, rfl, _⟩ := readName_taken isNamed <;> rfl

end Section

/-- The bytes of a custom section hold its name and its payload. -/
lemma CustomSection.eq_of_bytes {c c' : CustomSection} (same : c.bytes = c'.bytes) :
    c.name = c'.name ∧ c.payload = c'.payload := by
  have here : c.bytes.drop 0 = c.bytes ++ [] := (List.append_nil _).symm
  have here' : c.bytes.drop 0 = c'.bytes ++ [] := same ▸ here
  have read := c.read_reads 0 (Nat.zero_le _) here
  have read' := c'.read_reads 0 (Nat.zero_le _) here'
  have placed := (Outcome.done.inj (read.symm.trans read')).1
  have behind := (c.drop_dataOffset (Nat.zero_le _) here).2
  have behind' := (c'.drop_dataOffset (Nat.zero_le _) here').2
  rw [← placed, behind] at behind'
  exact ⟨congrArg Section.name placed, List.append_cancel_right behind'⟩

/-- Whether a section says how a module is linked. -/
def Section.isLinkage (s : Section) : Bool :=
  s.isNamed "linking" || RelocationSection.isRelocation s

namespace Module

/-- The bytes of a section, from its id to its end. -/
def stretch (m : Module) (s : Section) : Bytes := (m.data.drop s.headerOffset).take s.totalSize

section

variable {data : Bytes} {m : Module} {s : Section}

lemma read_of_mem (parsed : parse data = .ok m) (mem : s ∈ m.sections) :
    ∃ next, Section.read data s.headerOffset = .done s next := by
  obtain ⟨parts, p₁, p₂, p₃, p₄, _, h₂, _, _, _, sections, _⟩ := parse_ok parsed
  rw [sections] at mem
  obtain ⟨r, inside, rfl⟩ := List.mem_map.1 mem
  obtain ⟨p, q, read⟩ := Reader.read_of_mem_repeatUntilAt h₂ inside
  obtain ⟨last, here⟩ := Contents.readSection_section read
  rw [(Section.read_ordered here).2]
  exact ⟨last, here⟩

lemma head?_stretch (parsed : parse data = .ok m) (mem : s ∈ m.sections) :
    ∃ id : UInt8, (m.stretch s).head? = some id ∧ s.id = id.toNat := by
  obtain ⟨next, read⟩ := read_of_mem parsed mem
  obtain ⟨id, rest, here, same⟩ := Section.read_id read
  refine ⟨id, ?_, same⟩
  have some_ : 0 < s.totalSize := Nat.sub_pos_of_lt (ordered_of_parse parsed s mem).header_lt_stop
  unfold stretch
  rw [data_of_parse parsed, here, List.take_cons some_]
  rfl

/-- The bytes of a custom section of a module are those of its name and its payload. -/
lemma custom_of_mem (parsed : parse data = .ok m) (mem : s ∈ m.sections)
    (custom : s.id = Section.customId) :
    ∃ c : CustomSection, m.stretch s = c.bytes ∧ s.name = c.name ∧ m.payload s = c.payload := by
  obtain ⟨next, read⟩ := read_of_mem parsed mem
  obtain ⟨c, rest, here, placed⟩ := Section.read_custom read custom
  have inside : s.headerOffset ≤ data.length := by
    have := (ordered_of_parse parsed s mem).header_lt_stop
    have := stop_le_of_parse parsed mem
    omega
  have behind := (c.drop_dataOffset inside here).2
  have ends := c.stop_eq_dataOffset_add s.headerOffset
  have total := c.totalSize_placed s.headerOffset
  rw [← placed] at behind ends total
  refine ⟨c, ?_, placed ▸ rfl, ?_⟩
  · unfold stretch
    rw [data_of_parse parsed, here, total, List.take_left]
  · unfold payload
    rw [data_of_parse parsed, behind, ends, Nat.add_sub_cancel_left, List.take_left]

end

/-- The bytes of all sections but the linking section and those of relocations, in their order. -/
def unlinked (m : Module) : List Bytes := (m.sections.filter fun s => !s.isLinkage).map m.stretch

section

variable {data data' : Bytes} {m m' : Module} {s s' : Section} {name : String}

/-- Sections of the same bytes have the same name and the same payload. -/
lemma isNamed_of_stretch (parsed : parse data = .ok m) (parsed' : parse data' = .ok m')
    (mem : s ∈ m.sections) (mem' : s' ∈ m'.sections) (same : m.stretch s = m'.stretch s') :
    s.isNamed name = s'.isNamed name ∧
      (s.isNamed name = true → m.payload s = m'.payload s') := by
  obtain ⟨id, first, isId⟩ := head?_stretch parsed mem
  obtain ⟨id', first', isId'⟩ := head?_stretch parsed' mem'
  rw [same, first'] at first
  obtain rfl := Option.some.inj first
  have sameId := isId.trans isId'.symm
  unfold Section.isNamed
  by_cases custom : s.id = Section.customId
  · obtain ⟨c, bytes, isName, isPayload⟩ := custom_of_mem parsed mem custom
    obtain ⟨c', bytes', isName', isPayload'⟩ := custom_of_mem parsed' mem' (sameId ▸ custom)
    obtain ⟨names, payloads⟩ := CustomSection.eq_of_bytes (bytes.symm.trans (same.trans bytes'))
    rw [sameId, isName, isName', names, isPayload, isPayload', payloads]
    exact ⟨rfl, fun _ => rfl⟩
  · have notCustom : (s.id == Section.customId) = false := beq_false_of_ne custom
    rw [← sameId, notCustom]
    exact ⟨rfl, nofun⟩

/-- A section with a name of its own is found among the sections that are not for linking. -/
lemma sectionNamed_eq (m : Module) (notLinking : name ≠ "linking")
    (notRelocation : ¬relocationMark.toList <+: name.toList) :
    m.sectionNamed name =
      (m.sections.filter fun s => !s.isLinkage).find? (Section.isNamed name) := by
  have known (s : Section) : (!s.isLinkage && s.isNamed name) = s.isNamed name := by
    cases named : s.isNamed name with
    | false => exact Bool.and_false _
    | true =>
      simp only [Section.isNamed, Bool.and_eq_true, beq_iff_eq] at named
      have linking : s.isNamed "linking" = false := by
        rw [Section.isNamed, named.2, beq_false_of_ne notLinking, Bool.and_false]
      have relocation : RelocationSection.isRelocation s = false := by
        rw [RelocationSection.isRelocation, named.2, Bool.and_eq_false_iff]
        exact .inr (Bool.eq_false_iff.2 (mt List.isPrefixOf_iff_prefix.1 notRelocation))
      rw [Section.isLinkage, linking, relocation]
      rfl
  rw [List.find?_filter]
  simp only [Bool.decide_and, Bool.decide_eq_true, known]
  rfl

/-- Lists of the same images find the same if what is sought is seen in the images. -/
lemma map_find?_of_map {α β γ δ : Type} {f : α → γ} {g : β → γ} {q : α → Bool} {q' : β → Bool}
    {u : α → δ} {v : β → δ} {as : List α} {bs : List β} (same : as.map f = bs.map g)
    (each : ∀ a ∈ as, ∀ b ∈ bs, f a = g b → q a = q' b ∧ (q a = true → u a = v b)) :
    (as.find? q).map u = (bs.find? q').map v := by
  induction as generalizing bs with
  | nil =>
    obtain rfl := List.map_eq_nil_iff.1 same.symm
    rfl
  | cons a as ih =>
    cases bs with
    | nil => cases same
    | cons b bs =>
      rw [List.map_cons, List.map_cons] at same
      obtain ⟨first, others⟩ := List.cons.inj same
      obtain ⟨sought, found⟩ := each a List.mem_cons_self b List.mem_cons_self first
      rw [List.find?_cons, List.find?_cons, ← sought]
      cases here : q a with
      | true => exact congrArg some (found here)
      | false =>
        refine ih others fun a mem b mem' => ?_
        exact each a (List.mem_cons_of_mem _ mem) b (List.mem_cons_of_mem _ mem')

/-- What linking needs does not change which payload is found by a name. -/
lemma payload_sectionNamed (parsed : parse data = .ok m) (parsed' : parse data' = .ok m')
    (same : m.unlinked = m'.unlinked) (notLinking : name ≠ "linking")
    (notRelocation : ¬relocationMark.toList <+: name.toList) :
    (m.sectionNamed name).map m.payload = (m'.sectionNamed name).map m'.payload := by
  rw [sectionNamed_eq m notLinking notRelocation, sectionNamed_eq m' notLinking notRelocation]
  refine map_find?_of_map same fun s mem s' mem' bytes => ?_
  have inModule := List.mem_of_mem_filter mem
  have inModule' := List.mem_of_mem_filter mem'
  exact isNamed_of_stretch parsed parsed' inModule inModule' bytes

end

end Module

end Container

end WasmSourceMap
