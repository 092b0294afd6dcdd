import Mathlib.Data.List.Nodup
import WasmSourceMap.Proofs.Container.Appending
import WasmSourceMap.Proofs.Container.Listing

/-!
# How the sections of a module lie in its bytes

The contents of imports, code and data are read by jumping about inside a section and beyond it, but
every section is left at its end. So the sections lie one after the other from the end of the
preamble to the end of the data (`Tiles`), and the parts of each section lie in their order
(`Section.Ordered`). It follows that no two sections are alike, that each payload is there to be
read (`Section.readPayload_ok`), whatever was read before it (`readPayloads_ok`), and that the
relocations of a section are found by its index.
-/

namespace WasmSourceMap

namespace Reader

variable {data : Bytes} {position next : Nat}

lemma Within.name : Within name := .bind Consumes.uleb.within fun _ => .bind (.bytes _) fun _ => .pure _

lemma bytes_done {count : Nat} {taken : Bytes} (h : bytes count data position = .done taken next) :
    next = position + count := by
  unfold bytes at h
  dsimp only at h
  split at h
  · cases h
    rfl
  · split at h <;> cases h

lemma unsigned_done {width n : Nat} (h : unsigned width data position = .done n next) :
    next = position + width := by
  obtain ⟨taken, middle, h₁, h⟩ := bind_done h
  obtain ⟨_, rfl⟩ := pure_done h
  exact bytes_done h₁

end Reader

namespace Container

variable {data : Bytes} {position next : Nat}

/-- The sections lie one after the other, from a position up to another. -/
inductive Tiles : Nat → List Section → Nat → Prop where
  | nil (position : Nat) : Tiles position [] position
  | cons {s : Section} {rest : List Section} {last : Nat} (later : Tiles s.stop rest last) :
      Tiles s.headerOffset (s :: rest) last

namespace Section

/-- The header, the name and the payload of a section lie in this order; a section that is not a
custom section has no name. -/
structure Ordered (s : Section) : Prop where
  header_le_offset : s.headerOffset + 2 ≤ s.offset
  offset_le_dataOffset : s.offset ≤ s.dataOffset
  dataOffset_le_stop : s.dataOffset ≤ s.stop
  nameless : s.id ≠ customId → s.dataOffset = s.offset ∧ s.name = ""

lemma Ordered.header_lt_stop {s : Section} (h : s.Ordered) : s.headerOffset < s.stop := by
  have := h.header_le_offset
  have := h.offset_le_dataOffset
  have := h.dataOffset_le_stop
  omega

/-- A header takes at least two bytes, and what follows it counts as the payload at first. -/
lemma readHeader_ordered {s : Section} (h : readHeader data position = .done s next) :
    s.headerOffset = position ∧ s.headerOffset + 2 ≤ s.offset ∧ s.offset = next ∧
      s.dataOffset = s.offset ∧ s.name = "" := by
  obtain ⟨headerOffset, p₁, h₁, h⟩ := Reader.bind_done h
  obtain ⟨id, p₂, h₂, h⟩ := Reader.bind_done h
  obtain ⟨size, p₃, h₃, h⟩ := Reader.bind_done h
  obtain ⟨offset, p₄, h₄, h⟩ := Reader.bind_done h
  obtain ⟨rfl, rfl⟩ := Reader.pure_done h
  have start := Reader.position_done h₁
  have afterId := Reader.byte_done (Reader.mapFault_done h₂)
  have afterSize := Reader.Advances.uleb (Reader.mapFault_done h₃)
  have content := Reader.position_done h₄
  refine ⟨start.1, ?_, ?_, rfl, rfl⟩
  · show headerOffset + 2 ≤ offset
    omega
  · show offset = _
    omega

lemma read_ordered {s : Section} (h : read data position = .done s next) :
    s.Ordered ∧ s.headerOffset = position := by
  obtain ⟨header, p₁, h₁, h⟩ := Reader.bind_done h
  obtain ⟨_, h⟩ := Reader.demand_done h
  obtain ⟨named, p₂, h₂, h⟩ := Reader.bind_done h
  obtain ⟨_, p₃, _, h⟩ := Reader.bind_done h
  obtain ⟨rfl, _⟩ := Reader.pure_done h
  obtain ⟨start, two, content, unnamed, noName⟩ := readHeader_ordered h₁
  unfold readName at h₂
  split at h₂
  · rename_i custom
    obtain ⟨name, p₄, h₄, h₂⟩ := Reader.bind_done h₂
    obtain ⟨dataOffset, p₅, h₅, h₂⟩ := Reader.bind_done h₂
    obtain ⟨_, p₆, h₆, h₂⟩ := Reader.bind_done h₂
    obtain ⟨rfl, _⟩ := Reader.pure_done h₂
    have afterName := (Reader.Within.name (Reader.mapFault_done h₄)).1
    have payload := Reader.position_done h₅
    have inside := of_decide_eq_true (Reader.check_done h₆).1
    refine ⟨⟨two, ?_, inside, fun other => absurd custom other⟩, start⟩
    show header.offset ≤ dataOffset
    omega
  · obtain ⟨rfl, _⟩ := Reader.pure_done h₂
    refine ⟨⟨two, Nat.le_of_eq unnamed.symm, ?_, fun _ => ⟨unnamed, noName⟩⟩, start⟩
    rw [unnamed]
    exact Nat.le_add_right _ _

/-- The payload of a section that ends inside the data is there, wherever the stream stands. -/
lemma readPayload_ok {s : Section} {stream : ByteStream} (ordered : s.Ordered)
    (inside : s.stop ≤ stream.data.length) (isOpen : stream.closed = false) :
    s.readPayload stream =
      (.ok ((stream.data.drop s.dataOffset).take (s.stop - s.dataOffset)),
        { stream with position := s.stop }) := by
  have before := ordered.dataOffset_le_stop
  have count : (s.stop : Int) - s.dataOffset = (s.stop - s.dataOffset : Nat) := by omega
  have long : ((stream.data.drop s.dataOffset).take (s.stop - s.dataOffset)).length =
      s.stop - s.dataOffset := by
    rw [List.length_take, List.length_drop]
    omega
  have there : stream.seek s.dataOffset = (.ok (), { stream with position := s.dataOffset }) := by
    show stream.read (Reader.seek s.dataOffset) = _
    unfold ByteStream.read
    rw [isOpen, Reader.seek_of_le (by omega)]
    rfl
  unfold readPayload
  rw [there, count]
  show ByteStream.read (Reader.bytes (s.stop - s.dataOffset)) { stream with position := s.dataOffset } = _
  unfold ByteStream.read Reader.bytes
  dsimp only
  rw [isOpen, if_pos long, Nat.add_sub_cancel' before]
  rfl

end Section

namespace Contents

lemma readSection_section {r : Section × Contents} (h : readSection data position = .done r next) :
    ∃ last, Section.read data position = .done r.1 last := by
  obtain ⟨s, p₁, h₁, h⟩ := Reader.bind_done h
  obtain ⟨_, p₂, _, h⟩ := Reader.bind_done h
  obtain ⟨contents, p₃, _, h⟩ := Reader.bind_done h
  obtain ⟨_, p₄, _, h⟩ := Reader.bind_done h
  obtain ⟨rfl, _⟩ := Reader.pure_done h
  exact ⟨p₁, h₁⟩

/-- Each section begins where the one before it was left, which is its end. -/
lemma tiles_of_repeatUntilAt {stop : Nat} {parts : List (Section × Contents)}
    (h : Reader.repeatUntilAt stop readSection readSection_advances data position =
      .done parts next) :
    Tiles position (parts.map Prod.fst) next := by
  fun_induction Reader.repeatUntilAt stop readSection readSection_advances data position
    generalizing parts next with
  | case1 => cases h
  | case2 position before r middle read rest last inner ih =>
    cases h
    obtain ⟨_, here⟩ := readSection_section read
    obtain ⟨_, rfl⟩ := Section.read_ordered here
    have ends := (readSection_done read).1
    have later := ih inner
    rw [← ends] at later
    exact .cons later
  | case3 => cases h
  | case4 position after =>
    cases h
    exact .nil position

end Contents

namespace Tiles

variable {sections : List Section} {first last : Nat}

/-- No section begins before the first does. -/
lemma le_headerOffset (tiles : Tiles first sections last) (ordered : ∀ s ∈ sections, s.Ordered) :
    ∀ s ∈ sections, first ≤ s.headerOffset := by
  induction tiles with
  | nil => nofun
  | @cons t rest last later ih =>
    obtain ⟨head, others⟩ := List.forall_mem_cons.1 ordered
    intro s mem
    cases mem with
    | head => exact Nat.le_refl _
    | tail _ mem =>
      have := head.header_lt_stop
      have := ih others s mem
      omega

lemma nodup (tiles : Tiles first sections last) (ordered : ∀ s ∈ sections, s.Ordered) :
    sections.Nodup := by
  induction tiles with
  | nil => exact List.nodup_nil
  | @cons t rest last later ih =>
    obtain ⟨head, others⟩ := List.forall_mem_cons.1 ordered
    refine List.nodup_cons.2 ⟨fun again => ?_, ih others⟩
    have := head.header_lt_stop
    have := later.le_headerOffset others t again
    omega

end Tiles

namespace Module

variable {m : Module}

/-- The preamble takes eight bytes. -/
lemma readPreamble_done {u : Unit} (h : readPreamble data 0 = .done u next) : next = 8 := by
  obtain ⟨_, h⟩ := Reader.demand_done h
  obtain ⟨first, p₁, h₁, h⟩ := Reader.bind_done h
  obtain ⟨_, p₂, h₂, h⟩ := Reader.bind_done h
  obtain ⟨version, p₃, h₃, h⟩ := Reader.bind_done h
  obtain ⟨_, rfl⟩ := Reader.check_done h
  obtain ⟨_, rfl⟩ := Reader.check_done h₂
  obtain rfl := Reader.unsigned_done (Reader.mapFault_done h₁)
  obtain rfl := Reader.unsigned_done (Reader.mapFault_done h₃)
  rfl

lemma tiles_of_parse (parsed : parse data = .ok m) : Tiles 8 m.sections data.length := by
  obtain ⟨parts, p₁, p₂, p₃, p₄, h₁, h₂, _, _, _, sections, _⟩ := parse_ok parsed
  have ends := readSections_end (readPreamble_inside h₁) h₂
  have tiles := Contents.tiles_of_repeatUntilAt h₂
  rw [readPreamble_done h₁, ends, ← sections] at tiles
  exact tiles

lemma ordered_of_parse (parsed : parse data = .ok m) : ∀ s ∈ m.sections, s.Ordered := by
  obtain ⟨parts, p₁, p₂, p₃, p₄, _, h₂, _, _, _, sections, _⟩ := parse_ok parsed
  intro s mem
  rw [sections] at mem
  obtain ⟨r, inside, rfl⟩ := List.mem_map.1 mem
  obtain ⟨p, q, read⟩ := Reader.read_of_mem_repeatUntilAt h₂ inside
  obtain ⟨_, here⟩ := Contents.readSection_section read
  exact (Section.read_ordered here).1

lemma sectionIndex_getElem (parsed : parse data = .ok m) {i : Nat} (h : i < m.sections.length) :
    m.sectionIndex m.sections[i] = i :=
  ((tiles_of_parse parsed).nodup (ordered_of_parse parsed)).idxOf_getElem i h

/-- The payloads of some sections, read one after the other from a stream. -/
def readPayloads : List Section → ByteStream → List (Except StreamFault Bytes) × ByteStream
  | [], stream => ([], stream)
  | s :: rest, stream =>
    let (payload, after) := s.readPayload stream
    let (others, last) := readPayloads rest after
    (payload :: others, last)

/-- What is read leaves the data as it is, so the order of the sections does not matter. -/
lemma readPayloads_ok (parsed : parse data = .ok m) {wanted : List Section}
    (known : ∀ s ∈ wanted, s ∈ m.sections) {stream : ByteStream} (onData : stream.data = data)
    (isOpen : stream.closed = false) :
    (readPayloads wanted stream).1 =
      wanted.map fun s => .ok ((data.drop s.dataOffset).take (s.stop - s.dataOffset)) := by
  induction wanted generalizing stream with
  | nil => rfl
  | cons s rest ih =>
    obtain ⟨mem, others⟩ := List.forall_mem_cons.1 known
    have inside : s.stop ≤ stream.data.length := by
      rw [onData]
      exact stop_le_of_parse parsed mem
    have here := Section.readPayload_ok (ordered_of_parse parsed s mem) inside isOpen
    have later := @ih others { stream with position := s.stop } onData isOpen
    unfold readPayloads
    rw [here]
    dsimp only
    rw [later, onData]
    rfl

/-- The relocation sections of a module are read as the lists that they are. -/
lemma listed_of_parse (parsed : parse data = .ok m) :
    List.Forall₂ (RelocationSection.Listed m.sections m.data)
      (m.sections.filter RelocationSection.isRelocation) m.relocations := by
  obtain ⟨parts, p₁, p₂, p₃, p₄, _, _, _, h₄, same, sections, _⟩ := parse_ok parsed
  have listed := RelocationSection.readAll_listed h₄
  rw [← sections, ← same] at listed
  exact listed

/-- The sections of a module lie side by side between the preamble and the end of the data, each
with its parts in order; the payloads can be read in any order and are the stretches that the
sections say; every section is known by its index, and its relocations are what the last relocation
section lists for that index. -/
theorem layout_of_parse (parsed : parse data = .ok m) :
    Tiles 8 m.sections data.length ∧
    (∀ s ∈ m.sections, s.Ordered ∧
      m.payload s = (data.drop s.dataOffset).take (s.stop - s.dataOffset)) ∧
    (∀ (wanted : List Section) (stream : ByteStream), (∀ s ∈ wanted, s ∈ m.sections) →
      stream.data = data → stream.closed = false →
      (readPayloads wanted stream).1 =
        wanted.map fun s => .ok ((data.drop s.dataOffset).take (s.stop - s.dataOffset))) ∧
    ∀ (i : Nat) (h : i < m.sections.length), m.sectionIndex m.sections[i] = i ∧
      ∃ entries, m.LastListing i entries ∧
        m.relocationsOf m.sections[i] = entries.map (·.inPayload m.sections[i].nameSize) := by
  refine ⟨tiles_of_parse parsed, ?_, ?_, ?_⟩
  · intro s mem
    refine ⟨ordered_of_parse parsed s mem, ?_⟩
    unfold payload
    rw [data_of_parse parsed]
  · intro wanted stream known onData isOpen
    exact readPayloads_ok parsed known onData isOpen
  · intro i h
    have found : m.sections[i]? = some m.sections[i] := List.getElem?_eq_getElem h
    have index := sectionIndex_getElem parsed h
    obtain ⟨entries, last, shifted, _⟩ := relocationsAt_last (listed_of_parse parsed) found
    refine ⟨index, entries, last, ?_⟩
    unfold relocationsOf
    rw [index]
    exact shifted

/-- A module with a function, debug information and two relocation sections for it. -/
def twiceListed : Bytes :=
  [0x00, 0x61, 0x73, 0x6d, 0x01, 0x00, 0x00, 0x00,
    0x0a, 0x04, 0x01, 0x02, 0x00, 0x0b,
    0x00, 0x14, 0x0b, 0x2e, 0x64, 0x65, 0x62, 0x75, 0x67, 0x5f, 0x69, 0x6e, 0x66, 0x6f,
    0xa0, 0xa1, 0xa2, 0xa3, 0xa4, 0xa5, 0xa6, 0xa7,
    0x00, 0x11, 0x07, 0x6c, 0x69, 0x6e, 0x6b, 0x69, 0x6e, 0x67,
    0x02, 0x08, 0x06, 0x01, 0x00, 0x00, 0x00, 0x01, 0x66,
    0x00, 0x0e, 0x07, 0x72, 0x65, 0x6c, 0x6f, 0x63, 0x2e, 0x78,
    0x01, 0x01, 0x08, 0x10, 0x00, 0x00,
    0x00, 0x1c, 0x11, 0x72, 0x65, 0x6c, 0x6f, 0x63, 0x2e, 0x2e, 0x64, 0x65, 0x62, 0x75, 0x67, 0x5f,
    0x69, 0x6e, 0x66, 0x6f,
    0x01, 0x02, 0x08, 0x0c, 0x00, 0x05, 0x05, 0x0e, 0x00, 0x7d]

/-- Five sections, of which the last lists two relocations for the second. -/
theorem layout_twiceListed :
    ∃ m, parse twiceListed = .ok m ∧ m.sections.length = 5 ∧ Tiles 8 m.sections 101 ∧
      ∃ entries, m.LastListing 1 entries ∧ entries.length = 2 := by
  have accepted : (parse twiceListed >>= fun m =>
      pure (m.sections.length, (m.relocationsAt 1).map List.length)) = .ok (5, some 2) := by
    decide +kernel
  obtain ⟨m, parsed, facts⟩ := Except.bind_ok accepted
  obtain ⟨five, two⟩ := Prod.mk.inj (Except.ok.inj facts)
  obtain ⟨tiles, _, _, known⟩ := layout_of_parse parsed
  have second : 1 < m.sections.length := by omega
  obtain ⟨index, entries, last, shifted⟩ := known 1 second
  refine ⟨m, parsed, five, tiles, entries, last, ?_⟩
  obtain ⟨found, at_, length⟩ := Option.map_eq_some_iff.1 two
  unfold relocationsOf at shifted
  rw [index, at_, Option.getD_some] at shifted
  rw [← length, shifted, List.length_map]

end Module

end Container

end WasmSourceMap
