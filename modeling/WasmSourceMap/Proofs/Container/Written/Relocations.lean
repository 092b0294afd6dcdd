import WasmSourceMap.Proofs.Container.Written.Modules
import WasmSourceMap.Proofs.Reader.Refusing

/-!
# Relocations as they are written

The written forms of relocations and of the lists that relocation sections hold. Whether an addend
is written behind a relocation depends on its code (`AddendType`), so one code that is taken for
another would shift all relocations behind it. A list is read back if its target exists and no
relocation lies in the name of the target (`RelocationList.read_of_fits`), and refused otherwise
(`RelocationList.read_of_noTarget`, `RelocationList.read_of_inName`).
-/

namespace WasmSourceMap.Container

/-- A relocation is read as the file has it, and then its place is compared with the name. -/
lemma Relocation.read_eq (sectionName : String) (nameSize : Nat) :
    Relocation.read sectionName nameSize = ListedRelocation.read >>= fun l =>
      Reader.check (nameSize ≤ l.place) (.relocationInName sectionName) >>= fun _ =>
        pure (l.inPayload nameSize) := by
  unfold Relocation.read ListedRelocation.read
  simp only [Reader.bind_assoc]
  rfl

namespace Written

/-- The types of relocations with an addend: addresses in memory, and offsets in functions and in
sections. -/
inductive AddendType where
  | memoryAddressLeb
  | memoryAddressSleb
  | memoryAddressI32
  | functionOffsetI32
  | sectionOffsetI32
  | memoryAddressRelSleb
  | memoryAddressLeb64
  | memoryAddressSleb64
  | memoryAddressI64
  | memoryAddressRelSleb64
  | memoryAddressTlsSleb
  | functionOffsetI64
  | memoryAddressLocrelI32
  | memoryAddressTlsSleb64
deriving DecidableEq, Repr

namespace AddendType

def code : AddendType → Nat
  | memoryAddressLeb => 3
  | memoryAddressSleb => 4
  | memoryAddressI32 => 5
  | functionOffsetI32 => 8
  | sectionOffsetI32 => 9
  | memoryAddressRelSleb => 11
  | memoryAddressLeb64 => 14
  | memoryAddressSleb64 => 15
  | memoryAddressI64 => 16
  | memoryAddressRelSleb64 => 17
  | memoryAddressTlsSleb => 21
  | functionOffsetI64 => 22
  | memoryAddressLocrelI32 => 23
  | memoryAddressTlsSleb64 => 25

/-- The width of an address that is stored as it is. -/
def width? : AddendType → Option Int
  | memoryAddressI32 => some 4
  | functionOffsetI32 => some 4
  | sectionOffsetI32 => some 4
  | memoryAddressI64 => some 8
  | functionOffsetI64 => some 8
  | _ => none

def all : List AddendType :=
  [memoryAddressLeb, memoryAddressSleb, memoryAddressI32, functionOffsetI32, sectionOffsetI32,
    memoryAddressRelSleb, memoryAddressLeb64, memoryAddressSleb64, memoryAddressI64,
    memoryAddressRelSleb64, memoryAddressTlsSleb, functionOffsetI64, memoryAddressLocrelI32,
    memoryAddressTlsSleb64]

/-- The codes with an addend are those of the types with one. -/
lemma contains_codesWithAddend_iff (code : Nat) :
    Relocation.codesWithAddend.contains code = true ↔ ∃ type : AddendType, type.code = code := by
  have codes : Relocation.codesWithAddend = all.map AddendType.code := rfl
  have complete : ∀ type : AddendType, type ∈ all := by
    intro type
    cases type <;> decide
  rw [List.contains_iff_mem, codes, List.mem_map]
  exact ⟨fun ⟨type, _, same⟩ => ⟨type, same⟩, fun ⟨type, same⟩ => ⟨type, complete type, same⟩⟩

/-- Whether a code has an addend can be computed. -/
lemma announced {code : Nat} {written : Bool}
    (h : Relocation.codesWithAddend.contains code = written) :
    written = true ↔ ∃ type : AddendType, type.code = code := by
  rw [← h, contains_codesWithAddend_iff]

/-- The codes of absolute relocations are those of the types with a width. -/
lemma ofCode_eq_absolute_iff (code : Nat) (width : Int) :
    RelocationKind.ofCode code = .absolute width ↔
      ∃ type : AddendType, type.code = code ∧ type.width? = some width := by
  constructor
  · intro h
    unfold RelocationKind.ofCode at h
    split at h
    · rename_i short
      cases h
      simp only [List.contains_iff_mem, List.mem_cons, List.not_mem_nil, or_false] at short
      rcases short with rfl | rfl | rfl
      · exact ⟨memoryAddressI32, rfl, rfl⟩
      · exact ⟨functionOffsetI32, rfl, rfl⟩
      · exact ⟨sectionOffsetI32, rfl, rfl⟩
    split at h
    · rename_i long
      cases h
      simp only [List.contains_iff_mem, List.mem_cons, List.not_mem_nil, or_false] at long
      rcases long with rfl | rfl
      · exact ⟨memoryAddressI64, rfl, rfl⟩
      · exact ⟨functionOffsetI64, rfl, rfl⟩
    · cases h
  · rintro ⟨type, rfl, same⟩
    cases type <;> cases same <;> rfl

end AddendType

/-- A relocation: its code, its place in the content of the target, the index of its symbol and an
addend, if its type has one. -/
structure Relocation where
  code : UInt8
  place : Numeral
  symbol : Numeral
  addend : Option Numeral
  announced : addend.isSome = true ↔ ∃ type : AddendType, type.code = code.toNat

namespace Relocation

def bytes (r : Relocation) : Bytes :=
  r.code :: (r.place.bytes ++ (r.symbol.bytes ++ (r.addend.map Numeral.bytes).getD []))

/-- The relocation as the file has it. -/
def listed (r : Relocation) : ListedRelocation where
  code := r.code.toNat
  place := r.place.value
  symbol := r.symbol.value
  addend := (r.addend.map Numeral.signed).getD 0

/-- An addend is read if one is written. -/
lemma readAddend_reads (r : Relocation) (start : Nat) :
    (Container.Relocation.readAddend r.code.toNat).Reads start
      ((r.addend.map Numeral.bytes).getD []) r.listed.addend := by
  have asked : Container.Relocation.codesWithAddend.contains r.code.toNat = r.addend.isSome := by
    rw [Bool.eq_iff_iff, r.announced, AddendType.contains_codesWithAddend_iff]
  unfold Container.Relocation.readAddend listed
  rw [asked]
  cases r.addend with
  | none => exact .pure 0
  | some addend => exact (addend.reads_signed start).mapFault

lemma reads (r : Relocation) (start : Nat) :
    ListedRelocation.read.Reads start r.bytes r.listed := by
  refine .bind (Reader.Reads.byte r.code).mapFault (.bind (r.place.reads _).mapFault ?_)
  exact .bind (r.symbol.reads _).mapFault (.bind_pure (r.readAddend_reads _) _)

variable {nameSize : Nat} (sectionName : String) (r : Relocation)

/-- A relocation behind the name of the target is kept with its place in the payload. -/
lemma reads_inPayload (behind : nameSize ≤ r.place.value) (start : Nat) :
    (Container.Relocation.read sectionName nameSize).Reads start r.bytes
      (r.listed.inPayload nameSize) := by
  rw [Container.Relocation.read_eq]
  exact .bind_done (r.reads start) (.bind_empty (.check (decide_eq_true behind) _) (.pure _))

/-- A relocation in the name of the target is refused. -/
lemma refuses_inName (before : r.place.value < nameSize) (start : Nat) :
    (Container.Relocation.read sectionName nameSize).Refuses start r.bytes
      (.relocationInName sectionName) := by
  rw [Container.Relocation.read_eq]
  have inName : Reader.Refuses (Reader.check (nameSize ≤ r.listed.place)
      (Fault.relocationInName sectionName)) (start + r.bytes.length) [] _ :=
    .check (decide_eq_false (Nat.not_le.2 before)) _
  exact (r.reads start).done_refuses (inName.bind _ [])

end Relocation

/-- A relocation section behind its name: the index of the target and the relocations. -/
structure RelocationList where
  target : Numeral
  entries : Counted Relocation

namespace RelocationList

def bytes (l : RelocationList) : Bytes := l.target.bytes ++ l.entries.bytes Relocation.bytes

/-- The relocations of a target whose name takes so many bytes. -/
def shown (l : RelocationList) (nameSize : Nat) : RelocationSection where
  target := l.target.value
  entries := l.entries.items.map fun r => r.listed.inPayload nameSize

/-- The list is what stands at the payload of a section in a file. -/
def StandsIn (data : Bytes) (s : Container.Section) (l : RelocationList) : Prop :=
  s.dataOffset ≤ data.length ∧ ∃ rest, data.drop s.dataOffset = l.bytes ++ rest

variable {data : Bytes} {s : Container.Section} {l : RelocationList}

/-- A section is read from its payload on, wherever the reader stands. -/
lemma read_of_le (places : List Container.Section) (inside : s.dataOffset ≤ data.length)
    (position : Nat) : RelocationSection.read places s data position =
      (Reader.uleb.mapFault Fault.unreadable >>= fun target =>
        RelocationSection.readEntries places s target >>= fun entries =>
          pure { target, entries }) data s.dataOffset :=
  Reader.bind_of_done (Reader.mapFault_of_done (Reader.seek_of_le inside position))

variable {places : List Container.Section} {t : Container.Section}

/-- A list with its relocations behind the name of the target is read back. -/
lemma read_of_fits (stands : l.StandsIn data s) (found : places[l.target.value]? = some t)
    (behind : ∀ r ∈ l.entries.items, t.nameSize ≤ r.place.value) (position : Nat) :
    ∃ next, RelocationSection.read places s data position = .done (l.shown t.nameSize) next := by
  obtain ⟨inside, rest, here⟩ := stands
  have entries : (RelocationSection.readEntries places s l.target.value).Reads
      (s.dataOffset + l.target.bytes.length) (l.entries.bytes Relocation.bytes)
      (l.shown t.nameSize).entries := by
    unfold RelocationSection.readEntries
    rw [found]
    refine .bind (l.entries.count.reads _).mapFault ?_
    rw [l.entries.counts, shown, ← Reader.layOut_const]
    refine Reader.Reads.times_of_mem _ (fun start r mem => ?_) _
    exact r.reads_inPayload s.name (behind r mem) start
  rw [read_of_le places inside]
  have target := (l.target.reads s.dataOffset).mapFault (f := Fault.unreadable)
  exact ⟨_, target.bind (entries.bind_pure _) inside here⟩

/-- What is refused of a list behind its target is refused of the section whose payload it is. -/
lemma read_of_refused {written : Bytes} {fault : Fault} (stands : l.StandsIn data s)
    (refused : (RelocationSection.readEntries places s l.target.value).Refuses
      (s.dataOffset + l.target.bytes.length) written fault)
    (front : written <+: l.entries.bytes Relocation.bytes) (position : Nat) :
    ∃ next, RelocationSection.read places s data position = .failed fault next := by
  obtain ⟨inside, rest, here⟩ := stands
  obtain ⟨back, entries⟩ := front
  have target := (l.target.reads s.dataOffset).mapFault (f := Fault.unreadable)
  have behind := refused.bind
    (fun entries => (pure ⟨l.target.value, entries⟩ : Reader Fault RelocationSection)) back
  rw [entries] at behind
  rw [read_of_le places inside]
  exact target.bind_refuses behind inside here

/-- A list with a target that does not exist is refused. -/
lemma read_of_noTarget (stands : l.StandsIn data s) (outside : places.length ≤ l.target.value)
    (position : Nat) : ∃ next, RelocationSection.read places s data position =
      .failed (.unknownTarget s.name l.target.value) next := by
  have refused : (RelocationSection.readEntries places s l.target.value).Refuses
      (s.dataOffset + l.target.bytes.length) [] (.unknownTarget s.name l.target.value) := by
    unfold RelocationSection.readEntries
    rw [List.getElem?_eq_none outside]
    exact .fail _
  exact read_of_refused stands refused (List.nil_prefix ..) position

/-- A list with a relocation in the name of the target is refused. -/
lemma read_of_inName (stands : l.StandsIn data s) (found : places[l.target.value]? = some t)
    (inName : ∃ r ∈ l.entries.items, ¬t.nameSize ≤ r.place.value) (position : Nat) :
    ∃ next, RelocationSection.read places s data position =
      .failed (.relocationInName s.name) next := by
  refine read_of_refused stands ?_ (List.prefix_refl _) position
  unfold RelocationSection.readEntries
  rw [found]
  refine (l.entries.count.reads _).mapFault.bind_refuses ?_
  rw [l.entries.counts]
  have behind : ∀ start (r : Relocation), t.nameSize ≤ r.place.value →
      (Container.Relocation.read s.name t.nameSize).Reads start r.bytes
        (r.listed.inPayload t.nameSize) :=
    fun start r behind => r.reads_inPayload s.name behind start
  refine .times behind (fun start r before => ?_) inName _
  exact r.refuses_inName s.name (Nat.not_le.1 before) start

end RelocationList

end Written

end WasmSourceMap.Container
