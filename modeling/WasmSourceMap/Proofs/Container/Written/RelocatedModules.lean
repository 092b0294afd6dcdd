import WasmSourceMap.Proofs.Container.Written.Modules
import WasmSourceMap.Proofs.Container.Written.Relocations

/-!
# Modules with relocations

In a module of which the relocation sections hold lists of relocations (`RelocatableModule`) the
relocations are those that were written, in their order, each counted from the payload of its
target. The bytes are a module if and only if the target of every list exists and no relocation lies
in the name of a target; otherwise the first list that does not fit is what they are refused for
(`relocations_of_write`).
-/

namespace WasmSourceMap.Container

namespace RelocationSection

variable {sections wanted : List Section} {data : Bytes}

/-- A relocation section is read, wherever the reader stands. -/
def ReadAs (sections : List Section) (data : Bytes) (s : Section) (r : RelocationSection) : Prop :=
  ∀ position, ∃ next, read sections s data position = .done r next

lemma readAll_done {rs : List RelocationSection}
    (h : List.Forall₂ (ReadAs sections data) wanted rs) (position : Nat) :
    ∃ next, readAll sections wanted data position = .done rs next := by
  induction h generalizing position with
  | nil => exact ⟨position, rfl⟩
  | cons first _ ih =>
    obtain ⟨middle, here⟩ := first position
    obtain ⟨next, later⟩ := ih middle
    exact ⟨next, (Reader.bind_of_done here).trans (Reader.bind_of_done later)⟩

/-- A relocation section that is refused behind others that are read. -/
lemma readAll_failed {rs : List RelocationSection} {s : Section} {fault : Fault}
    (h : List.Forall₂ (ReadAs sections data) wanted rs)
    (refused : ∀ position, ∃ next, read sections s data position = .failed fault next)
    (after : List Section) (position : Nat) :
    ∃ next, readAll sections (wanted ++ s :: after) data position = .failed fault next := by
  induction h generalizing position with
  | nil =>
    obtain ⟨next, here⟩ := refused position
    exact ⟨next, Reader.bind_of_failed here⟩
  | cons first _ ih =>
    obtain ⟨middle, here⟩ := first position
    obtain ⟨next, later⟩ := ih middle
    exact ⟨next, (Reader.bind_of_done here).trans (Reader.bind_of_failed later)⟩

end RelocationSection

namespace Module

/-- The module is refused for what its relocation sections are refused for. -/
lemma parse_of_failed {data : Bytes} {parts : List (Section × Contents)} {symbols : List Symbol}
    {fault : Fault} {p₁ p₂ p₃ p₄ : Nat} (h₁ : readPreamble data 0 = .done () p₁)
    (h₂ : readSections data p₁ = .done parts p₂)
    (h₃ : readSymbols (parts.map Prod.fst) data p₂ = .done symbols p₃)
    (h₄ : RelocationSection.readAll (parts.map Prod.fst)
      ((parts.map Prod.fst).filter RelocationSection.isRelocation) data p₃ = .failed fault p₄) :
    parse data = .error fault := by
  have read : ∃ next, Module.read data 0 = .failed fault next :=
    ⟨p₄, (Reader.bind_of_done h₁).trans <| (Reader.bind_of_done h₂).trans <|
      (Reader.bind_of_done h₃).trans (Reader.bind_of_failed h₄)⟩
  obtain ⟨next, read⟩ := read
  exact Reader.run_of_failed read

/-- What a relocation section lists holds for its target if no later one lists some for it. -/
lemma relocationsAt_of_split {m : Module} {before after : List RelocationSection}
    {r : RelocationSection} (split : m.relocations = before ++ r :: after)
    (last : ∀ later ∈ after, later.target ≠ r.target) :
    m.relocationsAt r.target = some r.entries := by
  have none : after.reverse.find? (fun later => later.target == r.target) = none := by
    apply List.find?_eq_none.2
    intro later mem same
    exact last later (List.mem_reverse.1 mem) (beq_iff_eq.1 same)
  have found : (r :: before.reverse).find? (fun own => own.target == r.target) = some r :=
    List.find?_cons_of_pos (beq_self_eq_true r.target)
  unfold relocationsAt
  rw [split, List.reverse_append, List.reverse_cons, List.append_assoc, List.find?_append, none,
    Option.none_or, List.singleton_append, found]
  rfl

end Module

namespace Written

/-- A written relocation as it is read for a target: its offset counts from the payload of the
target, an addend that is not written is zero, and its kind is absolute if its type has a width. -/
structure Relocation.ShownBy (t : Container.Section) (w : Relocation) (r : Container.Relocation) :
    Prop where
  offset : r.offset = w.place.value - (t.dataOffset - t.offset : Nat)
  code : r.code = w.code.toNat
  symbol : r.symbol = some (w.symbol.value : Int)
  addend : r.addend = (w.addend.map Numeral.signed).getD 0
  absolute : ∀ width, r.kind = .absolute width ↔
    ∃ type : AddendType, type.code = w.code.toNat ∧ type.width? = some width
  other : (∀ type : AddendType, type.code = w.code.toNat → type.width? = none) →
    r.kind = .other ∧ r.kind.width = 0

lemma Relocation.shownBy_inPayload (t : Container.Section) (w : Relocation) :
    w.ShownBy t (w.listed.inPayload t.nameSize) where
  offset := rfl
  code := rfl
  symbol := rfl
  addend := rfl
  absolute := AddendType.ofCode_eq_absolute_iff w.code.toNat
  other := by
    intro none
    show RelocationKind.ofCode w.code.toNat = .other ∧
      (RelocationKind.ofCode w.code.toNat).width = 0
    cases kind : RelocationKind.ofCode w.code.toNat with
    | absolute width =>
      obtain ⟨type, same, some⟩ := (AddendType.ofCode_eq_absolute_iff _ width).1 kind
      rw [none type same] at some
      cases some
    | other => exact ⟨rfl, rfl⟩

/-- How many bytes a section has between its length and its payload: those of its name. -/
def Section.nameSize : Section → Nat
  | custom c => c.nameField.length + c.nameBytes.length
  | plain .. => 0

lemma Section.nameSize_placed (start : Nat) (s : Section) :
    (s.placed start).nameSize = s.nameSize := by
  cases s with
  | custom c =>
    show start + 1 + c.sizeField.length + c.nameField.length + c.nameBytes.length -
      (start + 1 + c.sizeField.length) = c.nameField.length + c.nameBytes.length
    omega
  | plain size content => exact Nat.sub_self _

/-- Where a section stands in a file with its payload. -/
def Section.StandsAs (data : Bytes) (s : Section) (t : Container.Section) : Prop :=
  ∃ start, t = s.placed start ∧ t.dataOffset ≤ data.length ∧
    ∃ rest, data.drop t.dataOffset = s.payload ++ rest

lemma standsAs_placedAll (sections : List Section) :
    List.Forall₂ (Section.StandsAs (write sections)) sections (placedAll sections) := by
  obtain ⟨inside, here⟩ := drop_preamble sections
  refine Reader.forall₂_layOut inside here fun start s _ rest inside here => ?_
  obtain ⟨insidePayload, atPayload⟩ := s.drop_dataOffset inside here
  exact ⟨start, rfl, insidePayload, rest, atPayload⟩

/-- A custom section that holds a list of relocations. -/
structure RelocationSection where
  custom : CustomSection
  list : RelocationList
  holds : custom.payload = list.bytes

namespace RelocationSection

variable {sections : List Section}

/-- The target exists, and no relocation lies in its name. -/
def Fits (sections : List Section) (r : RelocationSection) : Prop :=
  ∃ t, sections[r.list.target.value]? = some t ∧
    ∀ w ∈ r.list.entries.items, t.nameSize ≤ w.place.value

/-- Why a relocation section is refused: its target does not exist, or a relocation lies in the name
of the target. -/
inductive Refused (sections : List Section) (r : RelocationSection) : Fault → Prop where
  | noTarget (outside : sections.length ≤ r.list.target.value) :
    Refused sections r (.unknownTarget r.custom.name r.list.target.value)
  | inName {t : Section} (found : sections[r.list.target.value]? = some t)
    (inName : ∃ w ∈ r.list.entries.items, ¬t.nameSize ≤ w.place.value) :
    Refused sections r (.relocationInName r.custom.name)

lemma fits_or_refused (sections : List Section) (r : RelocationSection) :
    r.Fits sections ∨ ∃ fault, r.Refused sections fault := by
  cases found : sections[r.list.target.value]? with
  | none => exact .inr ⟨_, .noTarget (List.getElem?_eq_none_iff.1 found)⟩
  | some t =>
    by_cases behind : ∀ w ∈ r.list.entries.items, t.nameSize ≤ w.place.value
    · exact .inl ⟨t, found, behind⟩
    · simp only [not_forall, exists_prop] at behind
      exact .inr ⟨_, .inName found behind⟩

/-- What is read of the list. -/
def shown (sections : List Section) (r : RelocationSection) : Container.RelocationSection :=
  r.list.shown ((sections[r.list.target.value]?.map Section.nameSize).getD 0)

/-- Where a relocation section stands in a module. -/
def StandsAs (data : Bytes) (r : RelocationSection) (s : Container.Section) : Prop :=
  r.list.StandsIn data s ∧ s.name = r.custom.name

variable {data : Bytes} {r : RelocationSection} {s : Container.Section}

lemma getElem?_placedAll (sections : List Section) (i : Nat) :
    ∃ start, (placedAll sections)[i]? = sections[i]?.map (Section.placed start) :=
  ⟨_, Reader.getElem?_layOut _ 8 sections i⟩

lemma readAs_of_fits (stands : r.StandsAs data s) (fits : r.Fits sections) :
    Container.RelocationSection.ReadAs (placedAll sections) data s (r.shown sections) := by
  obtain ⟨t, found, behind⟩ := fits
  obtain ⟨start, place⟩ := getElem?_placedAll sections r.list.target.value
  rw [found] at place
  unfold shown
  rw [found, Option.map_some, Option.getD_some, ← t.nameSize_placed start]
  rw [← t.nameSize_placed start] at behind
  exact r.list.read_of_fits stands.1 place behind

lemma read_of_refused {fault : Fault} (stands : r.StandsAs data s)
    (refused : r.Refused sections fault) (position : Nat) :
    ∃ next, Container.RelocationSection.read (placedAll sections) s data position =
      .failed fault next := by
  cases refused with
  | noTarget outside =>
    have places : (placedAll sections).length ≤ r.list.target.value := by
      rwa [placedAll, Reader.length_layOut]
    rw [← stands.2]
    exact RelocationList.read_of_noTarget stands.1 places position
  | @inName t found inName =>
    obtain ⟨start, place⟩ := getElem?_placedAll sections r.list.target.value
    rw [found] at place
    rw [← t.nameSize_placed start] at inName
    rw [← stands.2]
    exact RelocationList.read_of_inName stands.1 place inName position

/-- A relocation section as a module keeps it: the target is a section of the module, and the
relocations are those of the list. -/
def ShownBy (m : Module) (r : RelocationSection) (shown : Container.RelocationSection) : Prop :=
  ∃ t, m.sections[r.list.target.value]? = some t ∧ shown.target = r.list.target.value ∧
    List.Forall₂ (Relocation.ShownBy t) r.list.entries.items shown.entries

lemma shownBy_shown {m : Module} (places : m.sections = placedAll sections)
    (fits : r.Fits sections) : r.ShownBy m (r.shown sections) := by
  obtain ⟨t, found, _⟩ := fits
  obtain ⟨start, place⟩ := getElem?_placedAll sections r.list.target.value
  rw [found] at place
  refine ⟨t.placed start, by rw [places, place, Option.map_some], rfl, ?_⟩
  unfold shown
  rw [found, Option.map_some, Option.getD_some, ← t.nameSize_placed start]
  refine List.forall₂_map_right_iff.2 (List.forall₂_same.2 fun w _ => ?_)
  exact w.shownBy_inPayload _

end RelocationSection

/-- A module of which every relocation section holds a list of relocations. -/
structure RelocatableModule where
  sections : List Section
  lists : List RelocationSection
  all : sections.filter Section.isRelocation = lists.map fun r => .custom r.custom

namespace RelocatableModule

variable (o : RelocatableModule) {symbols : List Symbol}

/-- Why the module is refused: a relocation section is, and those before it fit. -/
def Refused (fault : Fault) : Prop :=
  ∃ before r after, o.lists = before ++ r :: after ∧ (∀ b ∈ before, b.Fits o.sections) ∧
    r.Refused o.sections fault

/-- Each list stands where its section is placed. -/
lemma standsAs : List.Forall₂ (RelocationSection.StandsAs (write o.sections)) o.lists
    ((placedAll o.sections).filter Container.RelocationSection.isRelocation) := by
  have same : ∀ (s : Section) t, s.StandsAs (write o.sections) t →
      (s.isRelocation = true ↔ Container.RelocationSection.isRelocation t = true) := by
    rintro s t ⟨start, rfl, _⟩
    rw [s.isRelocation_placed start]
  have filtered := List.rel_filter (fun s t => same s t) (standsAs_placedAll o.sections)
  rw [o.all, List.forall₂_map_left_iff] at filtered
  refine filtered.imp fun r t stands => ?_
  obtain ⟨start, rfl, inside, rest, here⟩ := stands
  rw [Section.payload, r.holds] at here
  exact ⟨⟨inside, rest, here⟩, rfl⟩

lemma fits_or_refused : (∀ r ∈ o.lists, r.Fits o.sections) ∨ ∃ fault, o.Refused fault := by
  unfold Refused
  generalize o.lists = lists
  induction lists with
  | nil => exact .inl nofun
  | cons r rest ih =>
    obtain fits | ⟨fault, refused⟩ := r.fits_or_refused o.sections
    · obtain others | ⟨fault, before, r', after, rfl, front, refused⟩ := ih
      · exact .inl (List.forall_mem_cons.2 ⟨fits, others⟩)
      · have front := List.forall_mem_cons.2 ⟨fits, front⟩
        exact .inr ⟨fault, r :: before, r', after, rfl, front, refused⟩
    · exact .inr ⟨fault, [], r, rest, rfl, nofun, refused⟩

/-- Some lists that fit are read from their sections. -/
lemma readAs_of_fits {lists : List RelocationSection} {wanted : List Container.Section}
    (stand : List.Forall₂ (RelocationSection.StandsAs (write o.sections)) lists wanted)
    (fits : ∀ r ∈ lists, r.Fits o.sections) :
    List.Forall₂ (Container.RelocationSection.ReadAs (placedAll o.sections) (write o.sections))
      wanted (lists.map (RelocationSection.shown o.sections)) := by
  have both := (List.forall₂_and_left lists wanted).2 ⟨fits, stand⟩
  rw [List.forall₂_map_right_iff]
  exact both.flip.imp fun s r ⟨fits, stands⟩ => r.readAs_of_fits stands fits

/-- If all lists fit, the bytes are a module. -/
lemma parse_of_fits (links : Links o.sections symbols) (fits : ∀ r ∈ o.lists, r.Fits o.sections) :
    ∃ m, Module.parse (write o.sections) = .ok m ∧
      m.relocations = o.lists.map (RelocationSection.shown o.sections) := by
  obtain ⟨parts, read, places, _⟩ := readSections_write o.sections
  obtain ⟨position, symbolsRead⟩ := links.readSymbols_done (write o.sections).length
  obtain ⟨next, relocations⟩ :=
    Container.RelocationSection.readAll_done (o.readAs_of_fits o.standsAs fits) position
  rw [← places] at symbolsRead relocations
  exact ⟨_, Module.parse_of_done (readPreamble_preamble _) read symbolsRead relocations, rfl⟩

/-- The first list that does not fit is what the bytes are refused for. -/
lemma parse_of_refused (links : Links o.sections symbols) {fault : Fault}
    (refused : o.Refused fault) : Module.parse (write o.sections) = .error fault := by
  obtain ⟨before, r, after, split, fits, refused⟩ := refused
  have stand := o.standsAs
  rw [split] at stand
  obtain ⟨wanted, s, rest, same, front, here, _⟩ := forall₂_split stand.flip
  obtain ⟨parts, read, places, _⟩ := readSections_write o.sections
  obtain ⟨position, symbolsRead⟩ := links.readSymbols_done (write o.sections).length
  obtain ⟨next, relocations⟩ := Container.RelocationSection.readAll_failed
    (o.readAs_of_fits front.flip fits) (r.read_of_refused here refused) rest position
  rw [← same] at relocations
  rw [← places] at symbolsRead relocations
  exact Module.parse_of_failed (readPreamble_preamble _) read symbolsRead relocations

variable {o} {m : Module}

/-- If the bytes are a module, all lists fit, and the module has them in their order. -/
lemma relocations_of_parse (links : Links o.sections symbols)
    (parsed : Module.parse (write o.sections) = .ok m) :
    (∀ r ∈ o.lists, r.Fits o.sections) ∧
      m.relocations = o.lists.map (RelocationSection.shown o.sections) := by
  obtain fits | ⟨fault, refused⟩ := o.fits_or_refused
  · obtain ⟨m', parsed', relocations⟩ := o.parse_of_fits links fits
    rw [parsed] at parsed'
    cases parsed'
    exact ⟨fits, relocations⟩
  · rw [o.parse_of_refused links refused] at parsed
    cases parsed

/-- A target has the relocations of the last list for it. -/
lemma relocationsOf_of_parse (links : Links o.sections symbols)
    (parsed : Module.parse (write o.sections) = .ok m) {before after : List RelocationSection}
    {r : RelocationSection} (split : o.lists = before ++ r :: after)
    (last : ∀ later ∈ after, later.list.target.value ≠ r.list.target.value) :
    ∃ t, m.sections[r.list.target.value]? = some t ∧
      List.Forall₂ (Relocation.ShownBy t) r.list.entries.items (m.relocationsOf t) := by
  obtain ⟨fits, relocations⟩ := relocations_of_parse links parsed
  have mem : r ∈ o.lists := by
    rw [split]
    exact List.mem_append_right before List.mem_cons_self
  have places := (of_parse_write links parsed).2.1
  obtain ⟨t, found, _, shown⟩ := RelocationSection.shownBy_shown places (fits r mem)
  have listed : m.relocationsAt r.list.target.value = some (r.shown o.sections).entries := by
    rw [split, List.map_append, List.map_cons] at relocations
    refine Module.relocationsAt_of_split relocations fun later mem => ?_
    obtain ⟨r', inside, rfl⟩ := List.mem_map.1 mem
    exact last r' inside
  refine ⟨t, found, ?_⟩
  obtain ⟨known, rfl⟩ := List.getElem?_eq_some_iff.1 found
  rw [Module.relocationsOf, Module.sectionIndex_getElem parsed known, listed]
  exact shown

end RelocatableModule

variable {symbols : List Symbol}

/-- A module with relocation sections is refused if and only if the target of one of them does not
exist or a relocation of one lies in the name of its target. Otherwise the relocations are those
that are written, and those of a section are what the last relocation section for it lists. -/
theorem relocations_of_write (o : RelocatableModule) (links : Links o.sections symbols) :
    ((∃ m, Module.parse (write o.sections) = .ok m) ↔ ∀ r ∈ o.lists, r.Fits o.sections) ∧
    (∀ fault, Module.parse (write o.sections) = .error fault ↔ o.Refused fault) ∧
    (∀ fault, o.Refused fault → fault.isMalformed = true) ∧
    ∀ m, Module.parse (write o.sections) = .ok m →
      List.Forall₂ (RelocationSection.ShownBy m) o.lists m.relocations ∧
      ∀ before r after, o.lists = before ++ r :: after →
        (∀ later ∈ after, later.list.target.value ≠ r.list.target.value) →
        ∃ t, m.sections[r.list.target.value]? = some t ∧
          List.Forall₂ (Relocation.ShownBy t) r.list.entries.items (m.relocationsOf t) := by
  refine ⟨⟨fun ⟨m, parsed⟩ => (RelocatableModule.relocations_of_parse links parsed).1, ?_⟩,
    fun fault => ⟨?_, o.parse_of_refused links⟩, ?_, fun m parsed => ⟨?_, ?_⟩⟩
  · intro fits
    obtain ⟨m, parsed, _⟩ := o.parse_of_fits links fits
    exact ⟨m, parsed⟩
  · intro failed
    obtain fits | ⟨first, refused⟩ := o.fits_or_refused
    · obtain ⟨m, parsed, _⟩ := o.parse_of_fits links fits
      rw [parsed] at failed
      cases failed
    · rw [o.parse_of_refused links refused] at failed
      cases failed
      exact refused
  · rintro fault ⟨_, r, _, _, _, refused⟩
    cases refused <;> rfl
  · obtain ⟨fits, relocations⟩ := RelocatableModule.relocations_of_parse links parsed
    have places := (of_parse_write links parsed).2.1
    rw [relocations]
    refine List.forall₂_map_right_iff.2 (List.forall₂_same.2 fun r mem => ?_)
    exact RelocationSection.shownBy_shown places (fits r mem)
  · exact fun before r after => RelocatableModule.relocationsOf_of_parse links parsed

/-- Debug information behind a name of which the length is padded. -/
def paddedName : CustomSection where
  sizeField := [0x96, 0x00]
  nameField := [0x8B, 0x80, 0x00]
  nameBytes := [0x2E, 0x64, 0x65, 0x62, 0x75, 0x67, 0x5F, 0x69, 0x6E, 0x66, 0x6F]
  payload := [0, 0, 0, 0, 0, 0, 0, 0]
  countsContent := rfl
  countsName := rfl

/-- Three relocations of the first section: a function, four bytes behind it the index of a type,
which has no addend, and an address with 64 bits. -/
def threePlaces : RelocationList where
  target := ⟨[0x80, 0x80, 0x80, 0x00], 0, rfl⟩
  entries := {
    count := ⟨[0x83, 0x00], 3, rfl⟩
    items := [
      ⟨8, ⟨[0x8E, 0x00], 14, rfl⟩, .ofNat 0, some (.ofInt (-3)), AddendType.announced rfl⟩,
      ⟨6, .ofNat 18, .ofNat 200, none, AddendType.announced rfl⟩,
      ⟨16, .ofNat 14, .ofNat 1, some (.ofInt 300), AddendType.announced rfl⟩]
    counts := rfl }

def relocatedDebug : RelocatableModule where
  sections := [.custom paddedName, .custom (.ofName "reloc.x" threePlaces.bytes)]
  lists := [⟨.ofName "reloc.x" threePlaces.bytes, threePlaces, rfl⟩]
  all := by
    have debug : (Section.custom paddedName).isRelocation = false := by decide +kernel
    have relocations :
        (Section.custom (.ofName "reloc.x" threePlaces.bytes)).isRelocation = true := by
      simp [Section.isRelocation, relocationMark]
    simp [debug, relocations]

/-- The offsets count from behind the padded name, and the second relocation has no addend. -/
theorem relocations_of_write_relocatedDebug :
    ∃ m t, Module.parse (write relocatedDebug.sections) = .ok m ∧ m.sections[0]? = some t ∧
      (m.relocationsOf t).map (fun r => (r.offset, r.kind, r.addend)) =
        [(0, .absolute 4, -3), (4, .other, 0), (0, .absolute 8, 300)] := by
  have links : Links relocatedDebug.sections [] := by
    have debug : (Section.custom paddedName).isNamed "linking" = false := by decide +kernel
    refine .none (List.forall_mem_cons.2 ⟨debug, List.forall_mem_singleton.2 ?_⟩)
    simp [Section.isNamed]
  have fits : ∀ r ∈ relocatedDebug.lists, r.Fits relocatedDebug.sections :=
    List.forall_mem_singleton.2 ⟨.custom paddedName, rfl, by decide⟩
  obtain ⟨accepted, _, _, known⟩ := relocations_of_write relocatedDebug links
  obtain ⟨m, parsed⟩ := accepted.2 fits
  obtain ⟨t, found, shown⟩ := (known m parsed).2 [] _ [] rfl nofun
  refine ⟨m, t, parsed, found, ?_⟩
  rw [(of_parse_write links parsed).2.1] at found
  obtain rfl : paddedName.placed 8 = t := Option.some.inj found
  obtain ⟨r₁, _, first, behind₁, split⟩ := List.forall₂_cons_left_iff.1 shown
  obtain ⟨r₂, _, second, behind₂, rfl⟩ := List.forall₂_cons_left_iff.1 behind₁
  obtain ⟨r₃, _, third, behind₃, rfl⟩ := List.forall₂_cons_left_iff.1 behind₂
  obtain rfl := List.forall₂_nil_left_iff.1 behind₃
  have kind₁ := (first.absolute 4).2 ⟨.functionOffsetI32, rfl, rfl⟩
  have kind₂ := (second.other fun type same => by cases type <;> cases same).1
  have kind₃ := (third.absolute 8).2 ⟨.memoryAddressI64, rfl, rfl⟩
  rw [split, List.map_cons, List.map_cons, List.map_singleton, kind₁, kind₂, kind₃, first.offset,
    second.offset, third.offset, first.addend, second.addend, third.addend]
  simp only [Option.map_some, Option.map_none, Option.getD_some, Option.getD_none,
    Numeral.signed_ofInt]
  rfl

end Written

end WasmSourceMap.Container
