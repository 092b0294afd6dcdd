import WasmSourceMap.Proofs.Container.Stretches
import WasmSourceMap.Proofs.Dwarf.RelocatedSections

/-!
# The sections of a split object

A split object is loaded without a look at its relocations and its symbols: its own sections are
the payloads as they stand, and what it inherits is relocated in the parent. For each kind of
section there is one place that it can come from (`Sections.Splits`). As the payloads do not
depend on what is there for linking, neither do the sections that are loaded.
-/

namespace WasmSourceMap.Dwarf

open Container (Module Section ListedRelocation relocationMark)

namespace SectionKind

/-- The names of split sections say nothing about linking. -/
lemma splitName_unlinked (kind : SectionKind) :
    kind.splitName ≠ "linking" ∧ ¬relocationMark.toList <+: kind.splitName.toList := by
  cases kind <;> decide

end SectionKind

namespace Sections

variable {m p : Module} {kind : SectionKind}

lemma fst_of_findSplit? {entry : SectionKind × DebugSection} (h : findSplit? m kind = some entry) :
    entry.1 = kind := by
  unfold findSplit? at h
  split at h
  · obtain ⟨t, _, rfl⟩ := Option.map_eq_some_iff.1 h
    rfl
  · cases h

/-- The section of a kind in a split object is the one that is looked up. -/
lemma get?_loadSplit (m : Module) (kind : SectionKind) :
    (loadSplit m).get? kind = (findSplit? m kind).map Prod.snd := by
  have all : kind ∈ SectionKind.all := by cases kind <;> decide
  have known {entry : SectionKind × DebugSection}
      (mem : entry ∈ SectionKind.all.filterMap (findSplit? m)) :
      findSplit? m entry.1 = some entry := by
    obtain ⟨other, _, found⟩ := List.mem_filterMap.1 mem
    rw [fst_of_findSplit? found, found]
  unfold get? loadSplit
  congr 1
  cases found : (SectionKind.all.filterMap (findSplit? m)).find? fun entry => entry.1 == kind with
  | none =>
    cases sought : findSplit? m kind with
    | none => rfl
    | some entry =>
      have mem := List.mem_filterMap.2 ⟨kind, all, sought⟩
      have unlike := List.find?_eq_none.1 found entry mem
      exact absurd (beq_iff_eq.2 (fst_of_findSplit? sought)) unlike
  | some entry =>
    have named := List.find?_some found
    rw [← known (List.mem_of_find?_eq_some found), beq_iff_eq.1 named]

/-- A section is inherited if it is of a kind to be inherited and is missing. -/
lemma get?_inherit (s parent : Sections) (kind : SectionKind) :
    (s.inherit parent).get? kind =
      (s.get? kind).or (if kind ∈ SectionKind.inherited then parent.get? kind else none) := by
  cases own : s.get? kind with
  | some found =>
    obtain ⟨entry, here, _⟩ := Option.map_eq_some_iff.1 own
    unfold get? at own ⊢
    unfold inherit
    rw [List.find?_append, here, Option.some_or, ← own, here]
    rfl
  | none =>
    have missing := Option.map_eq_none_iff.1 own
    have known (entry : SectionKind × DebugSection) :
        ((SectionKind.inherited.contains entry.1 && (s.get? entry.1).isNone) && entry.1 == kind) =
          (decide (kind ∈ SectionKind.inherited) && entry.1 == kind) := by
      by_cases same : entry.1 = kind
      · simp [same, own]
      · rw [beq_false_of_ne same, Bool.and_false, Bool.and_false]
    unfold get?
    unfold inherit
    rw [List.find?_append, missing, Option.none_or, Option.none_or, List.find?_filter]
    simp only [Bool.decide_and, Bool.decide_eq_true, known]
    by_cases isInherited : kind ∈ SectionKind.inherited
    · simp [isInherited]
    · simp [isInherited]

/-- What a module has of a kind: the section relocated, or nothing. -/
inductive Relocates (file : Bytes) (m : Module) (kind : SectionKind) :
    Option DebugSection → Prop where
  | absent (missing : m.sectionNamed kind.name = none) : Relocates file m kind none
  | present {t : Section} {entries : List ListedRelocation} {data : Bytes}
      (found : m.sectionNamed kind.name = some t) (here : m.sections[m.sectionIndex t]? = some t)
      (last : m.LastListing (m.sectionIndex t) entries)
      (relocated : Relocated file m t entries data) :
      Relocates file m kind (some ⟨kind.name, data, t.dataOffset⟩)

lemma Loads.relocates {file : Bytes} (parsed : Module.parse file = .ok m)
    {added : Option DebugSection} (loads : Loads m kind added) : Relocates file m kind added := by
  cases loads with
  | absent missing => exact .absent missing
  | @present t map data found resolved applied =>
    have mem : t ∈ m.sections := List.mem_of_find?_eq_some found
    have here : m.sections[m.sectionIndex t]? = some t := List.getElem?_idxOf mem
    obtain ⟨entries, last, shifted, behind⟩ :=
      Module.relocationsAt_last (Module.listed_of_parse parsed) here
    have inside := Module.stop_le_of_parse parsed mem
    unfold Module.relocationsOf at resolved
    rw [shifted] at resolved
    rw [← Module.data_of_parse parsed] at inside ⊢
    have ordered := Module.ordered_of_parse parsed t mem
    exact .present found here last (relocated_of_apply ordered inside behind resolved applied)

/-- What a split object has of a kind: its own section as it stands, what the parent has of a kind
that is inherited, or nothing. -/
inductive Splits (m : Module) (parentFile : Bytes) (p : Module) (kind : SectionKind) :
    Option DebugSection → Prop where
  | own {t : Section} (isSplit : kind.isSplit = true)
      (found : m.sectionNamed kind.splitName = some t) :
      Splits m parentFile p kind (some ⟨kind.splitName, m.payload t, t.dataOffset⟩)
  | inherited {found : Option DebugSection}
      (missing : kind.isSplit = true → m.sectionNamed kind.splitName = none)
      (isInherited : kind ∈ SectionKind.inherited) (relocates : Relocates parentFile p kind found) :
      Splits m parentFile p kind found
  | nothing (missing : kind.isSplit = true → m.sectionNamed kind.splitName = none)
      (notInherited : kind ∉ SectionKind.inherited) : Splits m parentFile p kind none

lemma splits_of_load {parentFile : Bytes} {parent : Sections}
    (parsed : Module.parse parentFile = .ok p) (loaded : load p = .ok parent)
    (kind : SectionKind) :
    Splits m parentFile p kind (((loadSplit m).inherit parent).get? kind) := by
  have fromParent (missing : kind.isSplit = true → m.sectionNamed kind.splitName = none) :
      Splits m parentFile p kind
        (if kind ∈ SectionKind.inherited then parent.get? kind else none) := by
    split
    · exact .inherited missing ‹_› ((loads_of_load loaded kind).relocates parsed)
    · exact .nothing missing ‹_›
  rw [get?_inherit, get?_loadSplit]
  unfold findSplit?
  cases isSplit : kind.isSplit with
  | false => exact fromParent fun yes => absurd (yes.symm.trans isSplit) (by decide)
  | true =>
    cases found : m.sectionNamed kind.splitName with
    | none => exact fromParent fun _ => found
    | some t => exact .own isSplit found

/-- The name and the bytes of the section of a kind. -/
def contentOf (s : Sections) (kind : SectionKind) : Option (String × Bytes) :=
  (s.get? kind).map fun d => (d.name, d.data)

lemma contentOf_loadSplit (m : Module) (kind : SectionKind) :
    (loadSplit m).contentOf kind =
      if kind.isSplit then
        ((m.sectionNamed kind.splitName).map m.payload).map fun data => (kind.splitName, data)
      else none := by
  unfold contentOf
  rw [get?_loadSplit]
  unfold findSplit?
  split
  · rw [Option.map_map, Option.map_map, Option.map_map]
    rfl
  · rfl

lemma contentOf_inherit (s parent : Sections) (kind : SectionKind) :
    (s.inherit parent).contentOf kind =
      (s.contentOf kind).or
        (if kind ∈ SectionKind.inherited then parent.contentOf kind else none) := by
  unfold contentOf
  rw [get?_inherit, Option.map_or, apply_ite (Option.map _)]
  rfl

end Sections

namespace View

variable {m p : Module} {supplementary : Option Module} {view : View}

/-- A split object is loaded if its parent and the supplementary file are, whatever it is. -/
lemma load_split_ok (loaded : load m (some p) supplementary = .ok view) :
    ∃ parent others, Sections.load p = .ok parent ∧
      ∀ m', load m' (some p) supplementary =
        .ok ⟨(Sections.loadSplit m').inherit parent, others⟩ := by
  obtain ⟨sections, own, rest⟩ := Except.bind_ok loaded
  obtain ⟨parent, isParent, _⟩ := Except.bind_ok own
  have own' (m' : Module) :
      loadSections m' (some p) = .ok ((Sections.loadSplit m').inherit parent) := by
    unfold loadSections
    dsimp only
    rw [isParent]
    rfl
  unfold load
  cases supplementary with
  | none =>
    refine ⟨parent, none, isParent, fun m' => ?_⟩
    rw [own', Except.ok_bind]
    rfl
  | some other =>
    obtain ⟨foreign, isForeign, _⟩ := Except.bind_ok rest
    refine ⟨parent, some foreign, isParent, fun m' => ?_⟩
    rw [own', Except.ok_bind]
    dsimp only
    rw [isForeign]
    rfl

/-- Of each kind a split object has its own section as it stands, or what is relocated in the
parent; no relocations are kept. Another object with the same sections but for the linking section
and those of relocations is loaded, too, with the same contents. -/
theorem load_split {file parentFile : Bytes} (parsed : Module.parse file = .ok m)
    (parsedParent : Module.parse parentFile = .ok p)
    (loaded : load m (some p) supplementary = .ok view) :
    view.sections.maps = [] ∧
    (∀ kind, Sections.Splits m parentFile p kind (view.sections.get? kind)) ∧
    ∀ file' m', Module.parse file' = .ok m' → m'.unlinked = m.unlinked →
      ∃ view', load m' (some p) supplementary = .ok view' ∧ view'.sections.maps = [] ∧
        ∀ kind, view'.sections.contentOf kind = view.sections.contentOf kind := by
  obtain ⟨parent, others, isParent, all⟩ := load_split_ok loaded
  obtain rfl := Except.ok.inj ((all m).symm.trans loaded)
  refine ⟨rfl, Sections.splits_of_load parsedParent isParent, fun file' m' parsed' same => ?_⟩
  refine ⟨_, all m', rfl, fun kind => ?_⟩
  obtain ⟨notLinking, notRelocation⟩ := kind.splitName_unlinked
  have payload := Module.payload_sectionNamed parsed' parsed same notLinking notRelocation
  dsimp only
  rw [Sections.contentOf_inherit, Sections.contentOf_inherit, Sections.contentOf_loadSplit,
    Sections.contentOf_loadSplit, payload]

/-- Debug information, plain and split, with a relocation of the plain one for a symbol that there
is not. -/
def splitObject : Bytes :=
  [0x00, 0x61, 0x73, 0x6d, 0x01, 0x00, 0x00, 0x00, 0x00, 0x10, 0x0b, 0x2e, 0x64, 0x65, 0x62,
    0x75, 0x67, 0x5f, 0x69, 0x6e, 0x66, 0x6f, 0x01, 0x02, 0x03, 0x04, 0x00, 0x14, 0x0f,
    0x2e, 0x64, 0x65, 0x62, 0x75, 0x67, 0x5f, 0x69, 0x6e, 0x66, 0x6f, 0x2e, 0x64, 0x77,
    0x6f, 0xd0, 0xd1, 0xd2, 0xd3, 0x00, 0x18, 0x11, 0x72, 0x65, 0x6c, 0x6f, 0x63, 0x2e,
    0x2e, 0x64, 0x65, 0x62, 0x75, 0x67, 0x5f, 0x69, 0x6e, 0x66, 0x6f, 0x00, 0x01, 0x05,
    0x0c, 0x07, 0x00]

/-- The split information once more, now relocated itself, behind another linking section. -/
def relinked : Bytes :=
  [0x00, 0x61, 0x73, 0x6d, 0x01, 0x00, 0x00, 0x00, 0x00, 0x0a, 0x07, 0x72, 0x65, 0x6c, 0x6f,
    0x63, 0x2e, 0x78, 0x01, 0x00, 0x00, 0x10, 0x0b, 0x2e, 0x64, 0x65, 0x62, 0x75, 0x67,
    0x5f, 0x69, 0x6e, 0x66, 0x6f, 0x01, 0x02, 0x03, 0x04, 0x00, 0x09, 0x07, 0x6c, 0x69,
    0x6e, 0x6b, 0x69, 0x6e, 0x67, 0x02, 0x00, 0x14, 0x0f, 0x2e, 0x64, 0x65, 0x62, 0x75,
    0x67, 0x5f, 0x69, 0x6e, 0x66, 0x6f, 0x2e, 0x64, 0x77, 0x6f, 0xd0, 0xd1, 0xd2, 0xd3,
    0x00, 0x0e, 0x07, 0x72, 0x65, 0x6c, 0x6f, 0x63, 0x2e, 0x79, 0x03, 0x01, 0x05, 0x10,
    0x00, 0x09]

/-- A module with addresses, which are relocated, and with lists of ranges and a line table. -/
def skeleton : Bytes :=
  [0x00, 0x61, 0x73, 0x6d, 0x01, 0x00, 0x00, 0x00, 0x0a, 0x04, 0x01, 0x02, 0x00, 0x0b, 0x00,
    0x10, 0x0b, 0x2e, 0x64, 0x65, 0x62, 0x75, 0x67, 0x5f, 0x61, 0x64, 0x64, 0x72, 0xa0,
    0xa1, 0xa2, 0xa3, 0x00, 0x11, 0x07, 0x6c, 0x69, 0x6e, 0x6b, 0x69, 0x6e, 0x67, 0x02,
    0x08, 0x06, 0x01, 0x00, 0x00, 0x00, 0x01, 0x66, 0x00, 0x0d, 0x0b, 0x2e, 0x64, 0x65,
    0x62, 0x75, 0x67, 0x5f, 0x6c, 0x69, 0x6e, 0x65, 0x11, 0x00, 0x18, 0x11, 0x72, 0x65,
    0x6c, 0x6f, 0x63, 0x2e, 0x2e, 0x64, 0x65, 0x62, 0x75, 0x67, 0x5f, 0x61, 0x64, 0x64,
    0x72, 0x01, 0x01, 0x08, 0x0c, 0x00, 0x05, 0x00, 0x11, 0x0f, 0x2e, 0x64, 0x65, 0x62,
    0x75, 0x67, 0x5f, 0x72, 0x6e, 0x67, 0x6c, 0x69, 0x73, 0x74, 0x73, 0x33]

/-- Alone the object cannot be loaded. With the parent it can, and the addresses are those of the
parent. -/
theorem load_split_skeleton :
    ∃ m m' p view view', Module.parse splitObject = .ok m ∧ Module.parse relinked = .ok m' ∧
      Module.parse skeleton = .ok p ∧ (load m none none).toOption.isNone = true ∧
      load m (some p) none = .ok view ∧ load m' (some p) none = .ok view' ∧
      view.sections.maps = [] ∧
      (∀ kind, Sections.Splits m skeleton p kind (view.sections.get? kind)) ∧
      (∀ kind, view'.sections.contentOf kind = view.sections.contentOf kind) ∧
      view.sections.contentOf .info = some (".debug_info.dwo", [0xd0, 0xd1, 0xd2, 0xd3]) ∧
      view.sections.contentOf .addr = some (".debug_addr", [0x06, 0x00, 0x00, 0x00]) := by
  have accepted : (Module.parse splitObject).toOption.bind (fun m =>
      (Module.parse relinked).toOption.bind fun m' =>
      (Module.parse skeleton).toOption.bind fun p =>
      (load m (some p) none).toOption.map fun view =>
        (m'.unlinked == m.unlinked && (load m none none).toOption.isNone,
          view.sections.contentOf .info, view.sections.contentOf .addr)) =
      some (true, some (".debug_info.dwo", [0xd0, 0xd1, 0xd2, 0xd3]),
        some (".debug_addr", [0x06, 0x00, 0x00, 0x00])) := by
    decide +kernel
  obtain ⟨m, isModule, accepted⟩ := Option.bind_eq_some_iff.1 accepted
  obtain ⟨m', isOther, accepted⟩ := Option.bind_eq_some_iff.1 accepted
  obtain ⟨p, isParent, accepted⟩ := Option.bind_eq_some_iff.1 accepted
  obtain ⟨view, isView, facts⟩ := Option.map_eq_some_iff.1 accepted
  obtain ⟨linked, facts⟩ := Prod.mk.inj facts
  obtain ⟨info, addr⟩ := Prod.mk.inj facts
  obtain ⟨same, refused⟩ := Bool.and_eq_true_iff.1 linked
  have parsed := Except.ok_of_toOption isModule
  have parsed' := Except.ok_of_toOption isOther
  have parsedParent := Except.ok_of_toOption isParent
  have loaded := Except.ok_of_toOption isView
  obtain ⟨noMaps, splits, relinks⟩ := load_split parsed parsedParent loaded
  obtain ⟨view', loaded', _, contents⟩ := relinks _ m' parsed' (beq_iff_eq.1 same)
  exact ⟨m, m', p, view, view', parsed, parsed', parsedParent, refused, loaded, loaded', noMaps,
    splits, contents, info, addr⟩

end View

end WasmSourceMap.Dwarf
