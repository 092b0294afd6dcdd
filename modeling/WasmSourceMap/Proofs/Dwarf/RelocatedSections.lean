import WasmSourceMap.Dwarf.Sections
import WasmSourceMap.Proofs.Container.Layout
import WasmSourceMap.Proofs.Relocation.Fields

/-!
# The bytes of a loaded section

A debug section is loaded with its relocations written over its payload. What a step of the loader
adds is `Sections.Loads`, and the sections of a module are what the steps add for their kinds
(`loads_of_load`). A loaded section is `Relocated`: the stretch of the file that holds its payload,
except for the bytes that the last relocation section for it names, each of which is a digit of an
address.
-/

namespace WasmSourceMap

namespace Container.ListedRelocation

/-- The width of the place that waits for an address. -/
def width (l : ListedRelocation) : Int := (RelocationKind.ofCode l.code).width

/-- Whether a relocation covers a place of a payload that follows `nameSize` bytes of its content.
-/
def Covers (nameSize : Nat) (l : ListedRelocation) (place : Nat) : Prop :=
  (l.place : Int) - nameSize ≤ place ∧ (place : Int) < l.place - nameSize + l.width

/-- The byte at a place that a relocation covers: a digit of the address of the symbol plus the
addend, which are added with 64 bits. -/
def byteAt (nameSize : Nat) (address : Int) (l : ListedRelocation) (place : Nat) : UInt8 :=
  UInt8.ofNat (((address + l.addend) % 0x10000000000000000).toNat /
    256 ^ (place - (l.place - nameSize)) % 256)

instance (nameSize : Nat) (l : ListedRelocation) (place : Nat) :
    Decidable (l.Covers nameSize place) :=
  inferInstanceAs (Decidable (_ ∧ _))

end Container.ListedRelocation

namespace Dwarf

open Container (Module Section ListedRelocation RelocationKind Symbol)

/-- The payload of a section of a file, with the places that relocations name holding the addresses
of their symbols. Where the places overlap the last one counts. -/
structure Relocated (file : Bytes) (m : Module) (t : Section) (entries : List ListedRelocation)
    (data : Bytes) : Prop where
  length_eq : data.length = t.stop - t.dataOffset
  covered : ∀ before l after i, entries = before ++ l :: after → l.Covers t.nameSize i →
    (∀ later ∈ after, ¬ later.Covers t.nameSize i) →
    ∃ symbol, m.symbols[l.symbol]? = some symbol ∧
      data[i]? = some (l.byteAt t.nameSize (symbol.address m.contents) i)
  spared : ∀ i < data.length, (∀ l ∈ entries, ¬ l.Covers t.nameSize i) →
    data[i]? = file[t.dataOffset + i]?

variable {m : Module} {t : Section} {file : Bytes}

/-- Nothing but the payload, the relocations listed for it and the symbols decides the bytes. -/
lemma Relocated.unique {entries : List ListedRelocation} {data data' : Bytes}
    (h : Relocated file m t entries data) (h' : Relocated file m t entries data') :
    data = data' := by
  have same := h.length_eq.trans h'.length_eq.symm
  apply List.ext_getElem?
  intro i
  by_cases inside : i < data.length
  · cases last : entries.reverse.find? (fun l => l.Covers t.nameSize i) with
    | none =>
      have none : ∀ l ∈ entries, ¬ l.Covers t.nameSize i := by
        intro l mem covers
        exact List.find?_eq_none.1 last l (List.mem_reverse.2 mem) (decide_eq_true covers)
      rw [h.spared i inside none, h'.spared i (same ▸ inside) none]
    | some l =>
      obtain ⟨covers, before, after, split, others⟩ := Container.last_split last
      have here := of_decide_eq_true covers
      have none : ∀ later ∈ after, ¬ later.Covers t.nameSize i := by
        intro later mem
        exact of_decide_eq_false (others later mem)
      obtain ⟨symbol, known, byte⟩ := h.covered _ l _ i split here none
      obtain ⟨symbol', known', byte'⟩ := h'.covered _ l _ i split here none
      obtain rfl := Option.some.inj (known.symm.trans known')
      rw [byte, byte']
  · rw [List.getElem?_eq_none (by omega), List.getElem?_eq_none (by omega)]

/-- The field of a relocation that a file lists covers what the relocation covers, and holds the
address of its symbol. -/
lemma covers_of_fieldOf {nameSize : Nat} {l : ListedRelocation} {f : Relocation.Field}
    (isField : Relocation.FieldOf m.symbolAddresses (l.inPayload nameSize) f) :
    (∀ i, f.Covers i ↔ l.Covers nameSize i) ∧
      ∃ symbol, m.symbols[l.symbol]? = some symbol ∧
        ∀ i, f.byteAt i = l.byteAt nameSize (symbol.address m.contents) i := by
  obtain ⟨width, address, kind, known, rfl⟩ := isField
  have sameWidth : l.width = width := by
    show (l.inPayload nameSize).kind.width = width
    rw [kind]
    rfl
  refine ⟨fun i => ?_, ?_⟩
  · unfold Relocation.Field.Covers ListedRelocation.Covers
    rw [sameWidth]
    rfl
  · have known : m.symbolAddresses[l.symbol]? = some address := known
    unfold Module.symbolAddresses at known
    rw [List.getElem?_map] at known
    obtain ⟨symbol, found, rfl⟩ := Option.map_eq_some_iff.1 known
    have start : ((l.place : Int) - nameSize).toNat = l.place - nameSize := by omega
    refine ⟨symbol, found, fun i => ?_⟩
    unfold Relocation.Field.byteAt ListedRelocation.byteAt
    rw [← start]
    rfl

/-- Writing what the file lists for a section gives the section relocated. -/
lemma relocated_of_apply {name : String} {entries : List ListedRelocation} {map : Relocation.Map}
    {data : Bytes} (ordered : t.Ordered) (inside : t.stop ≤ m.data.length)
    (behind : ∀ l ∈ entries, t.nameSize ≤ l.place)
    (resolved : Relocation.resolve name (entries.map (·.inPayload t.nameSize)) m.symbolAddresses =
      .ok map)
    (applied : map.apply (m.payload t) = .ok data) : Relocated m.data m t entries data := by
  have fields := Relocation.resolve_fields resolved
  rw [List.forall₂_map_left_iff] at fields
  have fieldsBehind : ∀ f ∈ map.fields, 0 ≤ f.offset := by
    intro f mem
    obtain ⟨l, here, width, address, _, _, rfl⟩ := Container.exists_of_forall₂ fields.flip mem
    have := behind l here
    show 0 ≤ (l.place : Int) - t.nameSize
    omega
  obtain ⟨length, covered, spared⟩ := Relocation.Map.writeFields_bytes applied fieldsBehind
  have := ordered.dataOffset_le_stop
  have size : (m.payload t).length = t.stop - t.dataOffset := by
    unfold Module.payload
    rw [List.length_take, List.length_drop]
    omega
  refine ⟨length.trans size, ?_, ?_⟩
  · intro before l after i split here none
    rw [split] at fields
    obtain ⟨first, f, rest, same, _, isField, later⟩ := Container.forall₂_split fields.flip
    obtain ⟨covers, symbol, found, byte⟩ := covers_of_fieldOf isField
    refine ⟨symbol, found, ?_⟩
    rw [covered first f rest i same ((covers i).2 here), byte i]
    intro f' mem
    obtain ⟨l', inAfter, isField'⟩ := Container.exists_of_forall₂ later mem
    obtain ⟨covers', _⟩ := covers_of_fieldOf isField'
    exact fun again => none l' inAfter ((covers' i).1 again)
  · intro i before none
    have notCovered : ∀ f ∈ map.fields, ¬ f.Covers i := by
      intro f mem
      obtain ⟨l, here, isField⟩ := Container.exists_of_forall₂ fields.flip mem
      obtain ⟨covers, _⟩ := covers_of_fieldOf isField
      exact fun again => none l here ((covers i).1 again)
    rw [spared i notCovered]
    unfold Module.payload
    rw [List.getElem?_take_of_lt (by omega), List.getElem?_drop]

namespace Sections

/-- What the loader adds for a kind: nothing if the module has no section of its name, else the
section relocated. -/
inductive Loads (m : Module) (kind : SectionKind) : Option DebugSection → Prop where
  | absent (missing : m.sectionNamed kind.name = none) : Loads m kind none
  | present {t : Section} {map : Relocation.Map} {data : Bytes}
      (found : m.sectionNamed kind.name = some t)
      (resolved : Relocation.resolve kind.name (m.relocationsOf t) m.symbolAddresses = .ok map)
      (applied : map.apply (m.payload t) = .ok data) :
      Loads m kind (some ⟨kind.name, data, t.dataOffset⟩)

variable {s s' : Sections} {kind : SectionKind}

lemma loadRelocated_ok (h : loadRelocated m s kind = .ok s') :
    ∃ added, Loads m kind added ∧
      s'.entries = s.entries ++ (added.map fun found => (kind, found)).toList := by
  unfold loadRelocated at h
  cases found : m.sectionNamed kind.name with
  | none =>
    rw [found] at h
    cases h
    exact ⟨none, .absent found, (List.append_nil _).symm⟩
  | some t =>
    rw [found] at h
    obtain ⟨map, resolved, h⟩ := Except.bind_ok h
    obtain ⟨data, applied, h⟩ := Except.bind_ok h
    cases h
    exact ⟨_, .present found resolved applied, rfl⟩

/-- A step adds the section of its own kind only. -/
lemma get?_of_entries {added : Option DebugSection}
    (h : s'.entries = s.entries ++ (added.map fun found => (kind, found)).toList)
    (other : SectionKind) :
    s'.get? other = (s.get? other).or (if kind = other then added else none) := by
  unfold get?
  rw [h, List.find?_append]
  cases s.entries.find? fun entry => entry.1 == other with
  | some entry => rfl
  | none =>
    cases added with
    | none => simp
    | some found => by_cases same : kind = other <;> simp [same]

/-- After the steps for some kinds the sections of these are what was added for them. -/
lemma loads_of_foldlM {kinds : List SectionKind} (once : kinds.Nodup)
    (h : kinds.foldlM (loadRelocated m) s = .ok s') :
    (∀ kind ∈ kinds, s.get? kind = none → Loads m kind (s'.get? kind)) ∧
      ∀ kind ∉ kinds, s'.get? kind = s.get? kind := by
  induction kinds generalizing s with
  | nil =>
    cases h
    exact ⟨nofun, fun _ _ => rfl⟩
  | cons first rest ih =>
    rw [List.foldlM_cons] at h
    obtain ⟨between, one, others⟩ := Except.bind_ok h
    obtain ⟨added, loads, entries⟩ := loadRelocated_ok one
    obtain ⟨notLater, later⟩ := List.nodup_cons.1 once
    obtain ⟨isLoaded, isKept⟩ := ih later others
    have step := get?_of_entries entries
    refine ⟨?_, ?_⟩
    · intro kind mem none
      cases mem with
      | head =>
        rw [isKept first notLater, step first, none, if_pos rfl]
        exact loads
      | tail _ mem =>
        apply isLoaded kind mem
        rw [step kind, none, if_neg]
        · rfl
        · rintro rfl
          exact notLater mem
    · intro kind absent
      obtain ⟨notFirst, notRest⟩ := not_or.1 (mt List.mem_cons.2 absent)
      rw [isKept kind notRest, step kind, if_neg (Ne.symm notFirst), Option.or_none]

lemma loads_of_load (h : load m = .ok s) (kind : SectionKind) : Loads m kind (s.get? kind) := by
  have once : SectionKind.all.Nodup := by decide
  have all : kind ∈ SectionKind.all := by cases kind <;> decide
  exact (loads_of_foldlM once h).1 kind all rfl

end Sections

lemma View.sections_of_load {supplementary : Option Module} {view : View}
    (h : View.load m none supplementary = .ok view) : Sections.load m = .ok view.sections := by
  obtain ⟨sections, own, h⟩ := Except.bind_ok h
  cases supplementary with
  | none =>
    cases h
    exact own
  | some other =>
    obtain ⟨foreign, _, h⟩ := Except.bind_ok h
    cases h
    exact own

/-- A debug section is loaded from the first custom section of its name, if there is one: its bytes
are those of the file, except where the last relocation section for it names them. -/
theorem relocated_of_load (parsed : Module.parse file = .ok m) {supplementary : Option Module}
    {view : View} (loaded : View.load m none supplementary = .ok view) (kind : SectionKind) :
    (m.sectionNamed kind.name = none → view.sections.get? kind = none) ∧
    ∀ t, m.sectionNamed kind.name = some t →
      ∃ d entries, view.sections.get? kind = some d ∧ d.name = kind.name ∧
        m.sections[m.sectionIndex t]? = some t ∧ m.LastListing (m.sectionIndex t) entries ∧
        Relocated file m t entries d.data ∧
        ∀ data, Relocated file m t entries data → data = d.data := by
  have loads := Sections.loads_of_load (View.sections_of_load loaded) kind
  refine ⟨fun missing => ?_, fun t found => ?_⟩
  · cases added : view.sections.get? kind with
    | none => rfl
    | some d =>
      rw [added] at loads
      cases loads with
      | present found => cases missing.symm.trans found
  · cases added : view.sections.get? kind with
    | none =>
      rw [added] at loads
      cases loads with
      | absent missing => cases missing.symm.trans found
    | some d =>
      rw [added] at loads
      cases loads with
      | @present t' map data found' resolved applied =>
        obtain rfl := Option.some.inj (found.symm.trans found')
        have mem : t ∈ m.sections := List.mem_of_find?_eq_some found
        have here : m.sections[m.sectionIndex t]? = some t := List.getElem?_idxOf mem
        obtain ⟨entries, last, shifted, behind⟩ :=
          Module.relocationsAt_last (Module.listed_of_parse parsed) here
        have ordered := Module.ordered_of_parse parsed t mem
        have inside := Module.stop_le_of_parse parsed mem
        unfold Module.relocationsOf at resolved
        rw [shifted] at resolved
        rw [← Module.data_of_parse parsed] at inside ⊢
        have relocated := relocated_of_apply ordered inside behind resolved applied
        exact ⟨_, entries, rfl, rfl, here, last, relocated, fun _ other => other.unique relocated⟩

/-- Two fields overlap, and the later one gives the bytes that both cover. -/
theorem relocated_twiceListed :
    ∃ m t entries d, Module.parse Module.twiceListed = .ok m ∧
      m.sectionNamed ".debug_info" = some t ∧ m.LastListing (m.sectionIndex t) entries ∧
      Relocated Module.twiceListed m t entries d ∧
      d = [0x06, 0x00, 0xfe, 0xff, 0xff, 0xff, 0xa6, 0xa7] := by
  have accepted : (Module.parse Module.twiceListed).toOption.bind (fun m =>
      (View.load m none none).toOption.bind fun view =>
        (m.sectionNamed SectionKind.info.name).bind fun _ =>
          (view.sections.get? .info).map (·.data)) =
      some [0x06, 0x00, 0xfe, 0xff, 0xff, 0xff, 0xa6, 0xa7] := by
    decide +kernel
  obtain ⟨m, isModule, accepted⟩ := Option.bind_eq_some_iff.1 accepted
  obtain ⟨view, isView, accepted⟩ := Option.bind_eq_some_iff.1 accepted
  obtain ⟨t, found, accepted⟩ := Option.bind_eq_some_iff.1 accepted
  obtain ⟨d, isLoaded, bytes⟩ := Option.map_eq_some_iff.1 accepted
  have parsed := Except.ok_of_toOption isModule
  have loaded := Except.ok_of_toOption isView
  obtain ⟨_, known⟩ := relocated_of_load parsed loaded .info
  obtain ⟨d', entries, same, _, _, last, relocated, _⟩ := known t found
  obtain rfl := Option.some.inj (isLoaded.symm.trans same)
  exact ⟨m, t, entries, d.data, parsed, found, last, relocated, bytes⟩

end Dwarf

end WasmSourceMap
