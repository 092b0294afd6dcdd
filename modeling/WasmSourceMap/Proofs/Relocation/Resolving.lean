import WasmSourceMap.Proofs.Container.Listing
import WasmSourceMap.Proofs.Relocation.Insertions
import WasmSourceMap.Relocation.Resolve

/-!
# Which relocations can be resolved

A list of relocations is resolved if each of them stores an address as it is, their symbols exist
and their offsets differ (`IsResolvable`); the map is then the one built from an insertion for each
relocation (`resolve_eq_build`). A list that cannot be resolved has a first relocation that offends,
and how it offends (`Offends`) is the fault (`resolve_of_offends`).
-/

namespace WasmSourceMap.Relocation

open Container (RelocationKind)

/-- The address that a relocation without a symbol or with one counts from. -/
inductive AddressOf (addresses : List Int) : Option Int → Int → Prop where
  | null : AddressOf addresses none 0
  | symbol {index : Nat} {address : Int} (found : addresses[index]? = some address) :
    AddressOf addresses (some index) address

/-- What is inserted for a relocation: the address plus the addend, with the width of the place. -/
inductive Gives (addresses : List Int) (e : Container.Relocation) : Insertion → Prop where
  | address {width address : Int} (absolute : e.kind = .absolute width)
    (known : AddressOf addresses e.symbol address) :
    Gives addresses e ⟨e.offset, address + e.addend, width⟩

/-- A relocation that has no symbol, or one that exists. -/
def IsLinked (addresses : List Int) (e : Container.Relocation) : Prop :=
  ∀ s, e.symbol = some s → 0 ≤ s ∧ s < addresses.length

/-- All relocations store addresses as they are, their symbols exist and no two have one offset. -/
structure IsResolvable (addresses : List Int) (entries : List Container.Relocation) : Prop where
  absolute : ∀ e ∈ entries, e.kind ≠ .other
  linked : ∀ e ∈ entries, IsLinked addresses e
  distinct : (entries.map Container.Relocation.offset).Nodup

/-- How a relocation behind others cannot be resolved. The kind is tested before the symbol, and the
symbol before the offset. -/
inductive Offends (name : String) (addresses : List Int) (before : List Container.Relocation)
    (e : Container.Relocation) : Fault → Prop where
  | kind (other : e.kind = .other) : Offends name addresses before e (.unsupported name e.offset)
  | symbol (absolute : e.kind ≠ .other) (unlinked : ¬IsLinked addresses e) :
    Offends name addresses before e (.unresolved name e.offset)
  | offset (absolute : e.kind ≠ .other) (linked : IsLinked addresses e)
    (again : ∃ d ∈ before, d.offset = e.offset) :
    Offends name addresses before e (.duplicate name e.offset)

variable {name : String} {addresses : List Int} {entries before after : List Container.Relocation}
  {e : Container.Relocation} {insertions : List Insertion} {m : Map}

lemma symbolAddress?_eq_some_iff {symbol : Option Int} {address : Int} :
    symbolAddress? addresses symbol = some address ↔ AddressOf addresses symbol address := by
  constructor
  · intro h
    cases symbol with
    | none =>
      cases h
      exact .null
    | some s =>
      cases s with
      | ofNat index => exact .symbol h
      | negSucc => cases h
  · intro h
    cases h with
    | null => rfl
    | symbol found => exact found

lemma AddressOf.unique {symbol : Option Int} {a b : Int} (ha : AddressOf addresses symbol a)
    (hb : AddressOf addresses symbol b) : a = b :=
  Option.some.inj
    ((symbolAddress?_eq_some_iff.2 ha).symm.trans (symbolAddress?_eq_some_iff.2 hb))

/-- A symbol has an address if and only if it exists. -/
lemma isLinked_iff : IsLinked addresses e ↔ ∃ address, AddressOf addresses e.symbol address := by
  unfold IsLinked
  constructor
  · intro h
    cases symbol : e.symbol with
    | none => exact ⟨0, .null⟩
    | some s =>
      obtain ⟨behind, inside⟩ := h s symbol
      obtain ⟨index, rfl⟩ := Int.eq_ofNat_of_zero_le behind
      exact ⟨_, .symbol (List.getElem?_eq_getElem (Int.ofNat_lt.1 inside))⟩
  · rintro ⟨address, known⟩ s symbol
    rw [symbol] at known
    cases known with
    | symbol found =>
      have inside := (List.getElem?_eq_some_iff.1 found).1
      omega

/-- A relocation that gives an insertion is resolved by it. -/
lemma resolveEntry_of_gives {i : Insertion} (given : Gives addresses e i) (m : Map) :
    resolveEntry addresses m e = m.insert i.offset i.value i.width := by
  cases given with
  | address absolute known =>
    unfold resolveEntry
    rw [absolute, symbolAddress?_eq_some_iff.2 known]

/-- Relocations that give insertions are resolved by building them. -/
lemma resolve_eq_build (given : List.Forall₂ (Gives addresses) entries insertions) :
    resolve name entries addresses = build name insertions := by
  unfold resolve build
  generalize Map.empty name = first
  induction given generalizing first with
  | nil => rfl
  | cons head _ ih =>
    rw [List.foldlM_cons, List.foldlM_cons, resolveEntry_of_gives head]
    congr 1
    funext next
    exact ih next

lemma exists_gives (absolute : e.kind ≠ .other) (linked : IsLinked addresses e) :
    ∃ i, Gives addresses e i := by
  obtain ⟨address, known⟩ := isLinked_iff.1 linked
  cases kind : e.kind with
  | other => exact absurd kind absolute
  | absolute width => exact ⟨_, .address kind known⟩

lemma exists_forall₂_gives (absolute : ∀ e ∈ entries, e.kind ≠ .other)
    (linked : ∀ e ∈ entries, IsLinked addresses e) :
    ∃ insertions, List.Forall₂ (Gives addresses) entries insertions := by
  induction entries with
  | nil => exact ⟨[], .nil⟩
  | cons e rest ih =>
    obtain ⟨isAbsolute, others⟩ := List.forall_mem_cons.1 absolute
    obtain ⟨isLinked, othersLinked⟩ := List.forall_mem_cons.1 linked
    obtain ⟨i, head⟩ := exists_gives isAbsolute isLinked
    obtain ⟨insertions, given⟩ := ih others othersLinked
    exact ⟨i :: insertions, .cons head given⟩

lemma offsets_of_gives (given : List.Forall₂ (Gives addresses) entries insertions) :
    insertions.map Insertion.offset = entries.map Container.Relocation.offset := by
  induction given with
  | nil => rfl
  | cons head _ ih =>
    cases head
    rw [List.map_cons, List.map_cons, ih]

/-- Relocations that can be resolved build a map. -/
lemma IsResolvable.build (h : IsResolvable addresses entries) (name : String) :
    ∃ insertions, List.Forall₂ (Gives addresses) entries insertions ∧
      (insertions.map Insertion.offset).Nodup ∧
      resolve name entries addresses = .ok ⟨name, insertions.map Insertion.field⟩ := by
  obtain ⟨insertions, given⟩ := exists_forall₂_gives h.absolute h.linked
  have distinct : (insertions.map Insertion.offset).Nodup := offsets_of_gives given ▸ h.distinct
  refine ⟨insertions, given, distinct, ?_⟩
  exact (resolve_eq_build given).trans (build_ok_iff.2 ⟨distinct, rfl⟩)

/-- A relocation that offends behind some that can be resolved is the fault of the list. -/
lemma resolve_of_offends {fault : Fault} (front : IsResolvable addresses before)
    (offends : Offends name addresses before e fault) :
    resolve name (before ++ e :: after) addresses = .error fault := by
  obtain ⟨insertions, given, distinct, resolved⟩ := front.build name
  have refused :
      resolveEntry addresses ⟨name, insertions.map Insertion.field⟩ e = .error fault := by
    cases offends with
    | kind other =>
      unfold resolveEntry
      rw [other]
    | symbol absolute unlinked =>
      unfold resolveEntry
      cases kind : e.kind with
      | other => exact absurd kind absolute
      | absolute width =>
        cases known : symbolAddress? addresses e.symbol with
        | none => rfl
        | some address =>
          exact absurd (isLinked_iff.2 ⟨address, symbolAddress?_eq_some_iff.1 known⟩) unlinked
    | offset absolute linked again =>
      obtain ⟨i, head⟩ := exists_gives absolute linked
      have taken : e.offset ∈ insertions.map Insertion.offset := by
        rw [offsets_of_gives given]
        exact List.mem_map.2 again
      rw [resolveEntry_of_gives head]
      cases head
      exact Map.insert_of_taken (exists_field_iff.2 (List.mem_map.1 taken)) _ _
  unfold resolve at resolved ⊢
  rw [List.foldlM_append, resolved, Except.ok_bind, List.foldlM_cons, refused]
  rfl

/-- A list that cannot be resolved has a first relocation that offends. -/
lemma exists_offends (name : String) (h : ¬IsResolvable addresses entries) :
    ∃ before e after fault, entries = before ++ e :: after ∧ IsResolvable addresses before ∧
      Offends name addresses before e fault := by
  induction entries using List.reverseRecOn with
  | nil => exact absurd ⟨nofun, nofun, List.nodup_nil⟩ h
  | append_singleton front e ih =>
    by_cases resolvable : IsResolvable addresses front
    · by_cases absolute : e.kind = .other
      · exact ⟨front, e, [], _, rfl, resolvable, .kind absolute⟩
      by_cases linked : IsLinked addresses e
      · refine ⟨front, e, [], _, rfl, resolvable, .offset absolute linked ?_⟩
        by_contra fresh
        refine h ⟨?_, ?_, ?_⟩
        · exact List.forall_mem_append.2 ⟨resolvable.absolute, List.forall_mem_singleton.2 absolute⟩
        · exact List.forall_mem_append.2 ⟨resolvable.linked, List.forall_mem_singleton.2 linked⟩
        · rw [List.map_append, List.map_singleton, List.nodup_append_comm, List.singleton_append,
            List.nodup_cons, List.mem_map]
          exact ⟨fresh, resolvable.distinct⟩
      · exact ⟨front, e, [], _, rfl, resolvable, .symbol absolute linked⟩
    · obtain ⟨before, d, after, fault, rfl, isResolvable, offends⟩ := ih resolvable
      exact ⟨before, d, after ++ [e], fault, by simp, isResolvable, offends⟩

lemma resolvable_of_ok (resolved : resolve name entries addresses = .ok m) :
    IsResolvable addresses entries := by
  by_contra unresolvable
  obtain ⟨before, e, after, fault, rfl, front, offends⟩ := exists_offends name unresolvable
  cases resolved.symm.trans (resolve_of_offends front offends)

/-- The fault is that of the first relocation that offends. -/
lemma resolve_error_iff (fault : Fault) : resolve name entries addresses = .error fault ↔
    ∃ before e after, entries = before ++ e :: after ∧ IsResolvable addresses before ∧
      Offends name addresses before e fault := by
  constructor
  · intro failed
    have unresolvable : ¬IsResolvable addresses entries := by
      intro h
      obtain ⟨_, _, _, resolved⟩ := h.build name
      cases resolved.symm.trans failed
    obtain ⟨before, e, after, fault', split, front, offends⟩ := exists_offends name unresolvable
    rw [split, resolve_of_offends front offends] at failed
    cases failed
    exact ⟨before, e, after, split, front, offends⟩
  · rintro ⟨before, e, after, rfl, front, offends⟩
    exact resolve_of_offends front offends

/-- Each relocation that is resolved has its sum in the map. -/
lemma get?_of_gives (given : List.Forall₂ (Gives addresses) entries insertions)
    (built : build name insertions = .ok m) (mem : e ∈ entries) {address : Int}
    (known : AddressOf addresses e.symbol address) :
    m.get? e.offset = some ((address + e.addend) % 2 ^ 64).toNat := by
  obtain ⟨i, inside, gives⟩ := Container.exists_of_forall₂ given mem
  cases gives with
  | address absolute known' =>
    rw [known.unique known']
    exact get?_of_build built inside

/-- A list of relocations is resolved if and only if it is resolvable, to a map with one item for
each of them, and otherwise the first that offends is the fault. -/
theorem resolve_ends (name : String) (addresses : List Int) (entries : List Container.Relocation) :
    ((∃ m, resolve name entries addresses = .ok m) ↔ IsResolvable addresses entries) ∧
    (∀ m, resolve name entries addresses = .ok m →
      ∃ insertions, List.Forall₂ (Gives addresses) entries insertions ∧
        m.fields = insertions.map Insertion.field ∧
        m.items.Perm (insertions.map fun i => (i.offset, (i.value % 2 ^ 64).toNat)) ∧
        m.Recalls insertions ∧
        ∀ e ∈ entries, ∀ address, AddressOf addresses e.symbol address →
          m.get? e.offset = some ((address + e.addend) % 2 ^ 64).toNat) ∧
    ∀ fault, resolve name entries addresses = .error fault ↔
      ∃ before e after, entries = before ++ e :: after ∧ IsResolvable addresses before ∧
        Offends name addresses before e fault := by
  refine ⟨⟨fun ⟨m, resolved⟩ => resolvable_of_ok resolved, fun h => ?_⟩, ?_, resolve_error_iff⟩
  · obtain ⟨insertions, _, _, resolved⟩ := h.build name
    exact ⟨_, resolved⟩
  · intro m resolved
    obtain ⟨insertions, given, distinct, built⟩ := (resolvable_of_ok resolved).build name
    cases resolved.symm.trans built
    refine ⟨insertions, given, rfl, ?_, recalls_of_nodup distinct, fun e mem address known => ?_⟩
    · rw [Map.items_eq, List.map_map]
      exact List.perm_insertionSort _ _
    · exact get?_of_gives given (build_ok_iff.2 ⟨distinct, rfl⟩) mem known

/-- Two relocations that can be resolved, one of them without a symbol. -/
def resolvableEntries : List Container.Relocation :=
  [⟨8, 8, .absolute 4, some 1, -0x300⟩, ⟨0, 16, .absolute 8, none, 5⟩]

/-- A sum below zero wraps around. The third relocation has the offset of the first and a symbol
that is not there, and the fourth is of another kind: the symbol of the third is the fault. -/
theorem resolve_ends_manyFaults :
    (∃ m, resolve ".debug_info" resolvableEntries [0x100, 0x200] = .ok m ∧
      m.get? 8 = some 0xffffffffffffff00 ∧ m.get? 0 = some 5 ∧ m.contains 4 = false) ∧
    resolve ".debug_info" (resolvableEntries ++ [⟨8, 8, .absolute 4, some 2, 0⟩,
      ⟨12, 0, .other, some 0, 0⟩]) [0x100, 0x200] = .error (.unresolved ".debug_info" 8) := by
  have resolvable : IsResolvable [0x100, 0x200] resolvableEntries := by
    refine ⟨by decide, ?_, by decide⟩
    simp [resolvableEntries, IsLinked]
  obtain ⟨accepted, known, _⟩ := resolve_ends ".debug_info" [0x100, 0x200] resolvableEntries
  obtain ⟨_, _, refused⟩ := resolve_ends ".debug_info" [0x100, 0x200] (resolvableEntries ++
    [⟨8, 8, .absolute 4, some 2, 0⟩, ⟨12, 0, .other, some 0, 0⟩])
  constructor
  · obtain ⟨m, resolved⟩ := accepted.2 resolvable
    obtain ⟨insertions, given, _, _, recalls, values⟩ := known m resolved
    refine ⟨m, resolved, ?_, ?_, ?_⟩
    · exact values _ List.mem_cons_self 0x200 (.symbol rfl)
    · exact values _ (List.mem_cons_of_mem _ List.mem_cons_self) 0 .null
    · rw [Bool.eq_false_iff, Ne, recalls.contains, ← List.mem_map, offsets_of_gives given]
      decide
  · refine (refused _).2 ⟨resolvableEntries, _, _, rfl, resolvable, .symbol ?_ ?_⟩
    · exact RelocationKind.noConfusion
    · simp [IsLinked]

end WasmSourceMap.Relocation
