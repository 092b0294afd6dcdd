import Mathlib.Algebra.Ring.Int.Defs
import Mathlib.Data.Finset.Card
import Mathlib.Data.List.Sort
import WasmSourceMap.Proofs.Dictionary
import WasmSourceMap.Proofs.Results
import WasmSourceMap.Relocation.Map

/-!
# What a relocation map keeps of what is inserted

A map keeps the first insertion at each offset and refuses the others. If no two insertions have the
same offset, they are all accepted (`build_ok_iff`), and the map shows each of them (`Recalls`): the
look-ups of a value, of the presence of an offset and of all items agree with each other, and the
items ascend by the offset, since they are an insertion sort of the fields (`items_eq`).
-/

namespace WasmSourceMap.Relocation

/-- What is inserted into a relocation map: a value with some width at an offset. -/
structure Insertion where
  offset : Int
  value : Int
  width : Int
deriving DecidableEq, Repr

/-- The field that keeps an insertion; its value has 64 bits. -/
def Insertion.field (i : Insertion) : Field := ⟨i.offset, (i.value % 2 ^ 64).toNat, i.width⟩

namespace Map

variable {m : Map} {offset : Int}

lemma contains_iff : m.contains offset = true ↔ ∃ f ∈ m.fields, f.offset = offset := by
  unfold contains get?
  rw [Option.isSome_map, List.find?_isSome]
  simp only [beq_iff_eq]

/-- An insertion at an offset that has a field is refused. -/
lemma insert_of_taken (taken : ∃ f ∈ m.fields, f.offset = offset) (value width : Int) :
    m.insert offset value width = .error (.duplicate m.sectionName offset) :=
  if_pos (contains_iff.2 taken)

/-- An insertion at any other offset adds its field. -/
lemma insert_of_fresh {i : Insertion} (fresh : ¬∃ f ∈ m.fields, f.offset = i.offset) :
    m.insert i.offset i.value i.width = .ok { m with fields := m.fields ++ [i.field] } :=
  if_neg fun taken => fresh (contains_iff.1 taken)

lemma insert_ok {i : Insertion} {m' : Map} (h : m.insert i.offset i.value i.width = .ok m') :
    (¬∃ f ∈ m.fields, f.offset = i.offset) ∧ m' = { m with fields := m.fields ++ [i.field] } := by
  by_cases taken : ∃ f ∈ m.fields, f.offset = i.offset
  · rw [insert_of_taken taken] at h
    cases h
  · rw [insert_of_fresh taken] at h
    exact ⟨taken, (Except.ok.inj h).symm⟩

/-- The items are the fields, sorted by their offsets. -/
lemma items_eq (m : Map) :
    m.items = (m.fields.map fun f => (f.offset, f.value)).insertionSort fun a b => a.1 ≤ b.1 := by
  have place : ∀ (item : Int × Nat) (items : List (Int × Nat)),
      insertByOffset item items = items.orderedInsert (fun a b => a.1 ≤ b.1) item := by
    intro item items
    induction items with
    | nil => rfl
    | cons next rest ih => rw [insertByOffset, List.orderedInsert_cons, ih]
  unfold items
  induction m.fields with
  | nil => rfl
  | cons f rest ih => rw [List.foldr_cons, ih, place, List.map_cons, List.insertionSort_cons]

lemma mem_items {value : Nat} :
    (offset, value) ∈ m.items ↔ ∃ f ∈ m.fields, f.offset = offset ∧ f.value = value := by
  rw [items_eq, List.mem_insertionSort, List.mem_map]
  simp only [Prod.mk.injEq]

/-- The items ascend strictly if no two fields have the same offset. -/
lemma pairwise_items (distinct : (m.fields.map Field.offset).Nodup) :
    m.items.Pairwise fun a b => a.1 < b.1 := by
  rw [items_eq]
  have total : Std.Total fun a b : Int × Nat => a.1 ≤ b.1 := ⟨fun a b => Int.le_total a.1 b.1⟩
  have trans : IsTrans (Int × Nat) fun a b => a.1 ≤ b.1 := ⟨fun _ _ _ => Int.le_trans⟩
  have ascending := List.pairwise_insertionSort (fun a b : Int × Nat => a.1 ≤ b.1)
    (m.fields.map fun f => (f.offset, f.value))
  have apart : ((m.fields.map fun f => (f.offset, f.value)).insertionSort
      fun a b => a.1 ≤ b.1).Pairwise fun a b => a.1 ≠ b.1 := by
    rw [(List.perm_insertionSort _ _).pairwise_iff fun h => h.symm, List.pairwise_map]
    exact List.pairwise_map.1 distinct
  exact (ascending.and apart).imp fun ⟨le, ne⟩ => lt_of_le_of_ne le ne

end Map

/-- The insertions made one after the other into an empty map, none of which may be refused. -/
def build (name : String) (insertions : List Insertion) : Except Fault Map :=
  insertions.foldlM (fun m i => m.insert i.offset i.value i.width) (Map.empty name)

/-- What a map shows of insertions: of each offset the value and the width that were inserted first.
-/
structure Map.Recalls (m : Map) (insertions : List Insertion) : Prop where
  field : ∀ offset, m.fields.find? (fun f => f.offset == offset) =
    (insertions.find? fun i => i.offset == offset).map Insertion.field
  get : ∀ offset, m.get? offset =
    (insertions.find? fun i => i.offset == offset).map fun i => (i.value % 2 ^ 64).toNat
  contains : ∀ offset, m.contains offset = true ↔ ∃ i ∈ insertions, i.offset = offset
  relocate : ∀ offset raw, m.relocate offset raw = ((m.get? offset).map Int.ofNat).getD raw
  mem_items : ∀ offset value, (offset, value) ∈ m.items ↔ m.get? offset = some value
  ascending : m.items.Pairwise fun a b => a.1 < b.1
  size : m.size = (insertions.map Insertion.offset).toFinset.card

variable {name : String} {insertions : List Insertion} {m : Map}

lemma build_concat (name : String) (insertions : List Insertion) (i : Insertion) :
    build name (insertions ++ [i]) =
      build name insertions >>= fun m => m.insert i.offset i.value i.width := by
  unfold build
  rw [List.foldlM_append]
  cases insertions.foldlM (fun m i => m.insert i.offset i.value i.width) (Map.empty name) with
  | error fault => rfl
  | ok m => exact bind_pure (m.insert i.offset i.value i.width)

lemma exists_field_iff {offset : Int} : (∃ f ∈ insertions.map Insertion.field, f.offset = offset) ↔
    ∃ i ∈ insertions, i.offset = offset := by
  simp [Insertion.field]

/-- Insertions are all accepted if no two of them have the same offset, and then all of them are
kept in their order. -/
lemma build_ok_iff : build name insertions = .ok m ↔
    (insertions.map Insertion.offset).Nodup ∧ m = ⟨name, insertions.map Insertion.field⟩ := by
  induction insertions using List.reverseRecOn generalizing m with
  | nil =>
    constructor
    · intro h
      cases h
      exact ⟨List.nodup_nil, rfl⟩
    · rintro ⟨_, rfl⟩
      rfl
  | append_singleton before i ih =>
    rw [build_concat, List.map_append, List.map_append, List.nodup_append_comm, List.map_singleton,
      List.singleton_append, List.nodup_cons, List.mem_map]
    constructor
    · intro h
      obtain ⟨first, built, inserted⟩ := Except.bind_ok h
      obtain ⟨distinct, rfl⟩ := ih.1 built
      obtain ⟨fresh, rfl⟩ := Map.insert_ok inserted
      exact ⟨⟨mt exists_field_iff.2 fresh, distinct⟩, rfl⟩
    · rintro ⟨⟨fresh, distinct⟩, rfl⟩
      rw [ih.2 ⟨distinct, rfl⟩, Except.ok_bind]
      exact Map.insert_of_fresh (mt exists_field_iff.1 fresh)

lemma find?_map_field (insertions : List Insertion) (offset : Int) :
    (insertions.map Insertion.field).find? (fun f => f.offset == offset) =
      (insertions.find? fun i => i.offset == offset).map Insertion.field :=
  List.find?_map

lemma nodup_map_field (distinct : (insertions.map Insertion.offset).Nodup) :
    ((insertions.map Insertion.field).map Field.offset).Nodup := by
  rw [List.map_map]
  exact distinct

/-- The fields of insertions at distinct offsets show all of them. -/
lemma recalls_of_nodup (distinct : (insertions.map Insertion.offset).Nodup) :
    Map.Recalls ⟨name, insertions.map Insertion.field⟩ insertions := by
  have offsets := nodup_map_field distinct
  have get : ∀ offset, Map.get? ⟨name, insertions.map Insertion.field⟩ offset =
      (insertions.find? fun i => i.offset == offset).map fun i => (i.value % 2 ^ 64).toNat := by
    intro offset
    unfold Map.get?
    rw [find?_map_field, Option.map_map]
    rfl
  refine {
    field := find?_map_field insertions
    get := get
    contains := fun offset => ?_
    relocate := fun offset raw => ?_
    mem_items := fun offset value => ?_
    ascending := Map.pairwise_items offsets
    size := ?_ }
  · exact Map.contains_iff.trans exists_field_iff
  · unfold Map.relocate
    cases Map.get? ⟨name, insertions.map Insertion.field⟩ offset <;> rfl
  · rw [Map.mem_items, Map.get?, Option.map_eq_some_iff]
    refine exists_congr fun f => ?_
    rw [Dictionary.find?_eq_some_iff offsets, and_assoc]
  · rw [List.toFinset_card_of_nodup distinct, List.length_map]
    exact List.length_map _

/-- A map that is built has the value of each insertion. -/
lemma get?_of_build (built : build name insertions = .ok m) {i : Insertion} (mem : i ∈ insertions) :
    m.get? i.offset = some (i.value % 2 ^ 64).toNat := by
  obtain ⟨distinct, rfl⟩ := build_ok_iff.1 built
  have inside : i.field ∈ insertions.map Insertion.field := List.mem_map_of_mem mem
  have found := (Dictionary.find?_eq_some_iff (nodup_map_field distinct)).2 ⟨inside, rfl⟩
  exact congrArg (Option.map Field.value) found

end WasmSourceMap.Relocation
