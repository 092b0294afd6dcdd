import WasmSourceMap.Proofs.Dictionary
import WasmSourceMap.Proofs.Relocation.History

/-!
# Relocation maps in two dictionaries

A relocation map can also be kept in two dictionaries, with the values and with the widths of the
fields by their offsets. An insertion sets a key in both of them or in none, so they have the same
keys at any time, and those of the values decide. Over any history the answers are those of the map
that holds the fields (`answers_empty`). In particular there is a width for each value that is
written (`apply_dictionaries`).
-/

namespace WasmSourceMap.Relocation

/-- The values and the widths of the fields of a section, by their offsets. -/
structure Dictionaries where
  sectionName : String
  values : Dictionary Int Nat
  widths : Dictionary Int Int

namespace Dictionaries

def empty (sectionName : String) : Dictionaries := ⟨sectionName, .empty, .empty⟩

/-- Set the value and the width at an offset. An offset that has a value is refused. -/
def insert (d : Dictionaries) (offset value width : Int) : Except Fault Dictionaries :=
  if d.values.contains offset then .error (.duplicate d.sectionName offset)
  else .ok { d with
    values := d.values.set offset (value % Map.valueBound).toNat
    widths := d.widths.set offset width }

/-- The value at an offset, else the value given. -/
def relocate (d : Dictionaries) (offset value : Int) : Int :=
  ((d.values.get? offset).map Int.ofNat).getD value

/-- The offsets and values in ascending order of the offset. -/
def items (d : Dictionaries) : List (Int × Nat) := d.values.entries.foldr Map.insertByOffset []

/-- Write the values over the bytes in the order of their keys. A value without a width cannot be
written, and there is no result then. -/
def apply (d : Dictionaries) (data : Bytes) : Option (Except Fault Bytes) :=
  (d.values.entries.foldlM writeEntry data : ExceptT Fault Option Bytes)
where
  writeEntry (data : Bytes) (entry : Int × Nat) : ExceptT Fault Option Bytes :=
    (d.widths.get? entry.1).map fun width =>
      Map.writeField d.sectionName data ⟨entry.1, entry.2, width⟩

/-- What a call answers, if it does, and the dictionaries after it. -/
def call (d : Dictionaries) : Call → Option Answer × Dictionaries
  | .insert i =>
    match d.insert i.offset i.value i.width with
    | .ok after => (some .inserted, after)
    | .error fault => (some (.refused fault), d)
  | .get offset => (some (.value (d.values.get? offset)), d)
  | .contains offset => (some (.isThere (d.values.contains offset)), d)
  | .relocate offset raw => (some (.relocated (d.relocate offset raw)), d)
  | .items => (some (.items d.items), d)
  | .size => (some (.size d.values.size), d)
  | .apply data => ((d.apply data).map .written, d)

/-- What some calls answer one after the other. -/
def answers (d : Dictionaries) : List Call → List (Option Answer)
  | [] => []
  | c :: rest => (d.call c).1 :: (d.call c).2.answers rest

end Dictionaries

/-- The two dictionaries of a relocation map. -/
def Map.dictionaries (m : Map) : Dictionaries where
  sectionName := m.sectionName
  values := .keyed Field.offset Field.value m.fields
  widths := .keyed Field.offset Field.width m.fields

variable {m : Map}

lemma get?_dictionaries (m : Map) (offset : Int) :
    m.dictionaries.values.get? offset = m.get? offset :=
  Dictionary.get?_keyed offset

lemma contains_dictionaries (m : Map) (offset : Int) :
    m.dictionaries.values.contains offset = m.contains offset := by
  rw [Dictionary.contains, get?_dictionaries, Map.contains]

lemma relocate_dictionaries (m : Map) (offset raw : Int) :
    m.dictionaries.relocate offset raw = m.relocate offset raw := by
  unfold Dictionaries.relocate Map.relocate
  rw [get?_dictionaries]
  cases m.get? offset <;> rfl

/-- An insertion sets both keys, or none if the offset has a value. -/
lemma insert_dictionaries (m : Map) (i : Insertion) :
    m.dictionaries.insert i.offset i.value i.width =
      (m.insert i.offset i.value i.width).map Map.dictionaries := by
  unfold Dictionaries.insert
  rw [contains_dictionaries]
  by_cases taken : m.contains i.offset = true
  · rw [if_pos taken, Map.insert_of_taken (Map.contains_iff.1 taken)]
    rfl
  · have noValue := Bool.eq_false_iff.2 taken
    rw [← contains_dictionaries] at noValue
    -- The widths have the keys of the values.
    have noWidth : m.dictionaries.widths.contains i.offset = false := by
      rw [← noValue]
      exact (Dictionary.contains_keyed _).trans (Dictionary.contains_keyed _).symm
    rw [if_neg taken, Map.insert_of_fresh (mt Map.contains_iff.2 taken)]
    have values : m.dictionaries.values.set i.offset i.field.value =
        .keyed Field.offset Field.value (m.fields ++ [i.field]) :=
      Dictionary.set_keyed (r := i.field) noValue
    have widths : m.dictionaries.widths.set i.offset i.width =
        .keyed Field.offset Field.width (m.fields ++ [i.field]) :=
      Dictionary.set_keyed (r := i.field) noWidth
    exact congrArg₂ (fun values widths => Except.ok (Dictionaries.mk m.sectionName values widths))
      values widths

lemma items_dictionaries (m : Map) : m.dictionaries.items = m.items := List.foldr_map

/-- Every value has its width, so writing the values is writing the fields. -/
lemma apply_dictionaries (distinct : (m.fields.map Field.offset).Nodup) (data : Bytes) :
    m.dictionaries.apply data = some (m.apply data) := by
  have width : ∀ f ∈ m.fields, m.dictionaries.widths.get? f.offset = some f.width :=
    fun _ mem => Dictionary.get?_keyed_of_mem distinct mem
  have write : ∀ fields : List Field, (∀ f ∈ fields, f ∈ m.fields) → ∀ data,
      ((fields.map fun f => (f.offset, f.value)).foldlM
        (Dictionaries.apply.writeEntry m.dictionaries) data : ExceptT Fault Option Bytes) =
      some (fields.foldlM (Map.writeField m.sectionName) data) := by
    intro fields inMap
    induction fields with
    | nil => exact fun _ => rfl
    | cons f rest ih =>
      intro data
      obtain ⟨here, later⟩ := List.forall_mem_cons.1 inMap
      have first : Dictionaries.apply.writeEntry m.dictionaries data (f.offset, f.value) =
          some (Map.writeField m.sectionName data f) := by
        unfold Dictionaries.apply.writeEntry
        rw [width f here]
        rfl
      rw [List.map_cons, List.foldlM_cons, List.foldlM_cons, first]
      cases Map.writeField m.sectionName data f with
      | error fault => rfl
      | ok written => exact ih later written
  exact write m.fields (fun _ => id) data

/-- A call leaves at most one field for each offset. -/
lemma nodup_call (distinct : (m.fields.map Field.offset).Nodup) (c : Call) :
    ((m.call c).2.fields.map Field.offset).Nodup := by
  cases c with
  | insert i =>
    by_cases taken : ∃ f ∈ m.fields, f.offset = i.offset
    · rw [call_of_taken taken]
      exact distinct
    · rw [call_of_fresh taken, List.map_append, List.map_singleton, ← List.concat_eq_append,
        List.nodup_concat]
      exact ⟨fun known => taken (List.mem_map.1 known), distinct⟩
  | _ => exact distinct

/-- A call on the dictionaries of a map answers as the call on the map, and leaves its dictionaries.
-/
lemma call_dictionaries (distinct : (m.fields.map Field.offset).Nodup) (c : Call) :
    m.dictionaries.call c = (some (m.call c).1, (m.call c).2.dictionaries) := by
  cases c with
  | insert i =>
    unfold Dictionaries.call Map.call
    dsimp only
    rw [insert_dictionaries]
    cases m.insert i.offset i.value i.width <;> rfl
  | get offset =>
    exact congrArg (fun found => (some (Answer.value found), m.dictionaries))
      (get?_dictionaries m offset)
  | contains offset =>
    exact congrArg (fun there => (some (Answer.isThere there), m.dictionaries))
      (contains_dictionaries m offset)
  | relocate offset raw =>
    exact congrArg (fun value => (some (Answer.relocated value), m.dictionaries))
      (relocate_dictionaries m offset raw)
  | items =>
    exact congrArg (fun items => (some (Answer.items items), m.dictionaries)) (items_dictionaries m)
  | size =>
    exact congrArg (fun size => (some (Answer.size size), m.dictionaries)) (List.length_map _)
  | apply data =>
    exact congrArg (fun written => (written.map Answer.written, m.dictionaries))
      (apply_dictionaries distinct data)

/-- The two dictionaries answer any calls as the map does that holds the fields. -/
theorem answers_empty (name : String) (calls : List Call) :
    (Dictionaries.empty name).answers calls = ((Map.empty name).answers calls).map some := by
  have run : ∀ m : Map, (m.fields.map Field.offset).Nodup →
      m.dictionaries.answers calls = (m.answers calls).map some := by
    induction calls with
    | nil => exact fun _ _ => rfl
    | cons c rest ih =>
      intro m distinct
      rw [Dictionaries.answers, Map.answers, List.map_cons, call_dictionaries distinct]
      exact congrArg _ (ih _ (nodup_call distinct c))
  exact run (.empty name) List.nodup_nil

end WasmSourceMap.Relocation
