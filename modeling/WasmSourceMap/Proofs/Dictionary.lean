import Mathlib.Data.List.Nodup

/-!
# Dictionaries

A dictionary has one value for each of its keys, in the order in which the keys were first set. The
tables of this library hold their records in one list each. The dictionaries that keep the same
records side by side are read off the list (`keyed`), and a new record is a new entry (`set_keyed`)
or takes the place of the one with its key (`set_keyed_of_mem`).
-/

namespace WasmSourceMap

/-- Values with their keys. -/
structure Dictionary (κ α : Type) where
  entries : List (κ × α)

namespace Dictionary

variable {κ α β : Type}

def empty : Dictionary κ α := ⟨[]⟩

def size (d : Dictionary κ α) : Nat := d.entries.length

/-- One value of each record of a list under its key. -/
def keyed (key : β → κ) (value : β → α) (records : List β) : Dictionary κ α :=
  ⟨records.map fun r => (key r, value r)⟩

variable [DecidableEq κ]

def get? (d : Dictionary κ α) (key : κ) : Option α :=
  (d.entries.find? fun e => e.1 == key).map (·.2)

def contains (d : Dictionary κ α) (key : κ) : Bool := (d.get? key).isSome

/-- Set the value of a key. A key that is there keeps its place; a new one is put at the end. -/
def set (d : Dictionary κ α) (key : κ) (value : α) : Dictionary κ α :=
  if d.contains key then ⟨d.entries.map fun e => if e.1 = key then (key, value) else e⟩
  else ⟨d.entries ++ [(key, value)]⟩

variable {key : β → κ} {value : β → α} {records : List β}

lemma get?_keyed (k : κ) : (keyed key value records).get? k =
    (records.find? fun r => key r == k).map value := by
  unfold get? keyed
  rw [List.find?_map, Option.map_map]
  rfl

lemma contains_keyed (k : κ) : (keyed key value records).contains k =
    (records.find? fun r => key r == k).isSome := by
  rw [contains, get?_keyed, Option.isSome_map]

/-- If all keys are different, what is found by a key is the record with this key. -/
lemma find?_eq_some_iff (distinct : (records.map key).Nodup) {k : κ} {r : β} :
    records.find? (fun other => key other == k) = some r ↔ r ∈ records ∧ key r = k := by
  constructor
  · intro found
    exact ⟨List.mem_of_find?_eq_some found, by simpa using List.find?_some found⟩
  · rintro ⟨mem, rfl⟩
    cases found : records.find? (fun other => key other == key r) with
    | none => exact absurd (beq_self_eq_true (key r)) (List.find?_eq_none.1 found r mem)
    | some other =>
      have same : key other = key r := by simpa using List.find?_some found
      rw [List.inj_on_of_nodup_map distinct (List.mem_of_find?_eq_some found) mem same]

lemma get?_keyed_of_mem (distinct : (records.map key).Nodup) {r : β} (mem : r ∈ records) :
    (keyed key value records).get? (key r) = some (value r) := by
  rw [get?_keyed, (find?_eq_some_iff distinct).2 ⟨mem, rfl⟩]
  rfl

/-- A new record adds an entry. -/
lemma set_keyed {r : β} (fresh : (keyed key value records).contains (key r) = false) :
    (keyed key value records).set (key r) (value r) = keyed key value (records ++ [r]) := by
  unfold set
  rw [if_neg (Bool.eq_false_iff.1 fresh)]
  unfold keyed
  rw [List.map_append]
  rfl

/-- A record with a key that is there takes the place of the one with this key. -/
lemma set_keyed_of_mem {r : β} (there : (keyed key value records).contains (key r) = true) :
    (keyed key value records).set (key r) (value r) =
      keyed key value (records.map fun other => if key other = key r then r else other) := by
  unfold set
  rw [if_pos there]
  unfold keyed
  rw [List.map_map, List.map_map]
  congr 1
  refine List.map_congr_left fun other _ => ?_
  by_cases same : key other = key r
  · simp only [Function.comp_apply, if_pos same]
  · simp only [Function.comp_apply, if_neg same]

/-- After a record is set there are the new one and those with other keys. -/
lemma exists_set_keyed (distinct : (records.map key).Nodup) (r : β) :
    ∃ later, (keyed key value records).set (key r) (value r) = keyed key value later ∧
      (later.map key).Nodup ∧
      ∀ other, other ∈ later ↔ other = r ∨ key other ≠ key r ∧ other ∈ records := by
  have there_iff : (keyed key value records).contains (key r) = true ↔
      ∃ other ∈ records, key other = key r := by
    rw [contains_keyed, List.find?_isSome]
    simp only [beq_iff_eq]
  by_cases there : ∃ other ∈ records, key other = key r
  · refine ⟨_, set_keyed_of_mem (there_iff.2 there), ?_, fun other => ?_⟩
    · have keys : key ∘ (fun other => if key other = key r then r else other) = key := by
        funext other
        by_cases same : key other = key r
        · exact (congrArg key (if_pos same)).trans same.symm
        · exact congrArg key (if_neg same)
      rwa [List.map_map, keys]
    · rw [List.mem_map]
      constructor
      · rintro ⟨old, mem, rfl⟩
        by_cases same : key old = key r
        · exact .inl (if_pos same)
        · rw [if_neg same]
          exact .inr ⟨same, mem⟩
      · rintro (rfl | ⟨apart, mem⟩)
        · obtain ⟨old, mem, same⟩ := there
          exact ⟨old, mem, if_pos same⟩
        · exact ⟨other, mem, if_neg apart⟩
  · refine ⟨_, set_keyed (Bool.eq_false_iff.2 (mt there_iff.1 there)), ?_, fun other => ?_⟩
    · rw [List.map_append, List.map_singleton, ← List.concat_eq_append, List.nodup_concat]
      exact ⟨fun known => there (List.mem_map.1 known), distinct⟩
    · have apart : other ∈ records → key other ≠ key r := fun mem same => there ⟨other, mem, same⟩
      rw [List.mem_append, List.mem_singleton, or_comm]
      exact or_congr_right ⟨fun mem => ⟨apart mem, mem⟩, And.right⟩

end Dictionary

end WasmSourceMap
