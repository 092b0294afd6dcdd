import WasmSourceMap.Proofs.Relocation.Insertions

/-!
# Relocation maps over any history

A map is called again and again: values are inserted, looked up, listed and written over bytes.
After any calls the map is the one that the first insertion at each offset alone would have built
(`build_firsts`), so it shows each offset as it was inserted first. A second insertion at an offset
is refused, and no call that follows can tell that it was tried (`recalls_of_calls`).
-/

namespace WasmSourceMap.Relocation

/-- The first insertion at each offset, in the order of the insertions. -/
def firsts : List Insertion → List Insertion
  | [] => []
  | i :: rest => i :: (firsts rest).filter fun j => j.offset ≠ i.offset

lemma find?_firsts (insertions : List Insertion) (offset : Int) :
    (firsts insertions).find? (fun i => i.offset == offset) =
      insertions.find? fun i => i.offset == offset := by
  induction insertions with
  | nil => rfl
  | cons i rest ih =>
    rw [firsts, List.find?_cons, List.find?_cons, List.find?_filter]
    cases here : i.offset == offset with
    | true => rfl
    | false =>
      -- What is left out behind `i` has the offset of `i`, which is not the one looked for.
      dsimp only
      rw [← ih]
      congr 1
      funext j
      have other := beq_eq_false_iff_ne.1 here
      by_cases same : j.offset = offset
      · simp [same, other.symm]
      · simp [same]

/-- An offset is inserted at if and only if it is among the first insertions. -/
lemma exists_firsts_iff {insertions : List Insertion} {offset : Int} :
    (∃ i ∈ firsts insertions, i.offset = offset) ↔ ∃ i ∈ insertions, i.offset = offset := by
  have found := congrArg Option.isSome (find?_firsts insertions offset)
  rw [Bool.eq_iff_iff, List.find?_isSome, List.find?_isSome] at found
  simpa only [beq_iff_eq] using found

lemma nodup_firsts (insertions : List Insertion) :
    ((firsts insertions).map Insertion.offset).Nodup := by
  induction insertions with
  | nil => exact List.nodup_nil
  | cons i rest ih =>
    rw [firsts, List.map_cons, List.nodup_cons]
    constructor
    · rw [List.mem_map]
      rintro ⟨j, mem, same⟩
      exact absurd same (of_decide_eq_true (List.mem_filter.1 mem).2)
    · exact ih.sublist (List.filter_sublist.map _)

/-- An insertion counts if it is the first one at its offset. -/
lemma firsts_concat (insertions : List Insertion) (i : Insertion) :
    firsts (insertions ++ [i]) = if ∃ j ∈ insertions, j.offset = i.offset then firsts insertions
      else firsts insertions ++ [i] := by
  induction insertions with
  | nil => rfl
  | cons j rest ih =>
    rw [List.cons_append, firsts, ih]
    by_cases later : ∃ k ∈ rest, k.offset = i.offset
    · rw [if_pos later, if_pos (later.imp fun k h => ⟨List.mem_cons_of_mem j h.1, h.2⟩)]
      rfl
    · rw [if_neg later, List.filter_append]
      by_cases same : j.offset = i.offset
      · rw [if_pos ⟨j, List.mem_cons_self, same⟩]
        simp [firsts, same]
      · rw [if_neg]
        · simp [firsts, Ne.symm same]
        · rintro ⟨k, mem, here⟩
          rcases List.mem_cons.1 mem with rfl | mem
          · exact same here
          · exact later ⟨k, mem, here⟩

/-- What the first insertions show is what all of them show. -/
lemma Map.Recalls.of_firsts {m : Map} {insertions : List Insertion}
    (h : m.Recalls (firsts insertions)) : m.Recalls insertions where
  field offset := find?_firsts insertions offset ▸ h.field offset
  get offset := find?_firsts insertions offset ▸ h.get offset
  contains offset := (h.contains offset).trans exists_firsts_iff
  relocate := h.relocate
  mem_items := h.mem_items
  ascending := h.ascending
  size := by
    rw [h.size]
    congr 1
    ext offset
    simp only [List.mem_toFinset, List.mem_map]
    exact exists_firsts_iff

/-- A call on a relocation map. -/
inductive Call where
  | insert (i : Insertion)
  | get (offset : Int)
  | contains (offset : Int)
  | relocate (offset raw : Int)
  | items
  | size
  | apply (data : Bytes)

/-- What a call answers. -/
inductive Answer where
  | inserted
  | refused (fault : Fault)
  | value (found : Option Nat)
  | isThere (there : Bool)
  | relocated (value : Int)
  | items (items : List (Int × Nat))
  | size (size : Nat)
  | written (result : Except Fault Bytes)

namespace Map

/-- What a call answers, and the map after it. -/
def call (m : Map) : Call → Answer × Map
  | .insert i =>
    match m.insert i.offset i.value i.width with
    | .ok after => (.inserted, after)
    | .error fault => (.refused fault, m)
  | .get offset => (.value (m.get? offset), m)
  | .contains offset => (.isThere (m.contains offset), m)
  | .relocate offset raw => (.relocated (m.relocate offset raw), m)
  | .items => (.items m.items, m)
  | .size => (.size m.size, m)
  | .apply data => (.written (m.apply data), m)

/-- The map after some calls. -/
def after (m : Map) (calls : List Call) : Map := calls.foldl (fun m c => (m.call c).2) m

/-- What some calls answer one after the other. -/
def answers (m : Map) : List Call → List Answer
  | [] => []
  | c :: rest => (m.call c).1 :: (m.call c).2.answers rest

end Map

/-- The insertions that are tried among some calls. -/
def insertions (calls : List Call) : List Insertion :=
  calls.filterMap fun
    | .insert i => some i
    | _ => none

variable {name : String} {m : Map} {i : Insertion}

lemma call_of_taken (taken : ∃ f ∈ m.fields, f.offset = i.offset) :
    m.call (.insert i) = (.refused (.duplicate m.sectionName i.offset), m) := by
  rw [Map.call, Map.insert_of_taken taken]

lemma call_of_fresh (fresh : ¬∃ f ∈ m.fields, f.offset = i.offset) :
    m.call (.insert i) = (.inserted, { m with fields := m.fields ++ [i.field] }) := by
  rw [Map.call, Map.insert_of_fresh fresh]

/-- A call keeps a map that holds the first insertions one that does. -/
lemma call_firsts (name : String) (before : List Insertion) (c : Call) :
    (Map.call ⟨name, (firsts before).map Insertion.field⟩ c).2 =
      ⟨name, (firsts (before ++ insertions [c])).map Insertion.field⟩ := by
  cases c with
  | insert i =>
    show _ = (⟨name, (firsts (before ++ [i])).map Insertion.field⟩ : Map)
    rw [firsts_concat]
    by_cases taken : ∃ j ∈ before, j.offset = i.offset
    · rw [if_pos taken, call_of_taken (exists_field_iff.2 (exists_firsts_iff.2 taken))]
    · rw [if_neg taken, call_of_fresh, List.map_append]
      · rfl
      · exact mt exists_field_iff.1 (mt exists_firsts_iff.1 taken)
  | _ => exact congrArg (fun is => (⟨name, (firsts is).map _⟩ : Map)) (List.append_nil before).symm

lemma after_concat (m : Map) (calls : List Call) (c : Call) :
    m.after (calls ++ [c]) = ((m.after calls).call c).2 := by
  rw [Map.after, List.foldl_append]
  rfl

/-- Calls leave the first insertions, whatever was called in between. -/
lemma after_empty (name : String) (calls : List Call) :
    (Map.empty name).after calls = ⟨name, (firsts (insertions calls)).map Insertion.field⟩ := by
  induction calls using List.reverseRecOn with
  | nil => rfl
  | append_singleton before c ih =>
    have both : insertions (before ++ [c]) = insertions before ++ insertions [c] :=
      List.filterMap_append
    rw [after_concat, ih, call_firsts, both]

/-- After any calls the map shows the insertions that were tried, and is the one that the first
insertions alone build. One more insertion is refused if and only if its offset was inserted at, and
then it does not change any later answer. -/
theorem recalls_of_calls (name : String) (calls : List Call) :
    ((Map.empty name).after calls).Recalls (insertions calls) ∧
    build name (firsts (insertions calls)) = .ok ((Map.empty name).after calls) ∧
    (∀ i, (∃ j ∈ insertions calls, j.offset = i.offset) → ∀ later,
      ((Map.empty name).after calls).answers (.insert i :: later) =
        .refused (.duplicate name i.offset) :: ((Map.empty name).after calls).answers later) ∧
    ∀ i, (¬∃ j ∈ insertions calls, j.offset = i.offset) → ∀ later,
      ((Map.empty name).after calls).answers (.insert i :: later) =
        .inserted :: ((Map.empty name).after (calls ++ [.insert i])).answers later := by
  have taken_iff : ∀ i : Insertion, (∃ f ∈ ((Map.empty name).after calls).fields,
      f.offset = i.offset) ↔ ∃ j ∈ insertions calls, j.offset = i.offset := by
    intro i
    rw [after_empty]
    exact exists_field_iff.trans exists_firsts_iff
  refine ⟨?_, ?_, ?_, ?_⟩
  · rw [after_empty]
    exact (recalls_of_nodup (nodup_firsts _)).of_firsts
  · exact build_ok_iff.2 ⟨nodup_firsts _, after_empty name calls⟩
  · intro i known later
    rw [Map.answers, call_of_taken ((taken_iff i).2 known), after_empty]
  · intro i fresh later
    rw [after_concat, Map.answers, call_of_fresh (mt (taken_iff i).1 fresh)]

/-- Two insertions, and between them calls that only ask. -/
def twoInsertions : List Call :=
  [.insert ⟨8, 1, 4⟩, .items, .apply (List.replicate 12 0), .insert ⟨0, -1, 2⟩, .get 8]

/-- A value and a width for an offset that has both already change nothing. -/
theorem recalls_of_calls_twoInsertions :
    ((Map.empty ".debug_info").after twoInsertions).get? 8 = some 1 ∧
    ((Map.empty ".debug_info").after twoInsertions).size = 2 ∧
    ∀ data, ((Map.empty ".debug_info").after twoInsertions).answers
        [.insert ⟨8, 7, 2⟩, .items, .apply data] =
      .refused (.duplicate ".debug_info" 8) ::
        ((Map.empty ".debug_info").after twoInsertions).answers [.items, .apply data] := by
  obtain ⟨recalls, _, refused, _⟩ := recalls_of_calls ".debug_info" twoInsertions
  have tried : insertions twoInsertions = [⟨8, 1, 4⟩, ⟨0, -1, 2⟩] := rfl
  rw [tried] at recalls refused
  refine ⟨recalls.get 8, recalls.size.trans ?_, fun data => ?_⟩
  · decide
  · exact refused ⟨8, 7, 2⟩ ⟨⟨8, 1, 4⟩, List.mem_cons_self, rfl⟩ [.items, .apply data]

end WasmSourceMap.Relocation
