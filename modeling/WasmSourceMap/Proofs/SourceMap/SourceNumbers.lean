import Mathlib.Data.Finset.Card
import Mathlib.Data.Finset.Range
import Mathlib.Tactic.Lemma
import WasmSourceMap.Proofs.Dictionary
import WasmSourceMap.Proofs.SourceMap.RoundTrip

/-!
# Numbers of sources

Paths are numbered in the order in which they first appear. Adding a path keeps the numbers that
were given complete: they are all those below the length of the table (`insert_range_add`). So after
any run of paths there are as many numbers as paths in the table (`toFinset_numbers`), and a number
is at most the count of the different numbers before it (`le_card_of_numbers`). The table has each
path once (`nodup_addAll`), at the place that is its number (`forall₂_numbers`). A table that keeps
the numbers in a dictionary beside the paths gives the same numbers (`numbers_indexed`).
-/

namespace WasmSourceMap.SourceTable

/-- The table with some paths added one after the other. -/
def addAll (t : SourceTable) (paths : List String) : SourceTable :=
  paths.foldl (fun t path => (t.add path).2) t

/-- The numbers of some paths that are added one after the other. -/
def numbers : SourceTable → List String → List Nat
  | _, [] => []
  | t, path :: rest => (t.add path).1 :: numbers (t.add path).2 rest

variable (t : SourceTable) (path : String) (paths : List String)

/-- A path that is in the table keeps its number, and the table stays as it is. -/
lemma add_of_mem (h : path ∈ t.paths) :
    (t.add path).1 < t.paths.length ∧ (t.add path).2 = t := by
  unfold add
  cases found : t.paths.idxOf? path with
  | none => exact absurd h (List.idxOf?_eq_none_iff.1 found)
  | some id =>
    obtain ⟨inside, _⟩ := List.findIdx?_eq_some_iff_getElem.1 found
    exact ⟨inside, rfl⟩

/-- A new path is put at the end. -/
lemma add_of_not_mem (h : path ∉ t.paths) :
    t.add path = (t.paths.length, ⟨t.paths ++ [path]⟩) := by
  unfold add
  rw [List.idxOf?_eq_none_iff.2 h]

lemma add_le : (t.add path).1 ≤ t.paths.length := by
  by_cases h : path ∈ t.paths
  · exact (t.add_of_mem path h).1.le
  · rw [t.add_of_not_mem path h]

lemma nodup_add (distinct : t.paths.Nodup) : (t.add path).2.paths.Nodup := by
  by_cases h : path ∈ t.paths
  · rwa [(t.add_of_mem path h).2]
  · rw [t.add_of_not_mem path h]
    refine List.nodup_append.2 ⟨distinct, List.nodup_singleton path, ?_⟩
    rintro _ mem _ last rfl
    exact h (List.mem_singleton.1 last ▸ mem)

lemma addAll_cons : t.addAll (path :: paths) = (t.add path).2.addAll paths := rfl

lemma nodup_addAll (distinct : t.paths.Nodup) : (t.addAll paths).paths.Nodup := by
  induction paths generalizing t with
  | nil => exact distinct
  | cons path rest ih =>
    rw [addAll_cons]
    exact ih _ (t.nodup_add path distinct)

/-- Adding paths keeps the numbers of those that are there. -/
lemma prefix_addAll : t.paths <+: (t.addAll paths).paths := by
  induction paths generalizing t with
  | nil => exact List.prefix_refl _
  | cons path rest ih =>
    rw [addAll_cons]
    exact (t.prefix_add path).trans (ih _)

/-- The number of a path says where it is in the end. -/
lemma forall₂_numbers :
    List.Forall₂ (fun path id => (t.addAll paths).paths[id]? = some path) paths
      (t.numbers paths) := by
  induction paths generalizing t with
  | nil => exact .nil
  | cons path rest ih =>
    rw [addAll_cons, numbers]
    refine .cons ?_ (ih _)
    obtain ⟨more, e⟩ := (t.add path).2.prefix_addAll rest
    have here := t.getElem?_add path
    rw [← e, List.getElem?_append_left (List.getElem?_eq_some_iff.1 here).1, here]

/-- With the number of a path the numbers below the length of the table stay complete. -/
lemma insert_range_add :
    insert (t.add path).1 (Finset.range t.paths.length) =
      Finset.range (t.add path).2.paths.length := by
  by_cases h : path ∈ t.paths
  · obtain ⟨inside, same⟩ := t.add_of_mem path h
    rw [same]
    exact Finset.insert_eq_of_mem (Finset.mem_range.2 inside)
  · rw [t.add_of_not_mem path h, List.length_append, List.length_singleton, Finset.range_add_one]

/-- The numbers that were given and those from the start are all numbers below the length of the
table. -/
lemma toFinset_numbers :
    Finset.range t.paths.length ∪ (t.numbers paths).toFinset =
      Finset.range (t.addAll paths).paths.length := by
  induction paths generalizing t with
  | nil => exact Finset.union_empty _
  | cons path rest ih =>
    rw [addAll_cons, numbers, List.toFinset_cons, Finset.union_insert, ← Finset.insert_union,
      insert_range_add, ih]

/-- A number is at most the count of the different numbers before it. -/
lemma le_card_of_numbers {before after : List Nat} {id : Nat}
    (h : t.numbers paths = before ++ id :: after) :
    id ≤ (Finset.range t.paths.length ∪ before.toFinset).card := by
  induction paths generalizing t before with
  | nil => cases before <;> cases h
  | cons path rest ih =>
    rw [numbers] at h
    cases before with
    | nil =>
      rw [← (List.cons.inj h).1, List.toFinset_nil, Finset.union_empty, Finset.card_range]
      exact t.add_le path
    | cons first before =>
      obtain ⟨rfl, later⟩ := List.cons.inj h
      rw [List.toFinset_cons, Finset.union_insert, ← Finset.insert_union, insert_range_add]
      exact ih _ later

/-- Paths in the order of first appearance, and a dictionary of their numbers beside them. -/
structure Indexed where
  paths : List String
  numbers : Dictionary String Nat

/-- The number of a path, and the table with the path in both parts of it. -/
def Indexed.add (t : Indexed) (path : String) : Nat × Indexed :=
  match t.numbers.get? path with
  | some id => (id, t)
  | none => (t.paths.length, ⟨t.paths ++ [path], t.numbers.set path t.paths.length⟩)

/-- The numbers of some paths that are added one after the other, and the table after them. -/
def Indexed.addAll : Indexed → List String → List Nat × Indexed
  | t, [] => ([], t)
  | t, path :: rest =>
    let later := (t.add path).2.addAll rest
    ((t.add path).1 :: later.1, later.2)

/-- The table with its numbers in a dictionary. -/
def indexed : Indexed := ⟨t.paths, .keyed Prod.fst Prod.snd t.paths.zipIdx⟩

/-- The number of a path in the dictionary is its place among the paths. -/
lemma get?_indexed : t.indexed.numbers.get? path = t.paths.idxOf? path := by
  have place : ∀ (paths : List String) (start : Nat),
      ((paths.zipIdx start).find? fun entry => entry.1 == path).map Prod.snd =
        (paths.idxOf? path).map (· + start) := by
    intro paths
    induction paths with
    | nil => exact fun _ => rfl
    | cons first rest ih =>
      intro start
      rw [List.zipIdx_cons, List.find?_cons, List.idxOf?_cons]
      cases first == path with
      | true => exact congrArg some (Nat.zero_add start).symm
      | false =>
        dsimp only
        rw [ih, if_neg Bool.false_ne_true, Option.map_map]
        congr 1
        funext id
        exact (Nat.add_right_comm id 1 start).symm
  refine (Dictionary.get?_keyed path).trans ?_
  rw [place]
  exact congrFun Option.map_id _

/-- Adding a path adds it to both parts, or to none. -/
lemma add_indexed : t.indexed.add path = ((t.add path).1, (t.add path).2.indexed) := by
  unfold Indexed.add
  rw [get?_indexed]
  cases found : t.paths.idxOf? path with
  | some id =>
    unfold add
    rw [found]
  | none =>
    have fresh : t.indexed.numbers.contains path = false := by
      rw [Dictionary.contains, get?_indexed, found]
      rfl
    have added : t.indexed.numbers.set path t.paths.length =
        Indexed.numbers (indexed ⟨t.paths ++ [path]⟩) := by
      refine (Dictionary.set_keyed (r := (path, t.paths.length)) fresh).trans ?_
      unfold indexed
      rw [List.zipIdx_append, List.zipIdx_singleton, Nat.zero_add]
    rw [t.add_of_not_mem path (List.idxOf?_eq_none_iff.1 found)]
    exact congrArg (fun numbers => (t.paths.length, Indexed.mk (t.paths ++ [path]) numbers)) added

/-- The numbers from the dictionary are those from the paths alone, for any run of paths. -/
theorem numbers_indexed : t.indexed.addAll paths = (t.numbers paths, (t.addAll paths).indexed) := by
  induction paths generalizing t with
  | nil => rfl
  | cons path rest ih =>
    rw [Indexed.addAll, add_indexed]
    dsimp only
    rw [ih]
    rfl

end WasmSourceMap.SourceTable
