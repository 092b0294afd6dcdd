import Mathlib.Tactic.Lemma
import WasmSourceMap.Position.Table

/-!
# The last write counts

A position table holds the last point of each address and nothing else:
`PositionTable.mem_insertAll` says which points are in a table after a run of insertions, by
induction over the run from the fact about one insertion (`mem_insertPoint_iff`). The table of a
list starts from nothing, so `PositionTable.mem_ofList` speaks of the list alone.
-/

namespace WasmSourceMap

variable {α β : Type}

/-- The last of some items with an address. -/
def lastAt (addressOf : α → Int) (items : List α) (address : Int) : Option α :=
  (items.filter fun x => addressOf x == address).getLast?

lemma mem_of_lastAt {addressOf : α → Int} {items : List α} {address : Int} {x : α}
    (h : lastAt addressOf items address = some x) : x ∈ items := by
  have found := List.mem_of_getLast? h
  exact (List.mem_filter.1 found).1

/-- An item in front is the last one of its address only if no other item has the address. -/
lemma lastAt_cons (addressOf : α → Int) (x : α) (items : List α) (address : Int) :
    lastAt addressOf (x :: items) address =
      (lastAt addressOf items address).or (if addressOf x = address then some x else none) := by
  unfold lastAt
  rw [List.filter_cons]
  by_cases h : addressOf x = address
  · rw [if_pos (beq_iff_eq.2 h), if_pos h, List.getLast?_cons]
    cases (items.filter fun y => addressOf y == address).getLast? <;> rfl
  · rw [if_neg (fun e => h (beq_iff_eq.1 e)), if_neg h, Option.or_none]

/-- The last item of two runs is the last one of the second, if it has one at the address. -/
lemma lastAt_append (addressOf : α → Int) (first second : List α) (address : Int) :
    lastAt addressOf (first ++ second) address =
      (lastAt addressOf second address).or (lastAt addressOf first address) := by
  unfold lastAt
  rw [List.filter_append, List.getLast?_append]

/-- The last of the images with an address is the image of the last item whose image has it. -/
lemma lastAt_map (addressOf : β → Int) (f : α → β) (items : List α) (address : Int) :
    lastAt addressOf (items.map f) address =
      (lastAt (fun x => addressOf (f x)) items address).map f := by
  unfold lastAt
  rw [List.filter_map, List.getLast?_map]
  rfl

/-- After an insertion there are the new point and those at other addresses. -/
lemma mem_insertPoint_iff {p q : Point} {points : List Point} (h : Ascending points) :
    q ∈ insertPoint p points ↔ q = p ∨ q ∈ points ∧ q.address ≠ p.address := by
  induction points with
  | nil => simp [insertPoint]
  | cons first rest ih =>
    obtain ⟨below, ascending⟩ := List.pairwise_cons.1 h
    unfold insertPoint
    split
    · -- The new point lies below all others, which stay.
      rename_i before
      have apart : ∀ r ∈ first :: rest, r.address ≠ p.address := by
        intro r hr
        rcases List.mem_cons.1 hr with rfl | hr
        · omega
        · have := below r hr
          omega
      rw [List.mem_cons]
      exact or_congr_right ⟨fun m => ⟨m, apart q m⟩, fun m => m.1⟩
    · split
      · -- The new point takes the place of the first one, the only one of its address.
        rename_i same
        have apart : ∀ r ∈ rest, r.address ≠ p.address := by
          intro r hr
          have := below r hr
          omega
        rw [List.mem_cons, List.mem_cons]
        refine or_congr_right ⟨fun m => ⟨.inr m, apart q m⟩, ?_⟩
        rintro ⟨rfl | m, other⟩
        · exact absurd same.symm other
        · exact m
      · -- The new point lies further on, and the first one has another address.
        rename_i different
        rw [List.mem_cons, List.mem_cons, ih ascending]
        constructor
        · rintro (rfl | rfl | ⟨m, other⟩)
          · exact .inr ⟨.inl rfl, fun e => different e.symm⟩
          · exact .inl rfl
          · exact .inr ⟨.inr m, other⟩
        · rintro (rfl | ⟨rfl | m, other⟩)
          · exact .inr (.inl rfl)
          · exact .inl rfl
          · exact .inr (.inr ⟨m, other⟩)

namespace PositionTable

lemma insertAll_append (t : PositionTable) (first second : List Point) :
    t.insertAll (first ++ second) = (t.insertAll first).insertAll second :=
  List.foldl_append

/-- After some insertions there are the last points of their addresses, and those that were there at
all other addresses. -/
lemma mem_insertAll {t : PositionTable} {inserted : List Point} {q : Point} :
    q ∈ (t.insertAll inserted).points ↔
      lastAt Point.address inserted q.address = some q ∨
        lastAt Point.address inserted q.address = none ∧ q ∈ t.points := by
  unfold insertAll
  induction inserted generalizing t with
  | nil => simp [lastAt]
  | cons p rest ih =>
    rw [List.foldl_cons, ih, lastAt_cons]
    have step : q ∈ (t.insert p).points ↔ q = p ∨ q ∈ t.points ∧ q.address ≠ p.address :=
      mem_insertPoint_iff t.ascending
    rw [step]
    cases later : lastAt Point.address rest q.address with
    | some r =>
      -- A later point of the address replaces this one and those before it.
      simp
    | none =>
      by_cases here : p.address = q.address
      · simp [here, eq_comm]
      · have other : q ≠ p := fun e => here (e ▸ rfl)
        simp [here, other, Ne.symm here]

/-- The table of a list holds the last point of each address. -/
lemma mem_ofList {inserted : List Point} {q : Point} :
    q ∈ (ofList inserted).points ↔ lastAt Point.address inserted q.address = some q := by
  unfold ofList
  rw [mem_insertAll]
  simp [empty]

/-- The points of the table of a list are points of the list. -/
lemma mem_of_mem_ofList {inserted : List Point} {q : Point} (h : q ∈ (ofList inserted).points) :
    q ∈ inserted :=
  mem_of_lastAt (mem_ofList.1 h)

end PositionTable

end WasmSourceMap
