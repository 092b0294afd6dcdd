import Mathlib.Data.Finset.Card
import Mathlib.Data.List.Sort
import WasmSourceMap.Proofs.Dictionary
import WasmSourceMap.Proofs.Position.LastWrite
import WasmSourceMap.SourceMap.Encode

/-!
# The order of insertions

A table shows the last point of each address, in the order of the addresses (`ShowsLast`). So it
does not depend on the order in which points of different addresses are inserted
(`ofList_of_sameAtEach`); units whose addresses are apart can be taken in any order
(`sameAtEach_flatten`). The map of a table depends on the points with a source only
(`encode_congr`), and a point without source at an address of its own is none of them. A table that
keeps its points in a dictionary and sorts them when they are read shows the same
(`sortedPoints_setAll`).
-/

namespace WasmSourceMap

/-- The points of each address come in the same order in both runs, which hold the same points
then. -/
def SameAtEach (first second : List Point) : Prop :=
  ∀ address : Int, (first.filter fun p => p.address == address) =
    second.filter fun p => p.address == address

/-- No address has points of both units. -/
def AddressesApart (first second : List Point) : Prop :=
  ∀ p ∈ first, ∀ q ∈ second, p.address ≠ q.address

namespace PositionTable

/-- The table shows the last inserted point of each address, in ascending order. -/
structure ShowsLast (inserted : List Point) (t : PositionTable) : Prop where
  ascending : t.points.Pairwise fun p q => p.address < q.address
  mem_iff : ∀ p, p ∈ t.points ↔ lastAt Point.address inserted p.address = some p
  get?_eq : ∀ address, t.get? address = lastAt Point.address inserted address
  contains_iff : ∀ address, t.contains address = true ↔ ∃ p ∈ inserted, p.address = address
  pairwise_addresses : t.addresses.Pairwise (· < ·)
  mem_addresses_iff : ∀ address, address ∈ t.addresses ↔ ∃ p ∈ inserted, p.address = address
  size_eq : t.size = (inserted.map Point.address).toFinset.card

variable {t t' : PositionTable} {inserted : List Point} {p : Point} {address : Int}

lemma address_of_lastAt (h : lastAt Point.address inserted address = some p) :
    p.address = address := by
  have found := List.mem_of_getLast? h
  exact beq_iff_eq.1 (List.mem_filter.1 found).2

/-- An address has a last point if it has one at all. -/
lemma exists_lastAt_iff :
    (∃ p, lastAt Point.address inserted address = some p) ↔
      ∃ p ∈ inserted, p.address = address := by
  constructor
  · rintro ⟨p, last⟩
    exact ⟨p, mem_of_lastAt last, address_of_lastAt last⟩
  · rintro ⟨p, mem, here⟩
    have found : p ∈ inserted.filter fun q => q.address == address :=
      List.mem_filter.2 ⟨mem, beq_iff_eq.2 here⟩
    exact ⟨_, List.getLast?_eq_some_getLast (List.ne_nil_of_mem found)⟩

lemma lastAt_eq_none_iff :
    lastAt Point.address inserted address = none ↔ ∀ p ∈ inserted, p.address ≠ address := by
  rw [Option.eq_none_iff_forall_ne_some]
  constructor
  · intro h p mem here
    obtain ⟨q, last⟩ := exists_lastAt_iff.2 ⟨p, mem, here⟩
    exact h q last
  · intro h p last
    exact h p (mem_of_lastAt last) (address_of_lastAt last)

/-- Ascending points are determined by which points there are. -/
lemma eq_of_ascending {points others : List Point} (first : Ascending points)
    (second : Ascending others) (h : ∀ p, p ∈ points ↔ p ∈ others) : points = others := by
  have irreflexive : Std.Irrefl fun p q : Point => p.address < q.address :=
    ⟨fun p => Int.lt_irrefl p.address⟩
  have antisymmetric : Std.Antisymm fun p q : Point => p.address < q.address :=
    ⟨fun p q before after => absurd (Int.lt_trans before after) (Int.lt_irrefl p.address)⟩
  exact first.eq_of_mem_iff second h

lemma get?_ofList (inserted : List Point) (address : Int) :
    (ofList inserted).get? address = lastAt Point.address inserted address := by
  cases last : lastAt Point.address inserted address with
  | none =>
    refine List.find?_eq_none.2 fun p mem here => ?_
    rw [← beq_iff_eq.1 here, mem_ofList.1 mem] at last
    cases last
  | some p =>
    have here := address_of_lastAt last
    have mem : p ∈ (ofList inserted).points := mem_ofList.2 (here ▸ last)
    cases found : (ofList inserted).get? address with
    | none => exact absurd (beq_iff_eq.2 here) (List.find?_eq_none.1 found p mem)
    | some q =>
      unfold get? at found
      have there := List.find?_some found
      rw [beq_iff_eq] at there
      have other := mem_ofList.1 (List.mem_of_find?_eq_some found)
      rw [there, last] at other
      exact other.symm

lemma mem_addresses_ofList :
    address ∈ (ofList inserted).addresses ↔ ∃ p ∈ inserted, p.address = address := by
  rw [← exists_lastAt_iff]
  constructor
  · intro mem
    obtain ⟨p, inTable, rfl⟩ := List.mem_map.1 mem
    exact ⟨p, mem_ofList.1 inTable⟩
  · rintro ⟨p, last⟩
    have here := address_of_lastAt last
    exact List.mem_map.2 ⟨p, mem_ofList.2 (here ▸ last), here⟩

/-- A table has one point for each address. -/
lemma size_ofList (inserted : List Point) :
    (ofList inserted).size = (inserted.map Point.address).toFinset.card := by
  have distinct : (ofList inserted).addresses.Nodup :=
    List.pairwise_map.2 ((ofList inserted).ascending.imp Int.ne_of_lt)
  have same : (inserted.map Point.address).toFinset = (ofList inserted).addresses.toFinset := by
    ext address
    rw [List.mem_toFinset, List.mem_toFinset, mem_addresses_ofList, List.mem_map]
  rw [same, List.toFinset_card_of_nodup distinct]
  exact (List.length_map _).symm

lemma showsLast_ofList (inserted : List Point) : ShowsLast inserted (ofList inserted) where
  ascending := (ofList inserted).ascending
  mem_iff _ := mem_ofList
  get?_eq := get?_ofList inserted
  contains_iff address := by
    rw [contains, get?_ofList, Option.isSome_iff_exists, exists_lastAt_iff]
  pairwise_addresses := List.pairwise_map.2 (ofList inserted).ascending
  mem_addresses_iff _ := mem_addresses_ofList
  size_eq := size_ofList inserted

/-- The table depends on the order at each address only. -/
lemma ofList_of_sameAtEach {first second : List Point} (h : SameAtEach first second) :
    ofList first = ofList second := by
  have points : (ofList first).points = (ofList second).points := by
    refine eq_of_ascending (ofList first).ascending (ofList second).ascending fun p => ?_
    rw [mem_ofList, mem_ofList, lastAt, lastAt, h p.address]
  cases first' : ofList first
  cases second' : ofList second
  rw [first', second'] at points
  cases points
  rfl

end PositionTable

lemma AddressesApart.symm {first second : List Point} (h : AddressesApart first second) :
    AddressesApart second first :=
  fun p inSecond q inFirst => (h q inFirst p inSecond).symm

/-- Of two units apart only one has points at an address. -/
lemma AddressesApart.filter_append {first second : List Point} (h : AddressesApart first second)
    (address : Int) :
    ((first ++ second).filter fun p => p.address == address) =
      (second ++ first).filter fun p => p.address == address := by
  rw [List.filter_append, List.filter_append]
  by_cases here : ∃ p ∈ first, p.address = address
  · obtain ⟨p, mem, here⟩ := here
    have none_ : (second.filter fun q => q.address == address) = [] :=
      List.filter_eq_nil_iff.2 fun q inSecond there =>
        h p mem q inSecond (here.trans (beq_iff_eq.1 there).symm)
    rw [none_, List.append_nil, List.nil_append]
  · have none_ : (first.filter fun p => p.address == address) = [] :=
      List.filter_eq_nil_iff.2 fun p mem there => here ⟨p, mem, beq_iff_eq.1 there⟩
    rw [none_, List.append_nil, List.nil_append]

/-- Units apart can be taken in any order. -/
lemma sameAtEach_flatten {units reordered : List (List Point)} (perm : units.Perm reordered)
    (apart : units.Pairwise AddressesApart) : SameAtEach units.flatten reordered.flatten := by
  intro address
  induction perm with
  | nil => rfl
  | cons unit _ ih =>
    rw [List.flatten_cons, List.flatten_cons, List.filter_append, List.filter_append,
      ih (List.pairwise_cons.1 apart).2]
  | swap first second rest =>
    have two : AddressesApart second first :=
      (List.pairwise_cons.1 apart).1 first List.mem_cons_self
    rw [List.flatten_cons, List.flatten_cons, ← List.append_assoc, List.filter_append,
      two.filter_append, ← List.filter_append, List.append_assoc]
    rfl
  | trans perm _ ih₁ ih₂ =>
    exact (ih₁ apart).trans (ih₂ (perm.pairwise apart fun h => AddressesApart.symm h))

namespace SourceMap

/-- A map depends on the points with a source only. -/
lemma encode_congr {t t' : PositionTable}
    (h : t.points.filter Point.hasSource = t'.points.filter Point.hasSource) (fs : FileSystem)
    (bundled : Bool) (file : Option String) :
    encode fs bundled file t = encode fs bundled file t' := by
  have incomplete : ∀ points : List Point,
      (points.any fun p => p.hasSource && p.source.isNone) =
        (points.filter Point.hasSource).any fun p => p.source.isNone := by
    intro points
    rw [List.any_filter]
  have inMap : ∀ points : List Point,
      points.filterMap sourced = (points.filter Point.hasSource).filterMap sourced := by
    intro points
    rw [List.filterMap_filter]
    congr
    funext p
    unfold sourced
    cases p.hasSource <;> rfl
  unfold encode segments
  rw [incomplete, incomplete, inMap, inMap t'.points, h]

/-- A point without source at an address of its own does not show in the map. -/
lemma encode_insert_unsourced {front back : List Point} {p : Point} (unsourced : p.line = 0)
    (fresh : ∀ q ∈ front ++ back, q.address ≠ p.address) (fs : FileSystem) (bundled : Bool)
    (file : Option String) :
    encode fs bundled file (.ofList (front ++ p :: back)) =
      encode fs bundled file (.ofList (front ++ back)) := by
  have noSource : p.hasSource = false := by
    rw [Point.hasSource, unsourced]
    rfl
  apply encode_congr
  refine PositionTable.eq_of_ascending ((PositionTable.ofList _).ascending.filter _)
    ((PositionTable.ofList _).ascending.filter _) fun q => ?_
  rw [List.mem_filter, List.mem_filter, PositionTable.mem_ofList, PositionTable.mem_ofList]
  refine and_congr_left fun source => ?_
  rw [lastAt_append, lastAt_append, lastAt_cons]
  by_cases here : p.address = q.address
  · -- At this address the new point is the only one, and it has no source.
    have other : q ≠ p := by
      rintro rfl
      cases noSource.symm.trans source
    have alone : ∀ points ⊆ front ++ back, lastAt Point.address points q.address = none := by
      intro points inside
      rw [PositionTable.lastAt_eq_none_iff]
      exact fun r mem there => fresh r (inside mem) (there.trans here.symm)
    rw [alone front (List.subset_append_left front back),
      alone back (List.subset_append_right front back), if_pos here]
    simp [other.symm]
  · rw [if_neg here, Option.or_none]

/-- The maps of both tables are the same, whatever the files are. -/
def SameMaps (t t' : PositionTable) : Prop :=
  ∀ (fs : FileSystem) (bundled : Bool) (file : Option String),
    encode fs bundled file t = encode fs bundled file t'

end SourceMap

namespace PositionTable

/-- The table of inserted points shows the last one of each address, in the order of the addresses.
So neither it nor its map depends on the order of points at different addresses, or of units whose
addresses are apart, and a point without source at an address of its own does not show in the map.
-/
theorem ofList_lastWrites (inserted : List Point) :
    ShowsLast inserted (ofList inserted) ∧
      (∀ reordered, SameAtEach inserted reordered →
        (ofList reordered).points = (ofList inserted).points ∧
          SourceMap.SameMaps (ofList reordered) (ofList inserted)) ∧
      (∀ units reordered : List (List Point), units.flatten = inserted → units.Perm reordered →
        units.Pairwise AddressesApart →
          (ofList reordered.flatten).points = (ofList inserted).points ∧
            SourceMap.SameMaps (ofList reordered.flatten) (ofList inserted)) ∧
      ∀ (front back : List Point) (p : Point), front ++ back = inserted → p.line = 0 →
        (∀ q ∈ inserted, q.address ≠ p.address) →
          SourceMap.SameMaps (ofList (front ++ p :: back)) (ofList inserted) := by
  refine ⟨showsLast_ofList inserted, ?_, ?_, ?_⟩
  · intro reordered same
    rw [ofList_of_sameAtEach same]
    exact ⟨rfl, fun _ _ _ => rfl⟩
  · rintro units reordered rfl perm apart
    rw [ofList_of_sameAtEach (sameAtEach_flatten perm apart)]
    exact ⟨rfl, fun _ _ _ => rfl⟩
  · rintro front back p rfl unsourced fresh fs bundled file
    exact SourceMap.encode_insert_unsourced unsourced fresh fs bundled file

/-- Two units. The first one writes one of its addresses twice. -/
def twoUnits : List (List Point) :=
  [[⟨some "b.c", 8, 1, 0, false⟩, ⟨some "a.c", 4, 2, 0, false⟩, ⟨some "c.c", 8, 3, 0, false⟩],
    [⟨some "a.c", 6, 5, 1, false⟩]]

/-- With the second unit first, with a write moved between the two at another address, and with a
point without source, the map stays the same. -/
theorem ofList_lastWrites_twoUnits :
    ShowsLast twoUnits.flatten (ofList twoUnits.flatten) ∧
      (ofList twoUnits.flatten).points = [⟨some "a.c", 4, 2, 0, false⟩,
        ⟨some "a.c", 6, 5, 1, false⟩, ⟨some "c.c", 8, 3, 0, false⟩] ∧
      SourceMap.SameMaps (ofList [⟨some "b.c", 8, 1, 0, false⟩, ⟨some "a.c", 6, 5, 1, false⟩,
        ⟨some "c.c", 8, 3, 0, false⟩, ⟨some "a.c", 4, 2, 0, false⟩]) (ofList twoUnits.flatten) ∧
      SourceMap.SameMaps (ofList twoUnits.reverse.flatten) (ofList twoUnits.flatten) ∧
      SourceMap.SameMaps (ofList (⟨some "d.c", 5, 0, 0, false⟩ :: twoUnits.flatten))
        (ofList twoUnits.flatten) := by
  obtain ⟨shows, reordered, units, unsourced⟩ := ofList_lastWrites twoUnits.flatten
  refine ⟨shows, by decide, (reordered _ ?_).2, (units twoUnits _ rfl ?_ ?_).2, ?_⟩
  · intro address
    by_cases atEight : address = 8
    · subst atEight
      decide
    by_cases atFour : address = 4
    · subst atFour
      decide
    simp [twoUnits, List.filter_cons, Ne.symm atEight, Ne.symm atFour]
  · exact (List.reverse_perm twoUnits).symm
  · simp [twoUnits, AddressesApart]
  · exact unsourced [] twoUnits.flatten _ rfl rfl (by decide)

/-- Points by their addresses, set one after the other. -/
def setAll (inserted : List Point) : Dictionary Int Point :=
  inserted.foldl (fun d p => d.set p.address p) .empty

/-- The points of a dictionary in ascending order of its keys. -/
def sortedPoints (d : Dictionary Int Point) : List Point :=
  ((d.entries.map Prod.fst).insertionSort (· ≤ ·)).filterMap d.get?

/-- The dictionary has one point for each address, the last one. -/
lemma setAll_eq (inserted : List Point) : ∃ records : List Point,
    setAll inserted = .keyed Point.address id records ∧ (records.map Point.address).Nodup ∧
      ∀ p, p ∈ records ↔ lastAt Point.address inserted p.address = some p := by
  induction inserted using List.reverseRecOn with
  | nil => exact ⟨[], rfl, List.nodup_nil, fun p => by simp [lastAt]⟩
  | append_singleton before p ih =>
    obtain ⟨records, held, distinct, last⟩ := ih
    obtain ⟨later, set, distinct, mem_iff⟩ :=
      Dictionary.exists_set_keyed distinct p
    have step : setAll (before ++ [p]) = (setAll before).set p.address p := by
      unfold setAll
      rw [List.foldl_append]
      rfl
    refine ⟨later, step.trans (held ▸ set), distinct, fun q => ?_⟩
    rw [mem_iff, last, lastAt_append, lastAt_cons]
    by_cases here : p.address = q.address
    · simp [lastAt, here, eq_comm]
    · have other : q ≠ p := fun e => here (e ▸ rfl)
      simp [lastAt, here, other, Ne.symm here]

/-- A table that sorts the points of a dictionary when they are read shows the same points. -/
theorem sortedPoints_setAll (inserted : List Point) :
    sortedPoints (setAll inserted) = (ofList inserted).points := by
  obtain ⟨records, held, distinct, last⟩ := setAll_eq inserted
  have find : ∀ address p, (setAll inserted).get? address = some p ↔
      p ∈ records ∧ p.address = address := by
    intro address p
    rw [held, Dictionary.get?_keyed, Option.map_id_fun]
    exact Dictionary.find?_eq_some_iff distinct
  have keys : (setAll inserted).entries.map Prod.fst = records.map Point.address := by
    rw [held]
    exact List.map_map
  have ascending : ((records.map Point.address).insertionSort (· ≤ ·)).Pairwise (· < ·) := by
    have sorted := List.pairwise_insertionSort (· ≤ ·) (records.map Point.address)
    have apart := (List.perm_insertionSort (· ≤ ·) (records.map Point.address)).nodup_iff.2 distinct
    exact (sorted.and apart).imp fun ⟨le, ne⟩ => lt_of_le_of_ne le ne
  refine eq_of_ascending ?_ (ofList inserted).ascending fun p => ?_
  · unfold sortedPoints
    rw [keys]
    refine ascending.filterMap _ fun first second before p atFirst q atSecond => ?_
    rw [((find first p).1 atFirst).2, ((find second q).1 atSecond).2]
    exact before
  · unfold sortedPoints
    rw [List.mem_filterMap, mem_ofList, ← last, keys]
    constructor
    · rintro ⟨address, _, found⟩
      exact ((find address p).1 found).1
    · intro mem
      have key := (List.mem_insertionSort (· ≤ ·)).2 (List.mem_map_of_mem (f := Point.address) mem)
      exact ⟨p.address, key, (find _ p).2 ⟨mem, rfl⟩⟩

end PositionTable

end WasmSourceMap
