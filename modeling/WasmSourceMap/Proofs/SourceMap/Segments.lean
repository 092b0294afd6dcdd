import WasmSourceMap.Proofs.SourceMap.SourceNumbers

/-!
# The shape of mappings

The mappings of a table are one segment of four numbers for each point with a source. The numbers
are differences, so their running sums are the values of the points again
(`runningSums_differences`): the addresses ascend, and the numbers of the sources are those of
`SourceTable.numbers`, which count up in the order of first appearance (`FirstSeen`).
-/

namespace WasmSourceMap

/-- The sums of some differences, each with all before it. -/
def runningSums (start : Int) : List Int → List Int
  | [] => []
  | d :: rest => (start + d) :: runningSums (start + d) rest

namespace SourceMap

/-- How far some values are from those before them. -/
def Fields.minus (next previous : Fields) : Fields :=
  ⟨next.address - previous.address, next.source - previous.source, next.line - previous.line,
    next.column - previous.column⟩

/-- The values in the order of a segment. -/
def Fields.values (f : Fields) : List Int := [f.address, f.source, f.line, f.column]

/-- How far each of some values are from those before them. -/
def differences : Fields → List Fields → List Fields
  | _, [] => []
  | previous, next :: rest => next.minus previous :: differences next rest

/-- The values of some points with their paths. -/
def fieldsFrom : SourceTable → List (String × Point) → List Fields
  | _, [] => []
  | sources, (path, p) :: rest =>
    nextFields sources path p :: fieldsFrom (sources.add path).2 rest

/-- The numbers of the sources of some points: each is at most the count of the different numbers
before it, so that they count up in the order of first appearance, there are as many as sources,
and a number belongs to a path. -/
structure FirstSeen (sources : List String) (points : List Point) (ids : List Int) : Prop where
  length_eq : ids.length = points.length
  bounded : ∀ before id after, ids = before ++ id :: after →
    0 ≤ id ∧ id ≤ before.toFinset.card
  card_eq : ids.toFinset.card = sources.length
  eq_iff : ∀ x ∈ ids.zip points, ∀ y ∈ ids.zip points, x.1 = y.1 ↔ x.2.source = y.2.source
  source : ∀ x ∈ ids.zip points, ∃ path, x.2.source = some path ∧
    Mapping.item? sources x.1 = some (SourcePath.stripLibrary path)

/-- The mappings are segments of four numbers, one for each point. The sums of the first numbers
ascend, and the sums of the second ones number the sources. -/
structure Shaped (m : SourceMap) (points : List Point) : Prop where
  empty : points = [] → m.mappings = ""
  oneLine : ';' ∉ m.mappings.toList
  digits : ∀ c ∈ m.mappings.toList, c = ',' ∨ c ∈ Vlq.alphabet
  length_eq : points ≠ [] → (Text.splitOn ',' m.mappings.toList).length = points.length
  segments : ∃ deltas : List Fields, deltas.length = points.length ∧
    (points ≠ [] → List.Forall₂ (fun piece (d : Fields) => Vlq.decodeChars piece = .ok d.values)
      (Text.splitOn ',' m.mappings.toList) deltas) ∧
    (runningSums 0 (deltas.map (·.address))).Pairwise (· < ·) ∧
    FirstSeen m.sources points (runningSums 0 (deltas.map (·.source)))

/-- The sums of the differences are the values. -/
lemma runningSums_differences (field : Fields → Int)
    (linear : ∀ next previous : Fields, field (next.minus previous) = field next - field previous)
    (previous : Fields) (values : List Fields) :
    runningSums (field previous) ((differences previous values).map field) = values.map field := by
  induction values generalizing previous with
  | nil => rfl
  | cons next rest ih =>
    have back : field previous + field (next.minus previous) = field next := by
      rw [linear]
      omega
    rw [differences, List.map_cons, runningSums, back, ih, List.map_cons]

lemma length_differences (previous : Fields) (values : List Fields) :
    (differences previous values).length = values.length := by
  induction values generalizing previous with
  | nil => rfl
  | cons next rest ih => rw [differences, List.length_cons, ih, List.length_cons]

variable (sources : SourceTable) (previous : Fields) (points : List (String × Point))

/-- The segments are the differences of the values. -/
lemma forall₂_segmentsFrom :
    List.Forall₂ (fun piece (d : Fields) => Vlq.decodeChars piece = .ok d.values)
      (segmentsFrom sources previous points).1
      (differences previous (fieldsFrom sources points)) := by
  induction points generalizing sources previous with
  | nil => exact .nil
  | cons point rest ih =>
    obtain ⟨path, p⟩ := point
    rw [segmentsFrom_cons]
    exact .cons (decodeChars_segment previous _) (ih _ _)

lemma sources_segmentsFrom :
    (segmentsFrom sources previous points).2 = sources.addAll (points.map Prod.fst) := by
  induction points generalizing sources previous with
  | nil => rfl
  | cons point rest ih =>
    obtain ⟨path, p⟩ := point
    rw [segmentsFrom_cons]
    exact ih _ _

lemma map_address_fieldsFrom :
    (fieldsFrom sources points).map (·.address) = (points.map Prod.snd).map Point.address := by
  induction points generalizing sources with
  | nil => rfl
  | cons point rest ih =>
    obtain ⟨path, p⟩ := point
    rw [fieldsFrom, List.map_cons, ih]
    rfl

lemma map_source_fieldsFrom :
    (fieldsFrom sources points).map (·.source) =
      (sources.numbers (points.map Prod.fst)).map Int.ofNat := by
  induction points generalizing sources with
  | nil => rfl
  | cons point rest ih =>
    obtain ⟨path, p⟩ := point
    rw [fieldsFrom, List.map_cons, ih]
    rfl

/-- Numbers are as many as they were before they became integers. -/
lemma card_map_ofNat (ids : List Nat) :
    (ids.map Int.ofNat).toFinset.card = ids.toFinset.card := by
  have image : (ids.map Int.ofNat).toFinset = ids.toFinset.image Int.ofNat := by
    ext z
    simp
  rw [image, Finset.card_image_of_injective _ fun _ _ => Int.ofNat.inj]

section

variable {points} (found : ∀ q ∈ points, q.2.source = some q.1)

include found

/-- Each number is the place of the path of its point. -/
lemma forall₂_placed :
    List.Forall₂ (fun (id : Int) (p : Point) => ∃ n path, id = Int.ofNat n ∧
        p.source = some path ∧
          (SourceTable.addAll ⟨[]⟩ (points.map Prod.fst)).paths[n]? = some path)
      ((SourceTable.numbers ⟨[]⟩ (points.map Prod.fst)).map Int.ofNat) (points.map Prod.snd) := by
  have placed := SourceTable.forall₂_numbers ⟨[]⟩ (points.map Prod.fst)
  rw [List.forall₂_map_left_iff] at placed
  rw [List.forall₂_map_left_iff, List.forall₂_map_right_iff]
  have both := (List.forall₂_and_left _ _).2 ⟨found, placed⟩
  exact both.flip.imp fun n q ⟨source, place⟩ => ⟨n, q.1, rfl, source, place⟩

/-- The numbers of paths count up in the order of first appearance. -/
lemma firstSeen_numbers :
    FirstSeen ((SourceTable.addAll ⟨[]⟩ (points.map Prod.fst)).paths.map SourcePath.stripLibrary)
      (points.map Prod.snd)
      ((SourceTable.numbers ⟨[]⟩ (points.map Prod.fst)).map Int.ofNat) where
  length_eq := (forall₂_placed found).length_eq
  bounded := by
    intro before id after split
    obtain ⟨first, rest, numbers, rfl, last⟩ := List.map_eq_append_iff.1 split
    obtain ⟨n, later, rfl, rfl, _⟩ := List.map_eq_cons_iff.1 last
    have below := SourceTable.le_card_of_numbers ⟨[]⟩ _ numbers
    rw [List.length_nil, Finset.range_zero, Finset.empty_union] at below
    rw [card_map_ofNat]
    exact ⟨Int.natCast_nonneg n, Int.ofNat_le.2 below⟩
  card_eq := by
    have all := SourceTable.toFinset_numbers ⟨[]⟩ (points.map Prod.fst)
    rw [List.length_nil, Finset.range_zero, Finset.empty_union] at all
    rw [card_map_ofNat, all, Finset.card_range, List.length_map]
  eq_iff := by
    rintro ⟨id, p⟩ inFirst ⟨id', p'⟩ inSecond
    obtain ⟨n, path, rfl, source, place⟩ := List.forall₂_zip (forall₂_placed found) inFirst
    obtain ⟨n', path', rfl, source', place'⟩ := List.forall₂_zip (forall₂_placed found) inSecond
    have distinct := SourceTable.nodup_addAll ⟨[]⟩ (points.map Prod.fst) List.nodup_nil
    have same := List.getElem?_inj (List.getElem?_eq_some_iff.1 place).1 distinct (j := n')
    rw [place, place'] at same
    dsimp only
    rw [source, source', same]
    exact ⟨Int.ofNat.inj, congrArg Int.ofNat⟩
  source := by
    rintro ⟨id, p⟩ mem
    obtain ⟨n, path, rfl, source, place⟩ := List.forall₂_zip (forall₂_placed found) mem
    exact ⟨path, source, Mapping.item?_map place⟩

end

/-- What the encoder gives are the segments of the table and its sources. -/
lemma encode_ok {fs : FileSystem} {bundled : Bool} {file : Option String} {t : PositionTable}
    {m : SourceMap} (h : encode fs bundled file t = .ok m) :
    m.mappings = String.ofList (Text.joinWith ',' (segments t).1) ∧
      m.sources = (segments t).2.paths.map SourcePath.stripLibrary := by
  unfold encode at h
  split at h
  · cases h
  · dsimp only at h
    split at h
    · cases h
    · cases h
      exact ⟨rfl, rfl⟩

/-- The points that are encoded, with their paths. -/
lemma map_snd_sourced (points : List Point) :
    (points.filterMap sourced).map Prod.snd = points.filter Point.hasSource := by
  induction points with
  | nil => rfl
  | cons p rest ih =>
    cases h : p.hasSource with
    | false =>
      have skipped : sourced p = none := by rw [sourced, h]; rfl
      rw [List.filterMap_cons_none skipped, List.filter_cons_of_neg (by simp [h]), ih]
    | true =>
      have kept : sourced p = some (p.source.getD "", p) := if_pos h
      rw [List.filterMap_cons_some kept, List.filter_cons_of_pos h, List.map_cons, ih]

lemma source_of_mem_sourced {points : List Point}
    (paths : ∀ p ∈ points, p.hasSource = true → p.source.isSome = true) :
    ∀ q ∈ points.filterMap sourced, q.2.source = some q.1 := by
  intro q mem
  obtain ⟨p, inTable, h⟩ := List.mem_filterMap.1 mem
  cases source : p.hasSource with
  | false =>
    rw [sourced, source] at h
    cases h
  | true =>
    obtain ⟨path, e⟩ := Option.isSome_iff_exists.1 (paths p inTable source)
    rw [sourced_of_source source e] at h
    cases h
    exact e

lemma length_fieldsFrom : (fieldsFrom sources points).length = points.length := by
  have same := congrArg List.length (map_address_fieldsFrom sources points)
  rwa [List.length_map, List.length_map, List.length_map] at same

lemma length_segmentsFrom : (segmentsFrom sources previous points).1.length = points.length := by
  rw [(forall₂_segmentsFrom sources previous points).length_eq, length_differences,
    length_fieldsFrom]

/-- Joined segments have nothing but digits and commas. -/
lemma digits_segmentsFrom {c : Char}
    (h : c ∈ Text.joinWith ',' (segmentsFrom sources previous points).1) :
    c = ',' ∨ c ∈ Vlq.alphabet := by
  refine (Text.mem_joinWith h).imp_right fun ⟨piece, inText, inPiece⟩ => ?_
  exact mem_alphabet_of_mem_segmentsFrom inText inPiece

/-- Joined segments are split at the commas between them. -/
lemma splitOn_segmentsFrom (nonempty : points ≠ []) :
    Text.splitOn ',' (Text.joinWith ',' (segmentsFrom sources previous points).1) =
      (segmentsFrom sources previous points).1 := by
  have some_ : (segmentsFrom sources previous points).1 ≠ [] := by
    intro none_
    have length := length_segmentsFrom sources previous points
    rw [none_] at length
    exact nonempty (List.length_eq_zero_iff.1 length.symm)
  refine Text.splitOn_joinWith some_ fun piece inText comma => ?_
  exact absurd (mem_alphabet_of_mem_segmentsFrom inText comma) (by decide)

/-- The sums of the first numbers of all segments are the addresses. -/
lemma runningSums_addresses :
    runningSums 0 ((differences .start (fieldsFrom ⟨[]⟩ points)).map (·.address)) =
      (points.map Prod.snd).map Point.address :=
  (runningSums_differences Fields.address (fun _ _ => rfl) .start _).trans
    (map_address_fieldsFrom ⟨[]⟩ points)

/-- The sums of the second numbers of all segments are the numbers of the sources. -/
lemma runningSums_sources :
    runningSums 0 ((differences .start (fieldsFrom ⟨[]⟩ points)).map (·.source)) =
      (SourceTable.numbers ⟨[]⟩ (points.map Prod.fst)).map Int.ofNat :=
  (runningSums_differences Fields.source (fun _ _ => rfl) .start _).trans
    (map_source_fieldsFrom ⟨[]⟩ points)

/-- The segments of ascending points with their paths are well shaped. -/
lemma shaped_segmentsFrom {m : SourceMap} {points : List (String × Point)}
    (found : ∀ q ∈ points, q.2.source = some q.1) (ascending : Ascending (points.map Prod.snd))
    (mappings : m.mappings = String.ofList (Text.joinWith ',' (segmentsFrom ⟨[]⟩ .start points).1))
    (sources : m.sources =
      (segmentsFrom ⟨[]⟩ .start points).2.paths.map SourcePath.stripLibrary) :
    m.Shaped (points.map Prod.snd) := by
  have text : m.mappings.toList = Text.joinWith ',' (segmentsFrom ⟨[]⟩ .start points).1 := by
    rw [mappings, String.toList_ofList]
  have digits : ∀ c ∈ m.mappings.toList, c = ',' ∨ c ∈ Vlq.alphabet := fun c mem =>
    digits_segmentsFrom ⟨[]⟩ .start points (text ▸ mem)
  have pieces : points.map Prod.snd ≠ [] →
      Text.splitOn ',' m.mappings.toList = (segmentsFrom ⟨[]⟩ .start points).1 := by
    intro nonempty
    rw [text]
    exact splitOn_segmentsFrom _ _ _ fun none_ => nonempty (congrArg (List.map Prod.snd) none_)
  constructor
  case empty =>
    intro none_
    rw [List.map_eq_nil_iff.1 none_] at mappings
    exact mappings
  case oneLine => exact fun mem => absurd (digits ';' mem) (by decide)
  case digits => exact digits
  case length_eq =>
    intro nonempty
    rw [pieces nonempty, length_segmentsFrom, List.length_map]
  case segments =>
    refine ⟨differences .start (fieldsFrom ⟨[]⟩ points), ?_, fun nonempty => ?_, ?_, ?_⟩
    · rw [length_differences, length_fieldsFrom, List.length_map]
    · rw [pieces nonempty]
      exact forall₂_segmentsFrom ⟨[]⟩ .start points
    · rw [runningSums_addresses]
      exact List.pairwise_map.2 ascending
    · rw [runningSums_sources, sources, sources_segmentsFrom]
      exact firstSeen_numbers found

/-- The mappings of any table whose points with a source have paths are well shaped, and the table
can be encoded. -/
theorem shaped_of_encode (fs : FileSystem) (file : Option String) {t : PositionTable}
    (paths : ∀ p ∈ t.points, p.hasSource = true → p.source.isSome = true) :
    (∃ m, encode fs false file t = .ok m) ∧
      ∀ bundled m, encode fs bundled file t = .ok m →
        m.Shaped (t.points.filter Point.hasSource) := by
  refine ⟨⟨_, encode_of_sourced fs file paths⟩, fun bundled m encoded => ?_⟩
  obtain ⟨mappings, sources⟩ := encode_ok encoded
  rw [← map_snd_sourced]
  refine shaped_segmentsFrom (source_of_mem_sourced paths) ?_ mappings sources
  rw [map_snd_sourced]
  exact t.ascending.filter _

/-- Two paths with the same name, in turns, and a point without source between them. -/
def sameNames : List Point :=
  [⟨some "std:src/lib.rs", 0, 1, 1, false⟩, ⟨some "core:src/lib.rs", 7, 9, 0, false⟩,
    ⟨none, 8, 0, 0, false⟩, ⟨some "std:src/lib.rs", 9, 12, 3, false⟩]

/-- Both sources have the same name and numbers of their own. -/
theorem shaped_of_encode_sameNames :
    (∀ p ∈ (PositionTable.ofList sameNames).points,
      p.hasSource = true → p.source.isSome = true) ∧
    ∃ m, encode .empty false none (.ofList sameNames) = .ok m ∧
      m.mappings = "AAAA,OCQD,EDGG" ∧ m.sources = ["src/lib.rs", "src/lib.rs"] ∧
      m.Shaped ((PositionTable.ofList sameNames).points.filter Point.hasSource) := by
  have paths : ∀ p ∈ (PositionTable.ofList sameNames).points,
      p.hasSource = true → p.source.isSome = true := by decide
  obtain ⟨⟨m, encoded⟩, shaped⟩ := shaped_of_encode .empty none paths
  have all : (encode .empty false none (.ofList sameNames)).map (fun m => (m.mappings, m.sources)) =
      .ok ("AAAA,OCQD,EDGG", ["src/lib.rs", "src/lib.rs"]) := by decide +kernel
  rw [encoded] at all
  obtain ⟨mappings, sources⟩ := Prod.mk.inj (Except.ok.inj all)
  exact ⟨paths, m, encoded, mappings, sources, shaped false m encoded⟩

end SourceMap

end WasmSourceMap
