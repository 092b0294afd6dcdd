import Mathlib.Tactic.Lemma
import WasmSourceMap.Proofs.Position.LastWrite
import WasmSourceMap.Proofs.Vlq.RoundTrip
import WasmSourceMap.SourceMap.Encode
import WasmSourceMap.SourceMap.Mapping

/-!
# Decoding undoes encoding

Encoder and decoder walk along the same points, one counting differences and the other adding them
up. `decodeLine_segmentsFrom` is the simulation between the two: if the decoder stands where the
encoder counts from, then it reads the points back and stands there again after each of them. A
source number that was given once keeps its meaning, since the table of sources only grows at its
end (`segmentsFrom_prefix`), so what the final table says of a number is what it was given for.

`decode_encode` puts the stages together for a table, and `decode_encode_ofList` states it for
points in the order in which they are inserted.
-/

namespace WasmSourceMap

/-- The mapping of a point on some line of the generated file, with its source as it is shown. -/
def Mapping.ofPointOn {σ : Type} (generatedLine : Nat) (source : σ) (p : Point) : Mapping σ :=
  { generatedLine, address := p.address, source, line := p.line, column := p.column }

/-- The mapping that a point with a source stands for. -/
def Mapping.ofPoint (p : Point) : Mapping (Option String) :=
  .ofPointOn 0 (p.source.map SourcePath.stripLibrary) p

namespace SourceTable

lemma getElem?_add (t : SourceTable) (path : String) :
    (t.add path).2.paths[(t.add path).1]? = some path := by
  unfold add
  split
  · rename_i id found
    obtain ⟨inside, here, _⟩ := List.findIdx?_eq_some_iff_getElem.1 found
    rw [List.getElem?_eq_getElem inside]
    exact congrArg some (beq_iff_eq.1 here)
  · simp

/-- Adding a path keeps the numbers of the others. -/
lemma prefix_add (t : SourceTable) (path : String) : t.paths <+: (t.add path).2.paths := by
  unfold add
  split
  · exact List.prefix_refl _
  · exact List.prefix_append _ _

end SourceTable

namespace SourceMap

/-- Where the decoder stands when the encoder counts from some values. -/
def Fields.cursor (f : Fields) : Mapping.Cursor := ⟨f.address, f.source, f.line, f.column⟩

/-- The values of a segment are read back. -/
lemma decodeChars_segment (previous next : Fields) :
    Vlq.decodeChars (segment previous next) =
      .ok [next.address - previous.address, next.source - previous.source,
        next.line - previous.line, next.column - previous.column] := by
  rw [← Vlq.decodeChars_flatMap_encodeChars]
  simp [segment]

lemma numbers_segment (previous next : Fields) :
    Mapping.numbers (segment previous next) =
      .ok [next.address - previous.address, next.source - previous.source,
        next.line - previous.line, next.column - previous.column] := by
  rw [Mapping.numbers, decodeChars_segment]

/-- A segment moves the decoder as far as the encoder went. -/
lemma move_cursor (previous next : Fields) :
    previous.cursor.move [next.address - previous.address, next.source - previous.source,
      next.line - previous.line, next.column - previous.column] = next.cursor := by
  simp only [Fields.cursor, Mapping.Cursor.move, Mapping.Cursor.mk.injEq]
  omega

lemma segment_ne_nil (previous next : Fields) : segment previous next ≠ [] := by
  simp [segment, Vlq.encodeChars_ne_nil]

lemma mem_alphabet_of_mem_segment {previous next : Fields} {c : Char}
    (h : c ∈ segment previous next) : c ∈ Vlq.alphabet := by
  simp only [segment, List.mem_append] at h
  rcases h with ((h | h) | h) | h <;> exact Vlq.mem_alphabet_of_mem_encodeChars h

/-- The values that the segment of a point leads to. -/
def nextFields (sources : SourceTable) (path : String) (p : Point) : Fields :=
  ⟨p.address, (sources.add path).1, p.line, p.column⟩

/-- One point gives one segment, and the others count from it. -/
lemma segmentsFrom_cons (sources : SourceTable) (previous : Fields) (path : String) (p : Point)
    (rest : List (String × Point)) :
    segmentsFrom sources previous ((path, p) :: rest) =
      let next := nextFields sources path p
      let after := segmentsFrom (sources.add path).2 next rest
      (segment previous next :: after.1, after.2) :=
  rfl

/-- The sources at the end begin with those at the start. -/
lemma segmentsFrom_prefix (sources : SourceTable) (previous : Fields)
    (points : List (String × Point)) :
    sources.paths <+: (segmentsFrom sources previous points).2.paths := by
  induction points generalizing sources previous with
  | nil => exact List.prefix_refl _
  | cons point rest ih =>
    obtain ⟨path, p⟩ := point
    rw [segmentsFrom_cons]
    exact (sources.prefix_add path).trans (ih _ _)

lemma mem_alphabet_of_mem_segmentsFrom {sources : SourceTable} {previous : Fields}
    {points : List (String × Point)} {piece : List Char} {c : Char}
    (h : piece ∈ (segmentsFrom sources previous points).1) (hc : c ∈ piece) :
    c ∈ Vlq.alphabet := by
  induction points generalizing sources previous with
  | nil => cases h
  | cons point rest ih =>
    obtain ⟨path, p⟩ := point
    rw [segmentsFrom_cons] at h
    rcases List.mem_cons.1 h with rfl | h
    · exact mem_alphabet_of_mem_segment hc
    · exact ih h

end SourceMap

namespace Mapping

open SourceMap

variable {σ : Type}

/-- One segment of an encoder is one mapping, and the decoder goes on where the encoder does. -/
lemma decodeLine_segment {find : Int → Except Fault σ} {line : Nat} {previous next : Fields}
    {source : σ} (found : find next.source = .ok source) (rest : List (List Char)) :
    decodeLine find line previous.cursor (segment previous next :: rest) =
      (decodeLine find line next.cursor rest).map fun after =>
        (⟨line, next.address, source, next.line, next.column⟩ :: after.1, after.2) := by
  rw [decodeLine.eq_3 _ _ _ _ _ (segment_ne_nil previous next), numbers_segment]
  simp only [bind, Except.bind, move_cursor]
  rw [if_neg (by simp), show next.cursor.source = next.source from rfl, found]
  cases decodeLine find line next.cursor rest <;> rfl

/-- The points are read back from their segments if the final table says what the numbers mean. -/
lemma decodeLine_segmentsFrom {find : Int → Except Fault σ} (meaning : String → σ) (line : Nat)
    {points : List (String × Point)} {sources : SourceTable} {previous : Fields}
    (found : ∀ (id : Nat) (path : String),
      (segmentsFrom sources previous points).2.paths[id]? = some path →
        find id = .ok (meaning path)) :
    ∃ last, decodeLine find line previous.cursor (segmentsFrom sources previous points).1 =
      .ok (points.map fun q => .ofPointOn line (meaning q.1) q.2, last) := by
  induction points generalizing sources previous with
  | nil => exact ⟨_, rfl⟩
  | cons point rest ih =>
    obtain ⟨path, p⟩ := point
    rw [segmentsFrom_cons] at found ⊢
    -- The number of this path keeps its meaning in the sources that follow.
    have kept : (segmentsFrom (sources.add path).2 (nextFields sources path p) rest).2.paths[
        (sources.add path).1]? = some path := by
      obtain ⟨more, e⟩ := segmentsFrom_prefix (sources.add path).2 (nextFields sources path p) rest
      have here := sources.getElem?_add path
      have inside := (List.getElem?_eq_some_iff.1 here).1
      rw [← e, List.getElem?_append_left inside, here]
    obtain ⟨last, e⟩ := ih found
    refine ⟨last, ?_⟩
    rw [decodeLine_segment (found _ _ kept), e]
    rfl

/-- A line is decoded segment by segment if none of them holds a comma. -/
lemma decodeLine_joinWith (find : Int → Except Fault σ) (line : Nat) (c : Cursor)
    {pieces : List (List Char)} (noComma : ∀ piece ∈ pieces, ',' ∉ piece) :
    decodeLine find line c (Text.splitOn ',' (Text.joinWith ',' pieces)) =
      decodeLine find line c pieces := by
  cases pieces with
  | nil => rfl
  | cons piece more => rw [Text.splitOn_joinWith (List.cons_ne_nil _ _) noComma]

/-- Segments of digits that are joined to one line are decoded one after the other. -/
lemma decodeWith_joinWith (find : Int → Except Fault σ) {pieces : List (List Char)}
    (digits : ∀ piece ∈ pieces, ∀ c ∈ piece, c ∈ Vlq.alphabet) :
    decodeWith find (String.ofList (Text.joinWith ',' pieces)) =
      (decodeLine find 0 .start pieces).map Prod.fst := by
  -- The digits are neither of the marks, so both splits find the pieces that were joined.
  have noComma : ∀ piece ∈ pieces, ',' ∉ piece := fun piece m hc =>
    absurd (digits piece m ',' hc) (by decide)
  have noSemicolon : ';' ∉ Text.joinWith ',' pieces := by
    intro m
    rcases Text.mem_joinWith m with e | ⟨piece, m, hc⟩
    · cases e
    · exact absurd (digits piece m ';' hc) (by decide)
  rw [decodeWith, String.toList_ofList, Text.splitOn_of_not_mem noSemicolon, decodeLines]
  change (decodeLine find 0 .start (Text.splitOn ',' (Text.joinWith ',' pieces))).bind _ = _
  rw [decodeLine_joinWith find 0 .start noComma]
  cases decodeLine find 0 .start pieces with
  | error fault => rfl
  | ok result => exact congrArg Except.ok (List.append_nil _)

lemma item?_map {α β : Type} {f : α → β} {items : List α} {id : Nat} {a : α}
    (h : items[id]? = some a) : item? (items.map f) id = some (f a) := by
  rw [show item? (items.map f) id = (items.map f)[id]? from rfl, List.getElem?_map, h]
  rfl

end Mapping

namespace SourceMap

variable {σ : Type}

lemma sourced_of_source {p : Point} {path : String} (h : p.hasSource = true)
    (e : p.source = some path) : sourced p = some (path, p) := by
  rw [sourced, if_pos h, e]
  rfl

/-- The points that are encoded are those with a source. -/
lemma filterMap_sourced {points : List Point}
    (sourced_ : ∀ p ∈ points, p.hasSource = true → p.source.isSome = true) :
    (points.filterMap sourced).map
        (fun q => Mapping.ofPointOn 0 (some (SourcePath.stripLibrary q.1)) q.2) =
      (points.filter Point.hasSource).map Mapping.ofPoint := by
  induction points with
  | nil => rfl
  | cons p rest ih =>
    have later := ih fun q m => sourced_ q (List.mem_cons_of_mem p m)
    cases h : p.hasSource with
    | false =>
      have skipped : sourced p = none := by rw [sourced, h]; rfl
      rw [List.filterMap_cons_none skipped, List.filter_cons_of_neg (by simp [h]), later]
    | true =>
      obtain ⟨path, e⟩ := Option.isSome_iff_exists.1 (sourced_ p List.mem_cons_self h)
      rw [List.filterMap_cons_some (sourced_of_source h e), List.filter_cons_of_pos h]
      rw [List.map_cons, List.map_cons, later, Mapping.ofPoint, e]
      rfl

/-- The encoder works on a table if every point with a source has a path. -/
lemma encode_of_sourced (fs : FileSystem) (file : Option String) {t : PositionTable}
    (paths : ∀ p ∈ t.points, p.hasSource = true → p.source.isSome = true) :
    encode fs false file t = .ok {
      sources := (segments t).2.paths.map SourcePath.stripLibrary
      mappings := String.ofList (Text.joinWith ',' (segments t).1)
      file } := by
  have complete : ¬(t.points.any fun p => p.hasSource && p.source.isNone) = true := by
    rw [List.any_eq_true]
    rintro ⟨p, m, h⟩
    obtain ⟨source, missing⟩ := (Bool.and_eq_true _ _).mp h
    obtain ⟨path, e⟩ := Option.isSome_iff_exists.1 (paths p m source)
    rw [e] at missing
    cases missing
  rw [encode, if_neg complete]
  rfl

/-- Every point with a source has a path if the encoder works on the table. -/
lemma sourced_of_encode {fs : FileSystem} {bundled : Bool} {file : Option String}
    {t : PositionTable} {m : SourceMap} (h : encode fs bundled file t = .ok m) :
    ∀ p ∈ t.points, p.hasSource = true → p.source.isSome = true := by
  intro p hp source
  cases e : p.source with
  | some path => rfl
  | none =>
    have missing : (t.points.any fun p => p.hasSource && p.source.isNone) = true :=
      List.any_eq_true.2 ⟨p, hp, by rw [source, e]; rfl⟩
    rw [encode, if_pos missing] at h
    cases h

/-- The segments of a table are decoded to its points if numbers mean what its sources say. -/
lemma decodeWith_segments {find : Int → Except Mapping.Fault σ} (meaning : String → σ)
    (t : PositionTable)
    (found : ∀ (id : Nat) (path : String), (segments t).2.paths[id]? = some path →
      find id = .ok (meaning path)) :
    Mapping.decodeWith find (String.ofList (Text.joinWith ',' (segments t).1)) =
      .ok ((t.points.filterMap sourced).map fun q => .ofPointOn 0 (meaning q.1) q.2) := by
  rw [segments] at found ⊢
  obtain ⟨last, e⟩ := Mapping.decodeLine_segmentsFrom meaning 0 found
  rw [Mapping.decodeWith_joinWith find fun _ m _ => mem_alphabet_of_mem_segmentsFrom m]
  exact congrArg (Except.map Prod.fst) e

/-- The mappings of a table say where its points with a source come from. -/
lemma decode_encode (fs : FileSystem) (file : Option String) {t : PositionTable}
    (paths : ∀ p ∈ t.points, p.hasSource = true → p.source.isSome = true) :
    ∃ m, encode fs false file t = .ok m ∧
      Mapping.decode m.mappings (m.sources.map some) =
        .ok ((t.points.filter Point.hasSource).map Mapping.ofPoint) := by
  refine ⟨_, encode_of_sourced fs file paths, ?_⟩
  rw [← filterMap_sourced paths, Mapping.decode]
  refine decodeWith_segments (fun path => some (SourcePath.stripLibrary path)) t ?_
  intro id path h
  rw [List.map_map, Mapping.item?_map h]
  rfl

/-- Decoding undoes encoding for any inserted points, whatever their numbers: every point of the
table with a source comes back once, with its own source. -/
theorem decode_encode_ofList (fs : FileSystem) (file : Option String) (inserted : List Point)
    (paths : ∀ p ∈ inserted, p.hasSource = true → p.source.isSome = true) :
    ∃ m, encode fs false file (.ofList inserted) = .ok m ∧
      Mapping.decode m.mappings (m.sources.map some) =
        .ok (((PositionTable.ofList inserted).points.filter Point.hasSource).map
          Mapping.ofPoint) :=
  decode_encode fs file fun p m => paths p (PositionTable.mem_of_mem_ofList m)

/-- Points of two libraries with a file of the same name, one of them inserted twice, and a point
without source between them. -/
def twoLibraries : List Point :=
  [⟨some "std:src/lib.rs", 16, 12, 5, false⟩, ⟨some "core:src/lib.rs", 20, -3, 0, false⟩,
    ⟨none, 18, 0, 7, false⟩, ⟨some "std:src/lib.rs", 16, 13, 1, true⟩]

/-- Two files come back under the same name, each at its own place. -/
theorem decode_encode_twoLibraries :
    (∀ p ∈ twoLibraries, p.hasSource = true → p.source.isSome = true) ∧
      ∃ m, encode .empty false (some "app.wasm") (.ofList twoLibraries) = .ok m ∧
        Mapping.decode m.mappings (m.sources.map some) =
          .ok [⟨0, 16, some "src/lib.rs", 13, 1⟩, ⟨0, 20, some "src/lib.rs", -3, 0⟩] :=
  ⟨by decide, decode_encode_ofList .empty (some "app.wasm") twoLibraries (by decide)⟩

end SourceMap

end WasmSourceMap
