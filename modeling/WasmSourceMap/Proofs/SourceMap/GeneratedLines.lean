import WasmSourceMap.Proofs.SourceMap.RoundTrip

/-!
# Mappings of many generated lines

The text that version 3 of the source map format prescribes for any lines of segments. A segment is
a column of the generated line alone, or such a column with the place it comes from and perhaps a
name. Each number is written as the difference to the one before it in its own field; only the
generated columns start anew on each line.

Every such text is decoded to the segments with a place, each by its own values (`decode_write`).
The decoder stands at the values that the text counts from (`Baseline.cursor`), except for the
names, which it does not follow. This holds before and after each segment (`decodeLine_written`), so
it holds along a line (`decodeLine_pieces`) and from line to line (`decodeLines_lineTexts`).
-/

namespace WasmSourceMap.Mapping

/-- A segment with absolute values that all count from zero. -/
inductive Segment where
  | column (generated : Int)
  | position (generated source line column : Int) (name : Option Int)
deriving DecidableEq, Repr

/-- The last value of each field, from which the next one is counted. -/
structure Baseline where
  generated : Int
  source : Int
  line : Int
  column : Int
  name : Int

def Baseline.start : Baseline := ⟨0, 0, 0, 0, 0⟩

variable {σ : Type}

namespace Segment

/-- The numbers of a segment. -/
def deltas (b : Baseline) : Segment → List Int
  | column g => [g - b.generated]
  | position g s l k none => [g - b.generated, s - b.source, l - b.line, k - b.column]
  | position g s l k (some n) =>
    [g - b.generated, s - b.source, l - b.line, k - b.column, n - b.name]

/-- The last values behind a segment; a field that it does not have keeps its value. -/
def next (b : Baseline) : Segment → Baseline
  | column g => { b with generated := g }
  | position g s l k name => ⟨g, s, l, k, name.getD b.name⟩

def written (b : Baseline) (segment : Segment) : List Char :=
  (segment.deltas b).flatMap Vlq.encodeChars

/-- The mapping that a segment stands for, with lines and columns that count from one. -/
def mapping? (meaning : Int → σ) (generatedLine : Nat) : Segment → Option (Mapping σ)
  | column _ => none
  | position g s l k _ => some ⟨generatedLine, g, meaning s, l + 1, k + 1⟩

end Segment

/-- The texts of the segments of a line, of which some may be empty. -/
def pieces (b : Baseline) : List (Option Segment) → List (List Char)
  | [] => []
  | none :: rest => [] :: pieces b rest
  | some segment :: rest => segment.written b :: pieces (segment.next b) rest

/-- The last values behind a line. -/
def behind (b : Baseline) : List (Option Segment) → Baseline
  | [] => b
  | none :: rest => behind b rest
  | some segment :: rest => behind (segment.next b) rest

/-- The texts of lines. -/
def lineTexts (b : Baseline) : List (List (Option Segment)) → List (List Char)
  | [] => []
  | line :: rest =>
    let start := { b with generated := 0 }
    Text.joinWith ',' (pieces start line) :: lineTexts (behind start line) rest

/-- The text of all lines. -/
def write (lines : List (List (Option Segment))) : String :=
  String.ofList (Text.joinWith ';' (lineTexts .start lines))

/-- The mappings of the segments of a line. -/
def ofLine (meaning : Int → σ) (generatedLine : Nat) (line : List (Option Segment)) :
    List (Mapping σ) :=
  line.filterMap fun segment => segment.bind (·.mapping? meaning generatedLine)

/-- The mappings of lines with their numbers. -/
def ofLines (meaning : Int → σ) (lines : List (List (Option Segment))) : List (Mapping σ) :=
  lines.zipIdx.flatMap fun (line, generatedLine) => ofLine meaning generatedLine line

/-- The source with a number; a number outside the sources has none. -/
def sourceAt (sources : List (Option String)) (id : Int) : Option String :=
  if 0 ≤ id ∧ id < sources.length then sources[id.toNat]?.join else none

/-- Where the decoder stands when the text counts from some values. -/
def Baseline.cursor (b : Baseline) : Cursor := ⟨b.generated, b.source, b.line + 1, b.column + 1⟩

namespace Segment

variable (b : Baseline) (segment : Segment)

lemma numbers_written : numbers (segment.written b) = .ok (segment.deltas b) := by
  rw [numbers, written, Vlq.decodeChars_flatMap_encodeChars]

/-- The numbers of a segment move the decoder to the values behind it. -/
lemma move_deltas : b.cursor.move (segment.deltas b) = (segment.next b).cursor := by
  cases segment with
  | column g =>
    have back : b.generated + (g - b.generated) = g := by omega
    simp only [deltas, next, Baseline.cursor, Cursor.move, back]
  | position g s l k name =>
    cases name <;>
    · simp only [deltas, next, Baseline.cursor, Cursor.move, Cursor.mk.injEq]
      omega

lemma deltas_ne_nil : segment.deltas b ≠ [] := by
  cases segment with
  | column g => exact List.cons_ne_nil _ _
  | position g s l k name => cases name <;> exact List.cons_ne_nil _ _

lemma written_ne_nil : segment.written b ≠ [] := by
  obtain ⟨d, rest, e⟩ := List.exists_cons_of_ne_nil (segment.deltas_ne_nil b)
  rw [written, e, List.flatMap_cons]
  exact List.append_ne_nil_of_left_ne_nil (Vlq.encodeChars_ne_nil d) _

variable {b segment} in
lemma mem_alphabet_of_mem_written {c : Char} (h : c ∈ segment.written b) : c ∈ Vlq.alphabet := by
  obtain ⟨d, _, inNumber⟩ := List.mem_flatMap.1 h
  exact Vlq.mem_alphabet_of_mem_encodeChars inNumber

end Segment

/-- One segment gives its mapping, if it has one, and the decoder goes on behind it. -/
lemma decodeLine_written (meaning : Int → σ) (generatedLine : Nat) (b : Baseline)
    (segment : Segment) (rest : List (List Char)) :
    decodeLine (fun id => .ok (meaning id)) generatedLine b.cursor (segment.written b :: rest) =
      (decodeLine (fun id => .ok (meaning id)) generatedLine (segment.next b).cursor rest).map
        fun after => ((segment.mapping? meaning generatedLine).toList ++ after.1, after.2) := by
  rw [decodeLine.eq_3 _ _ _ _ _ (segment.written_ne_nil b), segment.numbers_written]
  simp only [bind, Except.bind, segment.move_deltas]
  cases segment with
  | column g =>
    -- One number is too short for a place; the column is all that has moved.
    rw [if_pos (by simp [Segment.deltas])]
    cases decodeLine (fun id => .ok (meaning id)) generatedLine
      (Segment.next b (.column g)).cursor rest <;> rfl
  | position g s l k name =>
    rw [if_neg (by cases name <;> simp [Segment.deltas])]
    cases decodeLine (fun id => .ok (meaning id)) generatedLine
      (Segment.next b (.position g s l k name)).cursor rest <;> rfl

/-- The segments of a line give their mappings, and the decoder goes on behind the line. -/
lemma decodeLine_pieces (meaning : Int → σ) (generatedLine : Nat) (b : Baseline)
    (line : List (Option Segment)) :
    decodeLine (fun id => .ok (meaning id)) generatedLine b.cursor (pieces b line) =
      .ok (ofLine meaning generatedLine line, (behind b line).cursor) := by
  induction line generalizing b with
  | nil => rfl
  | cons segment rest ih =>
    cases segment with
    | none =>
      rw [pieces, decodeLine.eq_2, ih]
      rfl
    | some segment =>
      rw [pieces, decodeLine_written, ih, behind]
      cases segment <;> rfl

lemma mem_alphabet_of_mem_pieces {b : Baseline} {line : List (Option Segment)} {piece : List Char}
    {c : Char} (h : piece ∈ pieces b line) (hc : c ∈ piece) : c ∈ Vlq.alphabet := by
  induction line generalizing b with
  | nil => cases h
  | cons segment rest ih =>
    cases segment with
    | none =>
      rcases List.mem_cons.1 h with rfl | h
      · cases hc
      · exact ih h
    | some segment =>
      rcases List.mem_cons.1 h with rfl | h
      · exact Segment.mem_alphabet_of_mem_written hc
      · exact ih h

/-- No line holds the mark between lines. -/
lemma semicolon_not_mem_lineTexts {b : Baseline} {lines : List (List (Option Segment))}
    {text : List Char} (h : text ∈ lineTexts b lines) : ';' ∉ text := by
  induction lines generalizing b with
  | nil => cases h
  | cons line rest ih =>
    rcases List.mem_cons.1 h with rfl | h
    · intro mem
      rcases Text.mem_joinWith mem with e | ⟨piece, inLine, inPiece⟩
      · cases e
      · exact absurd (mem_alphabet_of_mem_pieces inLine inPiece) (by decide)
    · exact ih h

/-- The lines from a number on give their mappings. -/
lemma decodeLines_lineTexts (meaning : Int → σ) (generatedLine : Nat) (b : Baseline)
    (lines : List (List (Option Segment))) :
    decodeLines (fun id => .ok (meaning id)) generatedLine b.cursor (lineTexts b lines) =
      .ok ((lines.zipIdx generatedLine).flatMap fun (line, i) => ofLine meaning i line) := by
  induction lines generalizing generatedLine b with
  | nil => rfl
  | cons line rest ih =>
    have noComma : ∀ piece ∈ pieces { b with generated := 0 } line, ',' ∉ piece := fun _ m hc =>
      absurd (mem_alphabet_of_mem_pieces m hc) (by decide)
    -- Of the values before a line, the decoder and the text drop the same one.
    have anew : { b.cursor with address := 0 } =
      ({ b with generated := 0 } : Baseline).cursor := rfl
    rw [lineTexts, decodeLines, decodeLine_joinWith _ _ _ noComma, anew, decodeLine_pieces]
    simp only [bind, Except.bind, ih]
    rfl

/-- The text of all lines is decoded line by line. -/
lemma decodeWith_write (meaning : Int → σ) (lines : List (List (Option Segment))) :
    decodeWith (fun id => .ok (meaning id)) (write lines) = .ok (ofLines meaning lines) := by
  rw [decodeWith, write, String.toList_ofList]
  cases lines with
  | nil => rfl
  | cons line rest =>
    have noSemicolon : ∀ text ∈ lineTexts .start (line :: rest), ';' ∉ text := fun _ =>
      semicolon_not_mem_lineTexts
    have nonempty : lineTexts .start (line :: rest) ≠ [] := List.cons_ne_nil _ _
    rw [Text.splitOn_joinWith nonempty noSemicolon]
    exact decodeLines_lineTexts meaning 0 .start (line :: rest)

lemma join_item? (sources : List (Option String)) (id : Int) :
    (item? sources id).join = sourceAt sources id := by
  unfold sourceAt
  cases id with
  | negSucc n => rw [if_neg (by omega), item?]; rfl
  | ofNat n =>
    split
    · rfl
    · have outside : sources.length ≤ n := by
        rw [Int.ofNat_eq_natCast] at *
        omega
      rw [item?, List.getElem?_eq_none outside]
      rfl

/-- The text of any lines of segments is decoded to the mappings of the segments with a place: in
order, with the number of their line and their own values. -/
theorem decode_write (lines : List (List (Option Segment))) (sources : List (Option String)) :
    decode (write lines) sources = .ok (ofLines (sourceAt sources) lines) := by
  simp only [decode, join_item?]
  exact decodeWith_write (sourceAt sources) lines

-- A column alone, names, an empty line and empty segments; the second source is unknown.
example :
    write [[some (.column 3), some (.position 5 0 4 2 (some 1))], [],
        [none, some (.position 2 1 0 7 none), none, some (.position 9 0 1 0 (some 0))]] =
      "G,EAIEC;;,ECJK,,ODCPD" ∧
    (decode "G,EAIEC;;,ECJK,,ODCPD" [some "lib.rs"]).toOption =
      some [⟨0, 5, some "lib.rs", 5, 3⟩, ⟨2, 2, none, 1, 8⟩, ⟨2, 9, some "lib.rs", 2, 1⟩] := by
  decide +kernel

end WasmSourceMap.Mapping
