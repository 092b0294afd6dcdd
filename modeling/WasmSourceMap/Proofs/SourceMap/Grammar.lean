import Mathlib.Algebra.Ring.Int.Defs
import Mathlib.Data.List.DropRight
import WasmSourceMap.Fault
import WasmSourceMap.Proofs.SourceMap.GeneratedLines
import WasmSourceMap.Proofs.SourceMap.Marks
import WasmSourceMap.Proofs.Text.Runs

/-!
# Which mappings are decoded

Every text is either decoded or refused for its first segment with a defect. What is decoded has one
mapping for each maximal run of digits with four numbers or more, in the order of the text. Its
values are sums over the text up to the run (`mappingOf`): the decoder stands at these sums behind
each mark (`cursorBehind`), and from there one segment and one mark take it to the next mark
(`decodeRest_comma`, `decodeRest_semicolon`). So the induction along the marks of a text
(`decodeRest_eq`) gives the whole of `decode_grammatical`.
-/

namespace WasmSourceMap.Mapping

variable {σ : Type}

/-- The number at some place of a segment, which is zero if it has none there. -/
def numberAt (place : Nat) (segment : List Char) : Int :=
  ((Vlq.decodeChars segment).toOption.getD []).getD place 0

/-- The sum of the numbers at some place of the segments of a text. -/
def total (place : Nat) (text : List Char) : Int :=
  ((segmentTexts text).map (numberAt place)).sum

/-- The generated line at the end of a text. -/
def lastLine (text : List Char) : List Char := text.rtakeWhile (· ≠ ';')

/-- The values behind a text. Only the addresses are summed up along the last line alone. -/
def cursorBehind (text : List Char) : Cursor :=
  ⟨total 0 (lastLine text), total 1 text, 1 + total 2 text, 1 + total 3 text⟩

/-- The mapping that a run of digits stands for behind some front of a text. -/
def mappingOf (meaning : Int → σ) (front run : List Char) : Mapping σ :=
  let c := cursorBehind (front ++ run)
  ⟨front.count ';', c.address, meaning c.source, c.line, c.column⟩

/-- The mappings of the runs of digits with four numbers or more. -/
def mappingsOf (meaning : Int → σ) (runs : List (List Char × List Char)) : List (Mapping σ) :=
  (runs.filter fun r => 4 ≤ r.2.countP Vlq.ends).map fun r => mappingOf meaning r.1 r.2

lemma mappingsOf_append (meaning : Int → σ) (runs others : List (List Char × List Char)) :
    mappingsOf meaning (runs ++ others) = mappingsOf meaning runs ++ mappingsOf meaning others := by
  rw [mappingsOf, List.filter_append, List.map_append]
  rfl

/-- The mapping of a segment that has moved the values, if it has numbers enough. -/
def ofNumbers (meaning : Int → σ) (generatedLine : Nat) (moved : Cursor) (values : List Int) :
    List (Mapping σ) :=
  if values.length < 4 then []
  else [⟨generatedLine, moved.address, meaning moved.source, moved.line, moved.column⟩]

/-- The mappings of a text that goes on in some line. -/
def decodeRest (meaning : Int → σ) (generatedLine : Nat) (c : Cursor) (text : List Char) :
    Except Fault (List (Mapping σ)) :=
  match Text.splitOn ';' text with
  | [] => .ok []
  | line :: rest => do
    let (mappings, last) ←
      decodeLine (fun id => .ok (meaning id)) generatedLine c (Text.splitOn ',' line)
    return mappings ++ (← decodeLines (fun id => .ok (meaning id)) (generatedLine + 1) last rest)

section

variable {front piece : List Char} {values : List Int} (place : Nat)

lemma numberAt_of_decoded (decoded : Vlq.decodeChars piece = .ok values) :
    numberAt place piece = values.getD place 0 := by
  rw [numberAt, decoded]
  rfl

lemma numberAt_nil : numberAt place [] = 0 := numberAt_of_decoded place Vlq.decodeChars_nil

lemma total_of_noMark (noMark : ∀ c ∈ piece, isMark c = false) :
    total place piece = numberAt place piece := by
  rw [total, segmentTexts_of_noMark noMark]
  exact List.sum_singleton

lemma total_nil : total place [] = 0 :=
  (total_of_noMark place (List.forall_mem_nil _)).trans (numberAt_nil place)

lemma total_append_cons (front : List Char) {mark : Char} (h : isMark mark = true)
    (rest : List Char) : total place (front ++ mark :: rest) = total place front + total place rest := by
  rw [total, segmentTexts_append_cons front h, List.map_append, List.sum_append]
  rfl

lemma total_append_mark (text : List Char) {mark : Char} (h : isMark mark = true) :
    total place (text ++ [mark]) = total place text := by
  rw [total_append_cons place text h, total_nil, Int.add_zero]

/-- A segment behind a mark adds its own number. -/
lemma total_append_piece (atMark : ∀ c ∈ front.getLast?, isMark c = true)
    (noMark : ∀ c ∈ piece, isMark c = false) :
    total place (front ++ piece) = total place front + numberAt place piece := by
  rcases List.eq_nil_or_concat' front with rfl | ⟨before, mark, rfl⟩
  · rw [List.nil_append, total_of_noMark place noMark, total_nil, Int.zero_add]
  · have marks : isMark mark = true := atMark mark (by simp)
    rw [total_append_mark place before marks, List.append_assoc, List.singleton_append,
      total_append_cons place before marks, total_of_noMark place noMark]

end

lemma move_eq (c : Cursor) (values : List Int) :
    c.move values = ⟨c.address + values.getD 0 0, c.source + values.getD 1 0,
      c.line + values.getD 2 0, c.column + values.getD 3 0⟩ := by
  rcases values with _ | ⟨a, _ | ⟨s, _ | ⟨l, _ | ⟨k, rest⟩⟩⟩⟩ <;> simp [Cursor.move]

lemma lastLine_append {piece : List Char} (h : ';' ∉ piece) (front : List Char) :
    lastLine (front ++ piece) = lastLine front ++ piece := by
  have same : ∀ c ∈ piece.reverse, decide (c ≠ ';') = true := by
    intro c mem
    refine decide_eq_true fun e => h ?_
    rw [← e]
    exact List.mem_reverse.1 mem
  rw [lastLine, List.rtakeWhile, List.reverse_append, List.takeWhile_append_of_pos same,
    List.reverse_append, List.reverse_reverse]
  rfl

lemma lastLine_semicolon (front : List Char) : lastLine (front ++ [';']) = [] := by
  simp [lastLine]

/-- What stands behind a mark in a text stands behind a mark in its last line. -/
lemma isMark_of_lastLine {front : List Char} (atMark : ∀ c ∈ front.getLast?, isMark c = true) :
    ∀ c ∈ (lastLine front).getLast?, isMark c = true := by
  rcases List.eq_nil_or_concat' front with rfl | ⟨before, mark, rfl⟩
  · nofun
  · intro c mem
    rw [lastLine, List.rtakeWhile_concat] at mem
    split at mem
    · exact atMark c (by simpa using mem)
    · cases mem

/-- A segment behind a mark moves the values by its numbers. -/
lemma cursorBehind_append_piece {front piece : List Char} {values : List Int}
    (atMark : ∀ c ∈ front.getLast?, isMark c = true) (noMark : ∀ c ∈ piece, isMark c = false)
    (decoded : Vlq.decodeChars piece = .ok values) :
    cursorBehind (front ++ piece) = (cursorBehind front).move values := by
  have noSemicolon : ';' ∉ piece := fun mem => absurd (noMark _ mem) (by decide)
  rw [move_eq, cursorBehind, lastLine_append noSemicolon,
    total_append_piece 0 (isMark_of_lastLine atMark) noMark]
  simp only [total_append_piece _ atMark noMark, numberAt_of_decoded _ decoded, cursorBehind,
    Int.add_assoc]

lemma cursorBehind_comma (front : List Char) :
    cursorBehind (front ++ [',']) = cursorBehind front := by
  have noSemicolon : ';' ∉ [','] := by decide
  simp only [cursorBehind, lastLine_append noSemicolon,
    total_append_mark _ _ (show isMark ',' = true from rfl)]

/-- The addresses start anew on the next line. -/
lemma cursorBehind_semicolon (front : List Char) :
    cursorBehind (front ++ [';']) = { cursorBehind front with address := 0 } := by
  simp only [cursorBehind, lastLine_semicolon, total_nil,
    total_append_mark _ _ (show isMark ';' = true from rfl)]

section

variable (meaning : Int → σ) (generatedLine : Nat) (c : Cursor)

/-- One segment is decoded and then the others, from the values to which it has moved. -/
lemma decodeLine_cons (piece : List Char) (rest : List (List Char)) :
    decodeLine (fun id => .ok (meaning id)) generatedLine c (piece :: rest) = do
      let values ← numbers piece
      let later ← decodeLine (fun id => .ok (meaning id)) generatedLine (c.move values) rest
      return (ofNumbers meaning generatedLine (c.move values) values ++ later.1, later.2) := by
  cases piece with
  | nil =>
    rw [decodeLine.eq_2, numbers, Vlq.decodeChars_nil]
    show _ = (decodeLine (fun id => .ok (meaning id)) generatedLine c rest >>= _)
    cases decodeLine (fun id => .ok (meaning id)) generatedLine c rest <;> rfl
  | cons d more =>
    rw [decodeLine.eq_3 _ _ _ _ _ (List.cons_ne_nil _ _)]
    cases numbers (d :: more) with
    | error fault => rfl
    | ok values =>
      simp only [bind, Except.bind, ofNumbers]
      split <;>
      · cases decodeLine (fun id => .ok (meaning id)) generatedLine (c.move values) rest <;> rfl

lemma decodeLines_splitOn (text : List Char) :
    decodeLines (fun id => .ok (meaning id)) generatedLine c (Text.splitOn ';' text) =
      decodeRest meaning generatedLine { c with address := 0 } text := by
  rw [decodeRest]
  cases Text.splitOn ';' text <;> rfl

variable {piece : List Char} (noMark : ∀ c ∈ piece, isMark c = false)

include noMark in
lemma mark_not_mem : ',' ∉ piece ∧ ';' ∉ piece :=
  ⟨fun mem => absurd (noMark _ mem) (by decide), fun mem => absurd (noMark _ mem) (by decide)⟩

include noMark in
lemma decodeRest_of_noMark :
    decodeRest meaning generatedLine c piece = do
      let values ← numbers piece
      return ofNumbers meaning generatedLine (c.move values) values := by
  obtain ⟨noComma, noSemicolon⟩ := mark_not_mem noMark
  rw [decodeRest, Text.splitOn_of_not_mem noSemicolon]
  dsimp only
  rw [Text.splitOn_of_not_mem noComma, decodeLine_cons]
  cases numbers piece with
  | error fault => rfl
  | ok values => simp [decodeLine, decodeLines, bind, Except.bind, pure, Except.pure]

include noMark in
lemma decodeRest_semicolon (rest : List Char) :
    decodeRest meaning generatedLine c (piece ++ ';' :: rest) = do
      let values ← numbers piece
      let later ←
        decodeRest meaning (generatedLine + 1) { c.move values with address := 0 } rest
      return ofNumbers meaning generatedLine (c.move values) values ++ later := by
  obtain ⟨noComma, noSemicolon⟩ := mark_not_mem noMark
  rw [decodeRest, Text.splitOn_append_cons noSemicolon]
  dsimp only
  rw [Text.splitOn_of_not_mem noComma, decodeLine_cons]
  cases numbers piece with
  | error fault => rfl
  | ok values =>
    simp only [decodeLine, decodeLines_splitOn, bind, Except.bind, pure, Except.pure,
      List.append_nil]

include noMark in
lemma decodeRest_comma (rest : List Char) :
    decodeRest meaning generatedLine c (piece ++ ',' :: rest) = do
      let values ← numbers piece
      let later ← decodeRest meaning generatedLine (c.move values) rest
      return ofNumbers meaning generatedLine (c.move values) values ++ later := by
  obtain ⟨noComma, noSemicolon⟩ := mark_not_mem noMark
  have apart : ';' ∉ piece ++ [','] := by simpa using noSemicolon
  obtain ⟨line, more, lines⟩ := List.exists_cons_of_ne_nil (Text.splitOn_ne_nil ';' rest)
  have first : Text.splitOn ';' (piece ++ ',' :: rest) = (piece ++ ',' :: line) :: more := by
    simpa using Text.splitOn_append apart lines
  have later (moved : Cursor) : decodeRest meaning generatedLine moved rest = do
      let (mappings, last) ← decodeLine (fun id => .ok (meaning id)) generatedLine moved
        (Text.splitOn ',' line)
      return mappings ++ (← decodeLines (fun id => .ok (meaning id)) (generatedLine + 1) last more) := by
    rw [decodeRest, lines]
  rw [decodeRest, first]
  dsimp only
  rw [Text.splitOn_append_cons noComma, decodeLine_cons]
  cases numbers piece with
  | error fault => rfl
  | ok values =>
    simp only [later, bind, Except.bind]
    cases decodeLine (fun id => .ok (meaning id)) generatedLine (c.move values)
        (Text.splitOn ',' line) with
    | error fault => rfl
    | ok result =>
      simp only [pure, Except.pure]
      cases decodeLines (fun id => .ok (meaning id)) (generatedLine + 1) result.2 more with
      | error fault => rfl
      | ok others => exact congrArg Except.ok (List.append_assoc _ _ _)

end

/-- What a segment gives is the mapping of its run of digits, if that has four numbers. -/
lemma ofNumbers_eq (meaning : Int → σ) {front piece : List Char} {values : List Int}
    (atMark : ∀ c ∈ front.getLast?, isMark c = true) (noMark : ∀ c ∈ piece, isMark c = false)
    (decoded : Vlq.decodeChars piece = .ok values)
    (counted : values.length = piece.countP Vlq.ends) :
    ofNumbers meaning (front.count ';') ((cursorBehind front).move values) values =
      mappingsOf meaning (Text.seen front piece) := by
  rw [ofNumbers, ← cursorBehind_append_piece atMark noMark decoded, counted]
  cases piece with
  | nil => rfl
  | cons d more =>
    have one : Text.seen front (d :: more) = [(front, d :: more)] := rfl
    rw [mappingsOf, one, List.filter_cons, List.filter_nil]
    by_cases long : 4 ≤ (d :: more).countP Vlq.ends
    · rw [if_neg (Nat.not_lt.2 long), if_pos (decide_eq_true long)]
      rfl
    · rw [if_pos (Nat.lt_of_not_le long), if_neg (by simpa using long)]
      rfl

/-- A segment with a defect and a mark are refused. -/
lemma decodeRest_of_defect? (meaning : Int → σ) (generatedLine : Nat) (c : Cursor)
    {piece : List Char} (noMark : ∀ c ∈ piece, isMark c = false) {mark : Char}
    (marks : isMark mark = true) {own : Vlq.Fault} (defect : Vlq.defect? piece = some own)
    (rest : List Char) :
    decodeRest meaning generatedLine c (piece ++ mark :: rest) = .error (.badNumber own) := by
  rcases eq_of_isMark marks with rfl | rfl
  · rw [decodeRest_comma _ _ _ noMark, numbers, Vlq.decodeChars_of_defect? defect]
    rfl
  · rw [decodeRest_semicolon _ _ _ noMark, numbers, Vlq.decodeChars_of_defect? defect]
    rfl

/-- A segment without defect and a mark give their mapping, and the decoder stands at the values
behind them. -/
lemma decodeRest_step (meaning : Int → σ) {front piece : List Char}
    (atMark : ∀ c ∈ front.getLast?, isMark c = true) (noMark : ∀ c ∈ piece, isMark c = false)
    {mark : Char} (marks : isMark mark = true) (sound : Vlq.defect? piece = none)
    (rest : List Char) :
    decodeRest meaning (front.count ';') (cursorBehind front) (piece ++ mark :: rest) =
      (decodeRest meaning ((front ++ piece ++ [mark]).count ';')
        (cursorBehind (front ++ piece ++ [mark])) rest).map
          (mappingsOf meaning (Text.seen front piece) ++ ·) := by
  obtain ⟨values, decoded, counted⟩ := Vlq.decodeChars_of_sound sound
  have read : numbers piece = .ok values := by rw [numbers, decoded]
  have moved := cursorBehind_append_piece atMark noMark decoded
  have gives := ofNumbers_eq meaning atMark noMark decoded counted
  have noLine : piece.count ';' = 0 := List.count_eq_zero.2 (mark_not_mem noMark).2
  rcases eq_of_isMark marks with rfl | rfl
  · have sameLine : (front ++ piece ++ [',']).count ';' = front.count ';' := by
      simp [List.count_append, noLine]
    rw [decodeRest_comma _ _ _ noMark, read, sameLine, cursorBehind_comma, moved, ← gives]
    simp only [bind, Except.bind]
    cases decodeRest meaning (front.count ';') ((cursorBehind front).move values) rest <;> rfl
  · have nextLine : (front ++ piece ++ [';']).count ';' = front.count ';' + 1 := by
      simp [List.count_append, noLine]
    rw [decodeRest_semicolon _ _ _ noMark, read, nextLine, cursorBehind_semicolon, moved, ← gives]
    simp only [bind, Except.bind]
    cases decodeRest meaning (front.count ';' + 1)
      { (cursorBehind front).move values with address := 0 } rest <;> rfl

/-- What follows a mark is refused for its first segment with a defect, or gives the mappings of its
runs of digits. -/
lemma decodeRest_eq (meaning : Int → σ) (front text : List Char)
    (atMark : ∀ c ∈ front.getLast?, isMark c = true) :
    decodeRest meaning (front.count ';') (cursorBehind front) text =
      match (segmentTexts text).findSome? Vlq.defect? with
      | some own => .error (.badNumber own)
      | none => .ok (mappingsOf meaning (Text.runsFrom isDigit front [] text)) := by
  induction text using marks_induction generalizing front with
  | last piece noMark =>
    rw [decodeRest_of_noMark _ _ _ noMark, segmentTexts_of_noMark noMark, List.findSome?_singleton]
    cases defect : Vlq.defect? piece with
    | some own =>
      rw [numbers, Vlq.decodeChars_of_defect? defect]
      rfl
    | none =>
      obtain ⟨values, decoded, counted⟩ := Vlq.decodeChars_of_sound defect
      rw [numbers, decoded, Text.runsFrom_stretch (digits_of_sound defect),
        ← ofNumbers_eq meaning atMark noMark decoded counted]
      rfl
  | more piece mark rest noMark marks ih =>
    rw [segmentTexts_append_cons _ marks, segmentTexts_of_noMark noMark, List.singleton_append,
      List.findSome?_cons]
    cases defect : Vlq.defect? piece with
    | some own => exact decodeRest_of_defect? _ _ _ noMark marks defect rest
    | none =>
      have behind : ∀ c ∈ (front ++ piece ++ [mark]).getLast?, isMark c = true := by
        simpa using marks
      rw [decodeRest_step meaning atMark noMark marks defect, ih _ behind,
        Text.runsFrom_append_cons (digits_of_sound defect) (isDigit_eq_false marks),
        mappingsOf_append]
      dsimp only
      cases (segmentTexts rest).findSome? Vlq.defect? <;> rfl

/-- Where the whole text begins, all values are those before the first segment. -/
lemma decode_eq (text : String) (sources : List (Option String)) :
    decode text sources =
      match (segmentTexts text.toList).findSome? Vlq.defect? with
      | some own => .error (.badNumber own)
      | none => .ok (mappingsOf (sourceAt sources) (Text.runs isDigit text.toList)) := by
  have whole := decodeRest_eq (sourceAt sources) [] text.toList nofun
  have start : cursorBehind [] = .start := by
    simp only [cursorBehind, lastLine, List.rtakeWhile_nil, total_nil]
    rfl
  rw [Text.runs, ← whole, start, decode]
  simp only [join_item?]
  exact decodeLines_splitOn (sourceAt sources) 0 .start text.toList

/-- Mappings are decoded exactly if they are grammatical, whatever the sources are. Each maximal run
of digits in which four or more end a number then gives a mapping, in the order of the text; else
the first text between marks that has a defect is what they are refused for. -/
theorem decode_grammatical (text : String) (sources : List (Option String)) :
    ((∃ mappings, decode text sources = .ok mappings) ↔ Grammatical text.toList) ∧
    (∀ mappings, decode text sources = .ok mappings →
      ∃ runs : List (List Char × List Char),
        (∀ front run, (front, run) ∈ runs ↔
          Text.IsRun isDigit text.toList front run ∧ 4 ≤ run.countP Vlq.ends) ∧
        runs.Pairwise (fun r s => r.1.length < s.1.length) ∧
        mappings = runs.map fun r => mappingOf (sourceAt sources) r.1 r.2) ∧
    ∀ fault, decode text sources = .error fault ↔
      ∃ own, (segmentTexts text.toList).findSome? Vlq.defect? = some own ∧
        fault = .badNumber own ∧ (WasmSourceMap.Fault.mapping fault).message = own.message := by
  rw [grammatical_iff, decode_eq]
  cases defect : (segmentTexts text.toList).findSome? Vlq.defect? with
  | some own =>
    refine ⟨⟨nofun, nofun⟩, nofun, fun fault => ⟨?_, ?_⟩⟩
    · rintro ⟨⟩
      exact ⟨own, rfl, rfl, rfl⟩
    · rintro ⟨_, ⟨⟩, rfl, _⟩
      rfl
  | none =>
    refine ⟨⟨fun _ => rfl, fun _ => ⟨_, rfl⟩⟩, ?_, fun fault => ⟨nofun, nofun⟩⟩
    rintro _ ⟨⟩
    refine ⟨_, fun front run => ?_, (Text.pairwise_runs text.toList).filter _, rfl⟩
    rw [List.mem_filter, Text.mem_runs_iff, decide_eq_true_eq]

-- Five numbers, a segment without source, padding, and a source in front of the first one.
example :
    decode "CACCC,C;;gADAA" [some "lib.rs"] =
      .ok [⟨0, 1, some "lib.rs", 2, 2⟩, ⟨2, 0, none, 2, 2⟩] := by
  decide +kernel

-- The number that is not ended comes first, though a character outside the alphabet follows.
example : decode "CACC,Cg;A*A" [] = .error (.badNumber .truncated) := by
  decide +kernel

end WasmSourceMap.Mapping
