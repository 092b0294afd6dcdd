import WasmSourceMap.Proofs.Json.RoundTrip

/-!
# The indented form is read back

The indented form of a value has the tokens of the value, with blanks between them that the
scanner skips (`scanFrom_newLine`). A character beyond ASCII is read back from its unit, or from
the two units of a pair (`readsBack_escapeAsciiChar`). So a well-formed value is read back from
its indented form as it is from its compact form.
-/

namespace WasmSourceMap.Json

namespace Token

/-- The two units of a pair are read as the character that they stand for. -/
lemma scanFrom_pair {c : Char} {first second : Nat} (read : List CodePoint) (rest : List Char)
    (isFirst : 0xD800 ≤ first ∧ first < 0xDC00) (isSecond : 0xDC00 ≤ second ∧ second < 0xE000)
    (whole : 0x10000 + (first - 0xD800) * 0x400 + (second - 0xDC00) = c.toNat) :
    scanFrom (.inString read none) (unitEscape first ++ unitEscape second ++ rest) =
      scanFrom (.inString (.char c :: read) none) rest := by
  have waits : afterUnit read none first = .inString read (some first) := by
    have low : (decide (0xDC00 ≤ first) && decide (first < 0xE000)) = false := by
      simp only [Bool.and_eq_false_iff, decide_eq_false_iff_not]
      omega
    have high : (decide (0xD800 ≤ first) && decide (first < 0xDC00)) = true := by
      simpa only [Bool.and_eq_true, decide_eq_true_eq] using isFirst
    simp only [afterUnit, low, high, settle, if_true]
  have completes : afterUnit read (some first) second = .inString (.char c :: read) none := by
    have low : (decide (0xDC00 ≤ second) && decide (second < 0xE000)) = true := by
      simpa only [Bool.and_eq_true, decide_eq_true_eq] using isSecond
    simp only [afterUnit, low, whole, Char.ofNat_toNat]
  rw [List.append_assoc, scanFrom_unit (by omega), waits, scanFrom_unit (by omega), completes]

lemma readsBack_escapeAsciiChar : ReadsBack escapeAsciiChar := by
  intro read c rest
  rw [escapeAsciiChar]
  cases letter : letterEscape? c with
  | some escaped => exact scanFrom_letter read letter rest
  | none =>
    rw [Option.getD_none]
    split
    · rename_i printable
      simp only [Bool.and_eq_true, decide_eq_true_eq] at printable
      exact scanFrom_plain read letter (by omega) rest
    split
    · exact scanFrom_alone read ‹_› rest
    · have valid : c.toNat < 0xD800 ∨ 0xDFFF < c.toNat ∧ c.toNat < 0x110000 := c.valid
      exact scanFrom_pair read rest (by omega) (by omega) (by omega)

lemma scanFrom_blank {c : Char} (h : isBlank c = true) (rest : List Char) :
    scanFrom .between (c :: rest) = scanFrom .between rest := by
  refine scanFrom_of_step ?_ rest
  rw [step, start, if_pos h]

/-- A new line and the blanks of its level are skipped. -/
lemma scanFrom_newLine (level : Nat) (rest : List Char) :
    scanFrom .between (newLine level ++ rest) = scanFrom .between rest := by
  have blanks : ∀ n, scanFrom .between (List.replicate n ' ' ++ rest) = scanFrom .between rest := by
    intro n
    induction n with
    | zero => rfl
    | succ n ih => rw [List.replicate_succ, List.cons_append, scanFrom_blank rfl, ih]
  rw [newLine, List.cons_append, scanFrom_blank rfl, blanks]

lemma closed_newLine (level : Nat) (rest : List Char) : Closed (newLine level ++ rest) :=
  .cons rfl _

end Token

open Token in
mutual

/-- The indented form of a value is scanned as the tokens of the value. -/
theorem scanFrom_indentedChars : ∀ (level : Nat) (v : Json) (rest : List Char), v.WellFormed →
    Closed rest →
    scanFrom .between (indentedChars level v ++ rest) =
      (scanFrom .between rest).map (tokens v ++ ·)
  | _, .null, _, _, closed =>
    scanFrom_word (List.cons_ne_nil _ _) (endsWord_of_all rfl) closed
  | _, .bool true, _, _, closed =>
    scanFrom_word (List.cons_ne_nil _ _) (endsWord_of_all rfl) closed
  | _, .bool false, _, _, closed =>
    scanFrom_word (List.cons_ne_nil _ _) (endsWord_of_all rfl) closed
  | _, .integer n, _, _, closed =>
    scanFrom_word (ne_nil_of_ofWord? (ofWord?_toString n)) (fun _ m => endsWord_of_mem_toString m)
      closed
  | _, .decimal _, _, ⟨own, inside⟩, closed =>
    scanFrom_word (ne_nil_of_ofWord? own) inside closed
  | _, .string s, rest, _, _ => scanFrom_quoted readsBack_escapeAsciiChar s rest
  | _, .wide _, _, wf, _ => wf.elim
  | _, .array [], rest, _, _ => by
    rw [indentedChars, tokens, itemTokens, List.cons_append, List.singleton_append]
    rw [scanFrom_of_step_token rfl, scanFrom_of_step_token rfl, Option.map_map]
    rfl
  | level, .array (item :: more), rest, wf, _ => by
    have items := scanFrom_indentedItems (level + 1) (item :: more) (newLine level ++ ']' :: rest)
      wf (closed_newLine level _)
    rw [indentedChars, tokens]
    simp only [List.cons_append, List.append_assoc, List.nil_append]
    rw [scanFrom_of_step_token rfl, items, scanFrom_newLine, scanFrom_of_step_token rfl]
    rw [map_append_map_cons, map_cons_map_append]
    simp only [List.cons_append, List.append_assoc, List.nil_append]
  | _, .object [], rest, _, _ => by
    rw [indentedChars, tokens, memberTokens, List.cons_append, List.singleton_append]
    rw [scanFrom_of_step_token rfl, scanFrom_of_step_token rfl, Option.map_map]
    rfl
  | level, .object (m :: more), rest, ⟨_, wf⟩, _ => by
    have members := scanFrom_indentedMembers (level + 1) (m :: more)
      (newLine level ++ '\x7d' :: rest) wf (closed_newLine level _)
    rw [indentedChars, tokens]
    simp only [List.cons_append, List.append_assoc, List.nil_append]
    rw [scanFrom_of_step_token rfl, members, scanFrom_newLine, scanFrom_of_step_token rfl]
    rw [map_append_map_cons, map_cons_map_append]
    simp only [List.cons_append, List.append_assoc, List.nil_append]

/-- The items of an array, each on its line, are scanned as the tokens of the items. -/
theorem scanFrom_indentedItems : ∀ (level : Nat) (items : List Json) (rest : List Char),
    WellFormedItems items → Closed rest →
    scanFrom .between (indentedItems level items ++ rest) =
      (scanFrom .between rest).map (itemTokens items ++ ·)
  | _, [], _, _, _ => Option.map_id'.symm
  | level, [item], rest, wf, closed => by
    rw [indentedItems, itemTokens, List.append_assoc, scanFrom_newLine]
    exact scanFrom_indentedChars level item rest wf.1 closed
  | level, item :: next :: more, rest, wf, closed => by
    have later := scanFrom_indentedItems level (next :: more) rest wf.2 closed
    rw [indentedItems, itemTokens, List.append_assoc, List.append_assoc, List.cons_append]
    rw [scanFrom_newLine, scanFrom_indentedChars level item _ wf.1 (.cons rfl _)]
    rw [scanFrom_of_step_token rfl, later, map_cons_map_append, map_append_map_append]

/-- The members of an object, each on its line, are scanned as the tokens of the members. -/
theorem scanFrom_indentedMembers : ∀ (level : Nat) (members : List (String × Json))
    (rest : List Char), WellFormedMembers members → Closed rest →
    scanFrom .between (indentedMembers level members ++ rest) =
      (scanFrom .between rest).map (memberTokens members ++ ·)
  | _, [], _, _, _ => Option.map_id'.symm
  | level, [(name, value)], rest, wf, closed => by
    have value := scanFrom_indentedChars level value rest wf.1 closed
    rw [indentedMembers, memberTokens]
    simp only [List.append_assoc, List.cons_append]
    rw [scanFrom_newLine, scanFrom_quoted readsBack_escapeAsciiChar, scanFrom_of_step_token rfl]
    rw [scanFrom_blank rfl, value, map_cons_map_append, map_cons_map_append]
    simp only [List.cons_append]
  | level, (name, value) :: next :: more, rest, wf, closed => by
    have later := scanFrom_indentedMembers level (next :: more) rest wf.2 closed
    have value := scanFrom_indentedChars level value
      (',' :: (indentedMembers level (next :: more) ++ rest)) wf.1 (.cons rfl _)
    rw [indentedMembers, memberTokens]
    simp only [List.append_assoc, List.cons_append]
    rw [scanFrom_newLine, scanFrom_quoted readsBack_escapeAsciiChar, scanFrom_of_step_token rfl]
    rw [scanFrom_blank rfl, value, scanFrom_of_step_token rfl, later]
    simp only [map_cons_map_append, map_append_map_append]
    simp only [List.append_assoc, List.cons_append]

end

/-- The indented form of a well-formed value is read back. -/
theorem parse?_indented {v : Json} (wf : v.WellFormed) : parse? (indented v) = some v := by
  have all := scanFrom_indentedChars 0 v [] wf .nil
  rw [List.append_nil] at all
  rw [parse?, indented, String.toList_ofList]
  refine parseChars_of_scan ?_ wf
  rw [Token.scan, all]
  exact congrArg some (List.append_nil (tokens v))

end WasmSourceMap.Json
