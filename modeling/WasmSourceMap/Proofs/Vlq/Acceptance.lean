import WasmSourceMap.Proofs.Vlq.Spelling

/-!
# Which texts are runs of numbers

A text is a run of numbers unless it has a character outside the alphabet or ends inside a number.
`defect?` finds the first of these without decoding, and it is the fault that decoding ends with
(`decodeChars_of_defect?`). A text without a defect has as many numbers as it has digits that end
one (`decodeChars_of_sound`).
-/

namespace WasmSourceMap.Vlq

/-- The digit says that another one follows. -/
def continues (c : Char) : Bool := (digitValue? c).any (32 ≤ ·)

/-- The digit is the last one of its number. -/
def ends (c : Char) : Bool := (digitValue? c).any (· < 32)

/-- What keeps a text from being a run of numbers. -/
def defect? (text : List Char) : Option Fault :=
  match text.find? (· ∉ alphabet) with
  | some c => some (.invalidCharacter c)
  | none => if text.getLast?.any continues then some .truncated else none

lemma mem_alphabet_of_digitValue? {c : Char} {d : Nat} (h : digitValue? c = some d) :
    c ∈ alphabet :=
  List.isSome_idxOf?.1 (Option.isSome_of_eq_some h)

lemma defect?_eq_none_iff {text : List Char} :
    defect? text = none ↔ (∀ c ∈ text, c ∈ alphabet) ∧ ∀ d ∈ text.getLast?, continues d = false := by
  have outside : text.find? (· ∉ alphabet) = none ↔ ∀ c ∈ text, c ∈ alphabet := by
    simp [List.find?_eq_none]
  unfold defect?
  cases found : text.find? (· ∉ alphabet) with
  | none => cases text.getLast? <;> simp_all
  | some c =>
    have refused : ¬∀ c ∈ text, c ∈ alphabet := by
      rw [← outside, found]
      exact Option.some_ne_none c
    exact ⟨nofun, fun h => absurd h.1 refused⟩

/-- A digit in front of something leaves the defect to what follows. -/
lemma defect?_cons {c : Char} (digit : c ∈ alphabet) {rest : List Char}
    (h : rest ≠ [] ∨ continues c = false) : defect? (c :: rest) = defect? rest := by
  unfold defect?
  rw [List.find?_cons_of_neg (by simpa using digit)]
  cases rest with
  | nil => simp [h.resolve_left (fun other => other rfl)]
  | cons b more => rw [List.getLast?_cons_cons]

/-- A number leaves the defect to what follows it, and one of its digits ends it. -/
lemma defect?_append {spelling : List Char} {n : Nat} (h : groupCode.Spells spelling n)
    (after : List Char) :
    defect? (spelling ++ after) = defect? after ∧ spelling.countP ends = 1 := by
  induction h with
  | @last c d digit small =>
    have value : digitValue? c = some d := digit
    have small : d < 32 := small
    have stops : continues c = false := by simp [continues, value, small]
    have isEnd : ends c = true := by simp [ends, value, small]
    refine ⟨defect?_cons (mem_alphabet_of_digitValue? digit) (.inr stops), ?_⟩
    rw [List.countP_cons_of_pos isEnd]
    rfl
  | @more c d n rest digit large others ih =>
    have value : digitValue? c = some d := digit
    have large : 32 ≤ d := large
    have noEnd : ¬ends c = true := by simp [ends, value, large]
    have behind : rest ++ after ≠ [] := List.append_ne_nil_of_left_ne_nil others.ne_nil _
    refine ⟨(defect?_cons (mem_alphabet_of_digitValue? digit) (.inl behind)).trans ih.1, ?_⟩
    rw [List.countP_cons_of_neg noEnd]
    exact ih.2

/-- A number cannot be taken off for the defect of the text. -/
lemma defect?_of_takeNat_error {text : List Char} {fault : Fault} (nonempty : text ≠ [])
    (h : takeNat text = .error fault) : defect? text = some fault := by
  induction text with
  | nil => exact absurd rfl nonempty
  | cons c rest ih =>
    rw [takeNat] at h
    split at h
    · rename_i unknown
      cases h
      have outside : c ∉ alphabet := List.idxOf?_eq_none_iff.1 unknown
      rw [defect?, List.find?_cons_of_pos (by simpa using outside)]
    · rename_i d digit
      have inside := mem_alphabet_of_digitValue? digit
      split at h
      · cases h
      · rename_i large
        split at h
        · cases h
        · rename_i own others
          cases h
          by_cases last : rest = []
          · subst last
            cases others
            have goesOn : continues c = true := by simp [continues, digit, Nat.le_of_not_lt large]
            simp [defect?, inside, goesOn]
          · rw [defect?_cons inside (.inl last), ih last others]

/-- A text is decoded to as many numbers as it has digits that end one, or it is refused for its
defect. -/
lemma decodeChars_cases (text : List Char) :
    (∃ values, decodeChars text = .ok values ∧ defect? text = none ∧
      values.length = text.countP ends) ∨
    ∃ fault, decodeChars text = .error fault ∧ defect? text = some fault := by
  fun_induction decodeChars text with
  | case1 => exact .inl ⟨[], rfl, rfl, rfl⟩
  | case2 text nonempty fault taken =>
    exact .inr ⟨fault, rfl, defect?_of_takeNat_error nonempty taken⟩
  | case3 text nonempty n after taken fault later ih =>
    obtain ⟨spelling, rfl, spells⟩ := takeNat_ok taken
    rcases ih with ⟨values, decoded, _⟩ | ⟨own, decoded, defect⟩
    · cases decoded.symm.trans later
    · cases decoded.symm.trans later
      exact .inr ⟨_, rfl, (defect?_append spells after).1.trans defect⟩
  | case4 text nonempty n after taken rest later ih =>
    obtain ⟨spelling, rfl, spells⟩ := takeNat_ok taken
    obtain ⟨same, one⟩ := defect?_append spells after
    rcases ih with ⟨values, decoded, sound, counted⟩ | ⟨own, decoded, _⟩
    · cases decoded.symm.trans later
      refine .inl ⟨_, rfl, same.trans sound, ?_⟩
      rw [List.length_cons, List.countP_append, one, counted, Nat.add_comm]
    · cases decoded.symm.trans later

lemma decodeChars_of_defect? {text : List Char} {fault : Fault} (h : defect? text = some fault) :
    decodeChars text = .error fault := by
  rcases decodeChars_cases text with ⟨_, _, sound, _⟩ | ⟨own, decoded, defect⟩
  · cases sound.symm.trans h
  · cases defect.symm.trans h
    exact decoded

lemma decodeChars_of_sound {text : List Char} (h : defect? text = none) :
    ∃ values, decodeChars text = .ok values ∧ values.length = text.countP ends := by
  rcases decodeChars_cases text with ⟨values, decoded, _, counted⟩ | ⟨_, _, defect⟩
  · exact ⟨values, decoded, counted⟩
  · cases defect.symm.trans h

end WasmSourceMap.Vlq
