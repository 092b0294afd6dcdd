/-!
# Splitting and joining at a separator

`splitOn` cuts a list, of characters or code points, at every separator and keeps the empty pieces;
`joinWith` puts the pieces together again. Main statements: joining undoes splitting, and splitting
undoes joining if no piece holds the separator.
-/

namespace WasmSourceMap.Text

variable {α : Type}

/-- The pieces between the separators; there is one more piece than separators. -/
def splitOn [DecidableEq α] (sep : α) : List α → List (List α)
  | [] => [[]]
  | c :: rest =>
    if c = sep then [] :: splitOn sep rest
    else
      match splitOn sep rest with
      | [] => [[c]]
      | piece :: pieces => (c :: piece) :: pieces

/-- The pieces one after the other with a separator between each two. -/
def joinWith (sep : α) : List (List α) → List α
  | [] => []
  | [piece] => piece
  | piece :: next :: pieces => piece ++ sep :: joinWith sep (next :: pieces)

section

variable [DecidableEq α]

/-- There is always a first piece. -/
theorem splitOn_ne_nil (sep : α) (cs : List α) : splitOn sep cs ≠ [] := by
  cases cs with
  | nil => simp [splitOn]
  | cons c rest =>
    simp only [splitOn]
    split
    · simp
    · split <;> simp

/-- Joining the pieces gives the text back. -/
theorem joinWith_splitOn (sep : α) (cs : List α) : joinWith sep (splitOn sep cs) = cs := by
  induction cs with
  | nil => rfl
  | cons c rest ih =>
    cases e : splitOn sep rest with
    | nil => exact absurd e (splitOn_ne_nil sep rest)
    | cons piece pieces =>
      rw [e] at ih
      by_cases h : c = sep
      · rw [splitOn, if_pos h, e, joinWith, ih, h, List.nil_append]
      · rw [splitOn, if_neg h, e]
        cases pieces with
        | nil => exact congrArg (c :: ·) ih
        | cons next more => exact congrArg (c :: ·) ih

/-- A text without separator is one piece. -/
theorem splitOn_of_not_mem {sep : α} {piece : List α} (h : sep ∉ piece) :
    splitOn sep piece = [piece] := by
  induction piece with
  | nil => rfl
  | cons c rest ih =>
    have hc : c ≠ sep := fun e => h (e ▸ List.mem_cons_self)
    have hrest : sep ∉ rest := fun m => h (List.mem_cons_of_mem c m)
    rw [splitOn, if_neg hc, ih hrest]

/-- The pieces of two texts with a separator between them. -/
theorem splitOn_append_sep (sep : α) (first second : List α) :
    splitOn sep (first ++ sep :: second) = splitOn sep first ++ splitOn sep second := by
  induction first with
  | nil => exact if_pos rfl
  | cons c rest ih =>
    rw [List.cons_append, splitOn, ih, splitOn]
    split
    · rfl
    · cases pieces : splitOn sep rest with
      | nil => exact absurd pieces (splitOn_ne_nil sep rest)
      | cons piece more => rfl

/-- The text before the first separator is the first piece. -/
theorem splitOn_append_cons {sep : α} {piece : List α} (h : sep ∉ piece) (rest : List α) :
    splitOn sep (piece ++ sep :: rest) = piece :: splitOn sep rest := by
  rw [splitOn_append_sep, splitOn_of_not_mem h]
  rfl

/-- What is in a piece is in the text and is not the separator. -/
theorem mem_of_mem_splitOn {sep c : α} {cs piece : List α} (m : piece ∈ splitOn sep cs)
    (h : c ∈ piece) : c ∈ cs ∧ c ≠ sep := by
  induction cs generalizing piece with
  | nil =>
    rw [splitOn, List.mem_singleton] at m
    subst m
    cases h
  | cons d rest ih =>
    rw [splitOn] at m
    split at m
    · rcases List.mem_cons.1 m with rfl | m
      · cases h
      · exact (ih m h).imp_left (List.mem_cons_of_mem d)
    · rename_i other
      split at m
      · rename_i none_
        exact absurd none_ (splitOn_ne_nil sep rest)
      · rename_i first more pieces
        rw [pieces] at ih
        rcases List.mem_cons.1 m with rfl | m
        · rcases List.mem_cons.1 h with rfl | h
          · exact ⟨List.mem_cons_self, other⟩
          · exact (ih List.mem_cons_self h).imp_left (List.mem_cons_of_mem d)
        · exact (ih (List.mem_cons_of_mem first m) h).imp_left (List.mem_cons_of_mem d)

/-- The last piece is the text behind the last separator. -/
theorem getLast?_splitOn (sep : α) (cs : List α) :
    ∃ piece, (splitOn sep cs).getLast? = some piece ∧ sep ∉ piece ∧
      (cs = piece ∨ ∃ front, cs = front ++ sep :: piece) := by
  induction cs with
  | nil => exact ⟨[], rfl, List.not_mem_nil, .inl rfl⟩
  | cons c rest ih =>
    obtain ⟨piece, last, noSep, rfl | ⟨front, rfl⟩⟩ := ih
    · by_cases h : c = sep
      · subst h
        refine ⟨rest, ?_, noSep, .inr ⟨[], rfl⟩⟩
        rw [splitOn, if_pos rfl, List.getLast?_cons, last]
        rfl
      · have none : sep ∉ c :: rest := List.not_mem_cons_of_ne_of_not_mem (Ne.symm h) noSep
        exact ⟨c :: rest, by rw [splitOn_of_not_mem none]; rfl, none, .inl rfl⟩
    · refine ⟨piece, ?_, noSep, .inr ⟨c :: front, rfl⟩⟩
      rw [← List.cons_append, splitOn_append_sep, List.getLast?_append, splitOn_of_not_mem noSep]
      rfl

/-- Splitting gives the joined pieces back if none of them holds the separator. -/
theorem splitOn_joinWith {sep : α} {pieces : List (List α)} (nonempty : pieces ≠ [])
    (h : ∀ piece ∈ pieces, sep ∉ piece) : splitOn sep (joinWith sep pieces) = pieces := by
  induction pieces with
  | nil => exact absurd rfl nonempty
  | cons piece pieces ih =>
    have first : sep ∉ piece := h piece List.mem_cons_self
    cases pieces with
    | nil => exact splitOn_of_not_mem first
    | cons next more =>
      rw [joinWith, splitOn_append_cons first]
      rw [ih (List.cons_ne_nil next more) fun p m => h p (List.mem_cons_of_mem piece m)]

end

/-- What is in joined pieces is in a piece or is the separator. -/
theorem mem_joinWith {sep c : α} {pieces : List (List α)} (h : c ∈ joinWith sep pieces) :
    c = sep ∨ ∃ piece ∈ pieces, c ∈ piece := by
  induction pieces with
  | nil => cases h
  | cons piece pieces ih =>
    cases pieces with
    | nil => exact .inr ⟨piece, List.mem_cons_self, h⟩
    | cons next more =>
      rw [joinWith] at h
      rcases List.mem_append.1 h with h | h
      · exact .inr ⟨piece, List.mem_cons_self, h⟩
      · rcases List.mem_cons.1 h with h | h
        · exact .inl h
        · obtain e | ⟨p, m, hc⟩ := ih h
          · exact .inl e
          · exact .inr ⟨p, List.mem_cons_of_mem piece m, hc⟩

end WasmSourceMap.Text
