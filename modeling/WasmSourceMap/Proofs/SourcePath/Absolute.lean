import WasmSourceMap.Proofs.SourcePath.Joining

/-!
# Absolute paths that are joined

A path that begins at the root keeps its root in normal form, however many parents it goes through.
A drive is a component like others: a parent takes it back, and without a component behind it its
slash is lost (`components_drive`). Main statement: whether a path is absolute that is joined from
an absolute one and others (`isAbsolute_join_iff`).
-/

namespace WasmSourceMap.SourcePath

/-- Components that lead from a drive to something on it. -/
def OnDrive (parts : List (List Char)) : Prop :=
  ∃ letter rest, isLetter letter = true ∧ rest ≠ [] ∧ parts = [letter, ':'] :: rest

/-- Components in normal form that lead from a drive to something on it or on another one. The first
of them is a parent only if it goes up to where the other drive stands. -/
def StaysOnDrive (parts : List (List Char)) : Prop :=
  ∃ first others, parts = first :: others ∧ (first = parent → OnDrive others)

/-- The path of a name in its directories as it is spelled, with forward slashes. -/
def spelled (name : List Char) (directory compilation : Option (List Char)) : List Char :=
  withSlashes
    (if isAbsoluteChars name then name
    else Text.joinWith '/' (leading directory compilation ++ [name]))

section

variable {rooted : Bool} {cs : List Char} {parts : List (List Char)} {letter : Char}

lemma hasDrive_iff :
    hasDrive cs = true ↔
      ∃ letter rest, cs = letter :: ':' :: '/' :: rest ∧ isLetter letter = true := by
  constructor
  · intro drive
    unfold hasDrive at drive
    split at drive
    · exact ⟨_, _, rfl, drive⟩
    · cases drive
  · rintro ⟨letter, rest, rfl, isLetter⟩
    exact isLetter

lemma not_mem_drive (h : isLetter letter = true) : '/' ∉ [letter, ':'] := by
  intro m
  rcases List.mem_cons.1 m with rfl | m
  · exact absurd h (by decide)
  · exact absurd m (by decide)

lemma isName_drive : IsName [letter, ':'] :=
  ⟨List.cons_ne_nil _ _, by simp, by simp [parent]⟩

/-- A path of components is absolute if it has a root or begins with a drive. -/
lemma isAbsoluteChars_ofComponents (proper : ∀ part ∈ parts, part ≠ [] ∧ '/' ∉ part)
    (forward : '\\' ∉ ofComponents rooted parts) :
    isAbsoluteChars (ofComponents rooted parts) = true ↔ rooted = true ∨ OnDrive parts := by
  rw [isAbsoluteChars, withSlashes_of_not_mem forward, isRooted_ofComponents proper]
  cases rooted with
  | true => exact iff_of_true rfl (.inl rfl)
  | false =>
  rw [Bool.false_or, hasDrive_iff, or_iff_right Bool.false_ne_true]
  constructor
  · rintro ⟨letter, rest, e, isLetter⟩
    have given : parts ≠ [] := by
      rintro rfl
      cases e
    have noRoot : ofComponents false parts = Text.joinWith '/' parts := if_neg given
    have whole : letter :: ':' :: '/' :: rest = [letter, ':'] ++ '/' :: rest := rfl
    rw [noRoot, whole] at e
    have pieces := Text.splitOn_joinWith given fun part m => (proper part m).2
    rw [e, Text.splitOn_append_cons (not_mem_drive isLetter)] at pieces
    exact ⟨letter, _, isLetter, Text.splitOn_ne_nil '/' rest, pieces.symm⟩
  · rintro ⟨letter, rest, isLetter, given, rfl⟩
    obtain ⟨next, more, rfl⟩ := List.exists_cons_of_ne_nil given
    exact ⟨letter, _, rfl, isLetter⟩

/-- Behind a drive the settled components of the rest follow. -/
lemma walk_drive (h : isLetter letter = true) (rest : List Char) :
    walk false [] (letter :: ':' :: '/' :: rest) =
      (components false rest).foldl (push false) [[letter, ':']] := by
  have start : Settled false [] := settled_nil
  have drive : walk false [] [letter, ':'] = [[letter, ':']] := by
    unfold walk
    rw [Text.splitOn_of_not_mem (not_mem_drive h)]
    exact push_of_isName isName_drive
  have whole : letter :: ':' :: '/' :: rest = [letter, ':'] ++ '/' :: rest := rfl
  rw [whole, walk_append, drive]
  exact (start.foldl_acts (acts_push false) nofun _).symm

/-- A parent takes the drive back, if it is the first of the components behind it in normal form. -/
lemma components_drive (h : isLetter letter = true) (rest : List Char) :
    components false (letter :: ':' :: '/' :: rest) =
      match components false rest with
      | [] => [[letter, ':']]
      | first :: others => if first = parent then others else [letter, ':'] :: first :: others := by
  have settled : Settled false (components false rest).reverse := by
    rw [components, List.reverse_reverse]
    exact settled_walk false rest
  show (walk false [] (letter :: ':' :: '/' :: rest)).reverse = _
  rw [walk_drive h]
  generalize components false rest = parts at settled ⊢
  obtain ⟨names, ups, e, all, -⟩ := settled.split
  rw [List.reverse_eq_iff, List.reverse_append, List.reverse_replicate] at e
  subst e
  cases ups with
  | zero =>
    rw [List.replicate_zero, List.nil_append, foldl_push_names all, List.reverse_append]
    cases reversed : names.reverse with
    | nil => rfl
    | cons first others =>
      have isName := all first (List.mem_reverse.1 (reversed ▸ List.mem_cons_self))
      exact (if_neg isName.2.2).symm
  | succ ups =>
    -- The first parent takes the drive back, and what follows it stays as it is.
    have others : Settled false (names ++ List.replicate ups parent) := .append_parents all nofun
    have back := others.foldl_reverse
    rw [List.reverse_append, List.reverse_replicate] at back
    rw [List.replicate_succ, List.cons_append, List.foldl_cons,
      push_parent_of_isName isName_drive, back, List.reverse_append, List.reverse_replicate]
    rfl

lemma onDrive_components_drive (h : isLetter letter = true) (rest : List Char) :
    OnDrive (components false (letter :: ':' :: '/' :: rest)) ↔
      StaysOnDrive (components false rest) := by
  rw [components_drive h]
  cases components false rest with
  | nil =>
    refine iff_of_false ?_ ?_
    · rintro ⟨_, _, _, given, e⟩
      exact given (List.cons.inj e).2.symm
    · rintro ⟨_, _, e, _⟩
      cases e
  | cons first others =>
    show OnDrive (if first = parent then others else [letter, ':'] :: first :: others) ↔ _
    by_cases up : first = parent
    · rw [if_pos up]
      constructor
      · exact fun onDrive => ⟨first, others, rfl, fun _ => onDrive⟩
      · rintro ⟨_, _, e, stays⟩
        cases e
        exact stays up
    · rw [if_neg up]
      exact iff_of_true ⟨letter, first :: others, h, List.cons_ne_nil _ _, rfl⟩
        ⟨first, others, rfl, fun e => absurd e up⟩

end

section

variable {cs name : List Char} {directory compilation : Option (List Char)}

lemma withSlashes_withSlashes (cs : List Char) : withSlashes (withSlashes cs) = withSlashes cs :=
  withSlashes_of_not_mem (not_mem_withSlashes cs)

/-- The normal form does not depend on the kind of slash. -/
lemma normalizeChars_withSlashes (cs : List Char) :
    normalizeChars (withSlashes cs) = normalizeChars cs := by
  by_cases empty : cs = []
  · subst empty
    rfl
  · have nonempty : withSlashes cs ≠ [] := mt List.map_eq_nil_iff.1 empty
    rw [normalizeChars_eq nonempty, normalizeChars_eq empty, withSlashes_withSlashes]

lemma joinChars_eq_spelled (name : List Char) (directory compilation : Option (List Char)) :
    joinChars name directory compilation = normalizeChars (spelled name directory compilation) := by
  rw [spelled, normalizeChars_withSlashes]
  unfold joinChars
  split <;> rfl

/-- An absolute path begins with a slash or with a drive. -/
lemma isAbsoluteChars_iff (forward : withSlashes cs = cs) :
    isAbsoluteChars cs = true ↔ isRooted cs = true ∨
      ∃ letter rest, cs = letter :: ':' :: '/' :: rest ∧ isLetter letter = true := by
  rw [isAbsoluteChars, forward, Bool.or_eq_true, hasDrive_iff]

/-- What follows an absolute path leaves it absolute. -/
lemma isAbsoluteChars_append (absolute : isAbsoluteChars cs = true) (rest : List Char) :
    isAbsoluteChars (cs ++ rest) = true := by
  unfold isAbsoluteChars at absolute ⊢
  rw [Bool.or_eq_true] at absolute ⊢
  have apart : withSlashes (cs ++ rest) = withSlashes cs ++ withSlashes rest := List.map_append
  rw [apart]
  refine absolute.imp (fun root => ?_) fun drive => ?_
  · rw [isRooted_iff] at root ⊢
    rw [List.head?_append, root]
    rfl
  · obtain ⟨letter, more, e, isLetter⟩ := hasDrive_iff.1 drive
    exact hasDrive_iff.2 ⟨letter, more ++ withSlashes rest, by rw [e]; rfl, isLetter⟩

lemma ne_nil_of_isAbsoluteChars (absolute : isAbsoluteChars cs = true) : cs ≠ [] := by
  rintro rfl
  cases absolute

/-- An absolute directory comes first, and so does that of the compilation in front of no directory
or a relative one. -/
lemma leading_absolute
    (h : (∃ path ∈ directory, isAbsoluteChars path = true) ∨
      (∀ path ∈ directory, isAbsoluteChars path = false) ∧
        ∃ path ∈ compilation, isAbsoluteChars path = true) :
    ∃ first others,
      leading directory compilation = first :: others ∧ isAbsoluteChars first = true := by
  rcases h with ⟨path, rfl, absolute⟩ | ⟨relative, path, rfl, absolute⟩
  · have nonempty := ne_nil_of_isAbsoluteChars absolute
    refine ⟨path, [], ?_, absolute⟩
    obtain ⟨c, more, rfl⟩ := List.exists_cons_of_ne_nil nonempty
    cases compilation with
    | none => rfl
    | some base =>
      cases base with
      | nil => rfl
      | cons b rest => exact if_pos absolute
  · exact ⟨path, _, leading_eq (ne_nil_of_isAbsoluteChars absolute) relative, absolute⟩

/-- A path that begins with an absolute one is absolute as it is spelled. -/
lemma isAbsoluteChars_spelled
    (h : isAbsoluteChars name = true ∨ (∃ path ∈ directory, isAbsoluteChars path = true) ∨
      (∀ path ∈ directory, isAbsoluteChars path = false) ∧
        ∃ path ∈ compilation, isAbsoluteChars path = true) :
    isAbsoluteChars (spelled name directory compilation) = true := by
  have slashes : ∀ cs, isAbsoluteChars (withSlashes cs) = isAbsoluteChars cs := by
    intro cs
    unfold isAbsoluteChars
    rw [withSlashes_withSlashes]
  rw [spelled, slashes]
  by_cases alone : isAbsoluteChars name = true
  · rw [if_pos alone]
    exact alone
  · obtain ⟨first, others, e, absolute⟩ := leading_absolute (h.resolve_left alone)
    obtain ⟨next, more, e'⟩ : ∃ next more, others ++ [name] = next :: more :=
      List.exists_cons_of_ne_nil (List.append_ne_nil_of_right_ne_nil _ (List.cons_ne_nil _ _))
    rw [if_neg alone, e, List.cons_append, e', Text.joinWith]
    exact isAbsoluteChars_append absolute _

/-- An absolute path is absolute in normal form if it begins at the root or stays on a drive. -/
lemma isAbsoluteChars_normalizeChars (forward : withSlashes cs = cs)
    (absolute : isAbsoluteChars cs = true) :
    isAbsoluteChars (normalizeChars cs) = true ↔
      isRooted cs = true ∨ ∃ letter rest,
        cs = letter :: ':' :: '/' :: rest ∧ StaysOnDrive (components false rest) := by
  have nonempty := ne_nil_of_isAbsoluteChars absolute
  have noBackslash := not_mem_normalizeChars cs
  rw [normalizeChars_eq nonempty, forward] at noBackslash ⊢
  rw [isAbsoluteChars_ofComponents (fun part m => proper_of_mem_walk m) noBackslash]
  by_cases root : isRooted cs = true
  · exact iff_of_true (.inl root) (.inl root)
  rw [or_iff_right root, or_iff_right root, Bool.eq_false_iff.2 root]
  obtain ⟨letter, rest, rfl, isLetter⟩ :=
    ((isAbsoluteChars_iff forward).1 absolute).resolve_left root
  show OnDrive (components false (letter :: ':' :: '/' :: rest)) ↔ _
  rw [onDrive_components_drive isLetter]
  constructor
  · exact fun stays => ⟨letter, rest, rfl, stays⟩
  · rintro ⟨_, _, e, stays⟩
    cases e
    exact stays

end

/-- A path that begins with an absolute one is absolute if that begins at the root. If it begins
with a drive, it is absolute only if it leads to something on the drive, or goes up from it to
something on another one. -/
theorem isAbsolute_join_iff {name : String} {directory compilation : Option String}
    (h : isAbsolute name = true ∨ (∃ path ∈ directory, isAbsolute path = true) ∨
      (∀ path ∈ directory, isAbsolute path = false) ∧
        ∃ path ∈ compilation, isAbsolute path = true) :
    let path := spelled name.toList (directory.map String.toList) (compilation.map String.toList)
    isAbsolute (join name directory compilation) = true ↔
      isRooted path = true ∨ ∃ letter rest,
        path = letter :: ':' :: '/' :: rest ∧ StaysOnDrive (components false rest) := by
  intro path
  have absolute : isAbsoluteChars path = true := by
    refine isAbsoluteChars_spelled (h.imp_right (Or.imp ?_ ?_))
    · rintro ⟨own, rfl, absolute⟩
      exact ⟨_, rfl, absolute⟩
    · rintro ⟨relative, own, rfl, absolute⟩
      refine ⟨?_, _, rfl, absolute⟩
      cases directory with
      | none => nofun
      | some listed =>
        rintro _ ⟨⟩
        exact relative listed rfl
  have forward : withSlashes path = path := withSlashes_withSlashes _
  rw [← isAbsoluteChars_normalizeChars forward absolute]
  unfold isAbsolute join
  rw [String.toList_ofList, joinChars_eq_spelled]

/-- The drive of the compilation stays in front of a name that goes up from its directory. -/
theorem isAbsolute_join_drive :
    isAbsolute "D:\\work\\" = true ∧
      isAbsolute (join "../main.c" (some "src") (some "D:\\work\\")) = true := by
  have base : isAbsolute "D:\\work\\" = true := by decide
  have relative : ∀ path ∈ some "src", isAbsolute path = false := by
    rintro _ ⟨⟩
    decide
  refine ⟨base, (isAbsolute_join_iff (.inr (.inr ⟨relative, _, rfl, base⟩))).2 (.inr ?_)⟩
  exact ⟨'D', "work//src/../main.c".toList, by decide, _, _, rfl, fun up => absurd up (by decide)⟩

/-- A parent takes a drive back, so that an absolute name is relative afterwards. -/
theorem join_aboveDrive :
    isAbsolute "C:/../a.c" = true ∧ join "C:/../a.c" none none = "a.c" ∧
      isAbsolute (join "C:/../a.c" none none) = false := by
  decide

end WasmSourceMap.SourcePath
