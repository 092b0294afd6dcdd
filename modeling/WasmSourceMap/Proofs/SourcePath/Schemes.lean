import WasmSourceMap.Proofs.SourcePath.Joining

/-!
# Addresses with a scheme

An address has two slashes behind the colon of its scheme, by which it is told from a path in a
library: taking the library off a path keeps an address (`stripLibraryChars_colon`). A joined path
is in normal form, where the two slashes are one (`normalizeChars_address`), so that its scheme is
taken off as if it were a library. Main statement: whether it is the name of a file or the directory
of a compilation, an address loses its scheme and becomes a path from the root
(`stripLibrary_join_address`).
-/

namespace WasmSourceMap.SourcePath

/-- No component of a path goes to the parent or stays where it is. -/
def IsPlain (cs : List Char) : Prop :=
  ∀ part ∈ Text.splitOn '/' (withSlashes cs), part ≠ ['.'] ∧ part ≠ parent

/-- The components of a path that are not empty. -/
def names (cs : List Char) : List (List Char) :=
  (Text.splitOn '/' (withSlashes cs)).filter (· ≠ [])

/-- The name of a scheme, and what can follow its colon and two slashes. -/
structure IsAddress (scheme rest : List Char) : Prop where
  long : 2 ≤ scheme.length
  letters : ∀ c ∈ scheme, isLibraryChar c = true
  nonempty : rest ≠ []
  forward : '\\' ∉ rest
  unrooted : rest.head? ≠ some '/'
  plain : IsPlain rest

section

variable {rooted : Bool} {before : List (List Char)} {cs first second : List Char}

lemma foldl_push_plain {parts : List (List Char)}
    (plain : ∀ part ∈ parts, part ≠ ['.'] ∧ part ≠ parent) :
    parts.foldl (push rooted) before = (parts.filter (· ≠ [])).reverse ++ before := by
  induction parts generalizing before with
  | nil => rfl
  | cons part rest ih =>
    obtain ⟨⟨notDot, notParent⟩, others⟩ := List.forall_mem_cons.1 plain
    rw [List.foldl_cons, ih others]
    by_cases empty : part = []
    · rw [push_of_idle (.inl empty), List.filter_cons_of_neg (by simp [empty])]
    · rw [push_of_isName ⟨empty, notDot, notParent⟩, List.filter_cons_of_pos (by simp [empty]),
        List.reverse_cons, List.append_assoc, List.singleton_append]

/-- A plain path keeps its components in normal form, but for the empty ones. -/
lemma normalizeChars_plain (nonempty : cs ≠ []) (unrooted : isRooted (withSlashes cs) = false)
    (plain : IsPlain cs) : normalizeChars cs = ofComponents false (names cs) := by
  have walked : walk false [] (withSlashes cs) = (names cs).reverse := by
    rw [walk, foldl_push_plain plain, List.append_nil]
    rfl
  rw [normalizeChars_eq nonempty, unrooted, walked, List.reverse_reverse]

lemma IsPlain.append (plain : IsPlain first) (plain' : IsPlain second) :
    IsPlain (first ++ '/' :: second) := by
  unfold IsPlain
  rw [withSlashes_append, Text.splitOn_append_sep]
  exact List.forall_mem_append.2 ⟨plain, plain'⟩

lemma names_append (first second : List Char) :
    names (first ++ '/' :: second) = names first ++ names second := by
  unfold names
  rw [withSlashes_append, Text.splitOn_append_sep, List.filter_append]

lemma proper_of_mem_names {part : List Char} (m : part ∈ names cs) : part ≠ [] ∧ '/' ∉ part := by
  obtain ⟨m, nonempty⟩ := List.mem_filter.1 m
  exact ⟨of_decide_eq_true nonempty, fun slash => (Text.mem_of_mem_splitOn m slash).2 rfl⟩

/-- Two slashes do not come one after the other where a path of names begins. -/
lemma not_isPrefixOf_joinWith {parts : List (List Char)} (given : parts ≠ [])
    (proper : ∀ part ∈ parts, part ≠ [] ∧ '/' ∉ part) :
    ¬ ['/', '/'].isPrefixOf ('/' :: Text.joinWith '/' parts) := by
  obtain ⟨part, rest, rfl⟩ := List.exists_cons_of_ne_nil given
  obtain ⟨nonempty, noSlash⟩ := proper part List.mem_cons_self
  obtain ⟨c, more, rfl⟩ := List.exists_cons_of_ne_nil nonempty
  have other : '/' ≠ c := fun e => noSlash (e ▸ List.mem_cons_self)
  cases rest <;> simp [Text.joinWith, List.isPrefixOf, other]

end

section

variable {scheme rest : List Char}

lemma not_mem_of_letters (letters : ∀ c ∈ scheme, isLibraryChar c = true) {c : Char}
    (h : isLibraryChar c = false) : c ∉ scheme := by
  intro m
  rw [letters c m] at h
  cases h

/-- What is in front of a colon is taken off as a library, unless two slashes follow. -/
lemma stripLibraryChars_colon (long : 2 ≤ scheme.length)
    (letters : ∀ c ∈ scheme, isLibraryChar c = true) (rest : List Char) :
    stripLibraryChars (scheme ++ ':' :: rest) =
      if ['/', '/'].isPrefixOf rest then scheme ++ ':' :: rest else rest := by
  have front : (scheme ++ ':' :: rest).takeWhile isLibraryChar = scheme := by
    rw [List.takeWhile_append_of_pos letters, List.takeWhile_cons_of_neg (by decide),
      List.append_nil]
  have after : (scheme ++ ':' :: rest).dropWhile isLibraryChar = ':' :: rest := by
    rw [List.dropWhile_append_of_pos letters, List.dropWhile_cons_of_neg (by decide)]
  unfold stripLibraryChars
  rw [front, after]
  by_cases slashes : ['/', '/'].isPrefixOf rest
  · simp [slashes]
  · simp [slashes, long]

/-- A scheme with its colon is one component. -/
lemma splitOn_scheme (letters : ∀ c ∈ scheme, isLibraryChar c = true) :
    Text.splitOn '/' (withSlashes (scheme ++ [':'])) = [scheme ++ [':']] := by
  have free : ∀ c, isLibraryChar c = false → c ≠ ':' → c ∉ scheme ++ [':'] := by
    intro c none other m
    rcases List.mem_append.1 m with m | m
    · exact not_mem_of_letters letters none m
    · exact other (List.mem_singleton.1 m)
  rw [withSlashes_of_not_mem (free _ (by decide) (by decide)),
    Text.splitOn_of_not_mem (free _ (by decide) (by decide))]

lemma isPlain_scheme (letters : ∀ c ∈ scheme, isLibraryChar c = true) :
    IsPlain (scheme ++ [':']) := by
  have other : ∀ part : List Char, ':' ∉ part → scheme ++ [':'] ≠ part := fun part noColon e =>
    noColon (e ▸ List.mem_append_right scheme List.mem_cons_self)
  intro part m
  rw [splitOn_scheme letters] at m
  rw [List.mem_singleton.1 m]
  exact ⟨other _ (by decide), other _ (by decide)⟩

lemma names_scheme (letters : ∀ c ∈ scheme, isLibraryChar c = true) :
    names (scheme ++ [':']) = [scheme ++ [':']] := by
  unfold names
  rw [splitOn_scheme letters]
  exact List.filter_cons_of_pos (by simp)

/-- An address does not begin with a slash or with a drive, whose name is one letter. -/
lemma isAbsoluteChars_scheme (long : 2 ≤ scheme.length)
    (letters : ∀ c ∈ scheme, isLibraryChar c = true) (rest : List Char) :
    isAbsoluteChars (scheme ++ rest) = false := by
  match scheme, long with
  | c :: d :: more, _ =>
    have other : ∀ x, isLibraryChar x = false → c ≠ x ∧ d ≠ x := fun x none =>
      ⟨fun e => not_mem_of_letters letters none (e ▸ List.mem_cons_self),
        fun e => not_mem_of_letters letters none (e ▸ List.mem_cons_of_mem c List.mem_cons_self)⟩
    obtain ⟨c₁, d₁⟩ := other '\\' (by decide)
    obtain ⟨c₂, _⟩ := other '/' (by decide)
    obtain ⟨_, d₃⟩ := other ':' (by decide)
    have slashes : withSlashes (c :: d :: more ++ rest) = c :: d :: withSlashes (more ++ rest) := by
      simp [withSlashes, c₁, d₁]
    unfold isAbsoluteChars
    rw [slashes, isRooted.eq_2 _ fun _ e => c₂ (List.cons.inj e).1,
      hasDrive.eq_2 _ fun _ _ e => d₃ (List.cons.inj (List.cons.inj e).2).1]
    rfl

/-- In normal form one slash follows the colon of a scheme. -/
lemma normalizeChars_address (long : 2 ≤ scheme.length)
    (letters : ∀ c ∈ scheme, isLibraryChar c = true) (plain : IsPlain rest)
    (given : names rest ≠ []) :
    normalizeChars (scheme ++ ':' :: '/' :: '/' :: rest) =
      scheme ++ ':' :: '/' :: Text.joinWith '/' (names rest) := by
  have apart : scheme ++ ':' :: '/' :: '/' :: rest = (scheme ++ [':']) ++ '/' :: ([] ++ '/' :: rest) :=
    by simp
  have nothing : IsPlain [] := by
    intro part m
    rw [List.mem_singleton.1 m]
    decide
  have whole : IsPlain (scheme ++ ':' :: '/' :: '/' :: rest) := by
    rw [apart]
    exact (isPlain_scheme letters).append (nothing.append plain)
  have parts : names (scheme ++ ':' :: '/' :: '/' :: rest) = (scheme ++ [':']) :: names rest := by
    rw [apart, names_append, names_append, names_scheme letters]
    rfl
  have unrooted := (Bool.or_eq_false_iff.1
    (isAbsoluteChars_scheme long letters (':' :: '/' :: '/' :: rest))).1
  rw [normalizeChars_plain (by simp) unrooted whole, parts]
  obtain ⟨part, others, e⟩ := List.exists_cons_of_ne_nil given
  rw [e]
  exact List.append_assoc scheme [':'] _

/-- What follows the two slashes of an address has a name. -/
lemma IsAddress.names_ne_nil (h : IsAddress scheme rest) : names rest ≠ [] := by
  obtain ⟨c, more, rfl⟩ := List.exists_cons_of_ne_nil h.nonempty
  have other : c ≠ '/' := fun e => h.unrooted (congrArg some e)
  have first : ∃ part parts, Text.splitOn '/' (c :: more) = (c :: part) :: parts := by
    rw [Text.splitOn, if_neg other]
    split <;> exact ⟨_, _, rfl⟩
  obtain ⟨part, parts, e⟩ := first
  unfold names
  rw [withSlashes_of_not_mem h.forward, e, List.filter_cons_of_pos (by simp)]
  exact List.cons_ne_nil _ _

/-- An address in normal form loses its scheme. -/
lemma stripLibraryChars_normalizeChars (long : 2 ≤ scheme.length)
    (letters : ∀ c ∈ scheme, isLibraryChar c = true) (plain : IsPlain rest)
    (given : names rest ≠ []) :
    stripLibraryChars (normalizeChars (scheme ++ ':' :: '/' :: '/' :: rest)) =
      '/' :: Text.joinWith '/' (names rest) := by
  rw [normalizeChars_address long letters plain given, stripLibraryChars_colon long letters,
    if_neg (not_isPrefixOf_joinWith given fun _ m => proper_of_mem_names m)]

end

section

variable {first : List Char} {others : List (List Char)}

/-- What is in front of the first of some paths is in front of all. -/
lemma joinWith_append (front first : List Char) (others : List (List Char)) :
    Text.joinWith '/' ((front ++ first) :: others) = front ++ Text.joinWith '/' (first :: others) := by
  cases others with
  | nil => rfl
  | cons next rest => exact List.append_assoc front first _

lemma isPlain_joinWith (plain : ∀ path ∈ first :: others, IsPlain path) :
    IsPlain (Text.joinWith '/' (first :: others)) := by
  induction others generalizing first with
  | nil => exact plain first List.mem_cons_self
  | cons next rest ih =>
    obtain ⟨here, later⟩ := List.forall_mem_cons.1 plain
    exact here.append (ih later)

lemma names_joinWith (first : List Char) (others : List (List Char)) :
    names (Text.joinWith '/' (first :: others)) = (first :: others).flatMap names := by
  induction others generalizing first with
  | nil => exact (List.append_nil _).symm
  | cons next rest ih =>
    rw [Text.joinWith, names_append, ih]
    rfl

end

/-- The path from the root through the names of some paths. -/
def fromRoot (paths : List (List Char)) : List Char :=
  '/' :: Text.joinWith '/' (paths.flatMap names)

section

variable {scheme rest name : List Char} {directory : Option (List Char)}

/-- An address with paths below it, in normal form, loses its scheme. -/
lemma IsAddress.strip_below (h : IsAddress scheme rest) {others : List (List Char)}
    (plain : ∀ path ∈ others, IsPlain path) :
    stripLibraryChars (normalizeChars
        (Text.joinWith '/' ((scheme ++ ':' :: '/' :: '/' :: rest) :: others))) =
      fromRoot (rest :: others) := by
  have apart : scheme ++ ':' :: '/' :: '/' :: rest = (scheme ++ [':', '/', '/']) ++ rest := by simp
  have below : Text.joinWith '/' ((scheme ++ ':' :: '/' :: '/' :: rest) :: others) =
      scheme ++ ':' :: '/' :: '/' :: Text.joinWith '/' (rest :: others) := by
    rw [apart, joinWith_append, List.append_assoc]
    rfl
  have all := isPlain_joinWith (List.forall_mem_cons.2 ⟨h.plain, plain⟩)
  have given : names (Text.joinWith '/' (rest :: others)) ≠ [] := by
    rw [names_joinWith]
    exact List.append_ne_nil_of_left_ne_nil h.names_ne_nil _
  rw [below, stripLibraryChars_normalizeChars h.long h.letters all given, names_joinWith]
  rfl

/-- An address as the name of a file, with no directory. -/
lemma IsAddress.strip_name (h : IsAddress scheme rest) :
    stripLibraryChars (joinChars (scheme ++ ':' :: '/' :: '/' :: rest) none none) =
      fromRoot [rest] := by
  rw [joinChars_relative (isAbsoluteChars_scheme h.long h.letters _)]
  exact h.strip_below (List.forall_mem_nil IsPlain)

lemma flatMap_names_given (directory : Option (List Char)) :
    (given directory).toList.flatMap names = directory.toList.flatMap names := by
  cases directory with
  | none => rfl
  | some path => cases path <;> rfl

/-- An address as the directory of a compilation. -/
lemma IsAddress.strip_compilation (h : IsAddress scheme rest)
    (relative : ∀ path ∈ name :: directory.toList, isAbsoluteChars path = false)
    (plain : ∀ path ∈ name :: directory.toList, IsPlain path) :
    stripLibraryChars (joinChars name directory (some (scheme ++ ':' :: '/' :: '/' :: rest))) =
      fromRoot (rest :: directory.toList ++ [name]) := by
  obtain ⟨relativeName, relativeDirectory⟩ := List.forall_mem_cons.1 relative
  obtain ⟨plainName, plainDirectory⟩ := List.forall_mem_cons.1 plain
  have below : ∀ path ∈ (given directory).toList ++ [name], IsPlain path := by
    have listed : ∀ path ∈ (given directory).toList, path ∈ directory.toList := by
      cases directory with
      | none => exact fun _ m => m
      | some path => cases path <;> simp [given]
    refine List.forall_mem_append.2 ⟨fun path m => plainDirectory path (listed path m), ?_⟩
    exact List.forall_mem_singleton.2 plainName
  have nonempty : scheme ++ ':' :: '/' :: '/' :: rest ≠ [] := by simp
  have front := leading_eq nonempty fun path m => relativeDirectory path (Option.mem_toList.2 m)
  rw [joinChars_relative relativeName, front, List.cons_append, h.strip_below below]
  unfold fromRoot
  simp only [List.cons_append, List.flatMap_cons, List.flatMap_append, flatMap_names_given]

/-- A path from the root does not begin with a scheme. -/
lemma IsAddress.not_isPrefix_fromRoot (h : IsAddress scheme rest) (paths : List (List Char)) :
    ¬ scheme ++ [':'] <+: fromRoot paths := by
  obtain ⟨c, more, e⟩ : ∃ c more, scheme = c :: more := by
    refine List.exists_cons_of_ne_nil fun e => ?_
    have long := h.long
    rw [e] at long
    exact absurd long (by decide)
  intro front
  rw [e] at front
  have slash : c = '/' := (List.cons_prefix_cons.1 front).1
  have letter := h.letters c (e ▸ List.mem_cons_self)
  rw [slash] at letter
  exact absurd letter (by decide)

end

/-- Taking the library off an address by itself keeps it. But joined with directories, or as the
directory of a compilation, an address loses its scheme: what is left is the path from the root
through all its names, which does not begin with the scheme. -/
theorem stripLibrary_join_address {scheme rest : String}
    (h : IsAddress scheme.toList rest.toList) :
    let address := scheme ++ "://" ++ rest
    stripLibrary address = address ∧
    stripLibrary (join address none none) = String.ofList (fromRoot [rest.toList]) ∧
    (∀ (name : String) (directory : Option String),
      (∀ path ∈ name :: directory.toList, isAbsolute path = false ∧ IsPlain path.toList) →
      stripLibrary (join name directory (some address)) =
        String.ofList (fromRoot ((rest :: directory.toList ++ [name]).map String.toList))) ∧
    ∀ paths, ¬ (scheme ++ ":").toList <+: (String.ofList (fromRoot paths)).toList := by
  intro address
  have chars : address.toList = scheme.toList ++ ':' :: '/' :: '/' :: rest.toList := by
    show (scheme ++ "://" ++ rest).toList = _
    rw [String.toList_append, String.toList_append, List.append_assoc]
    rfl
  refine ⟨?_, ?_, fun name directory each => ?_, fun paths => ?_⟩
  · unfold stripLibrary
    have kept := stripLibraryChars_colon h.long h.letters ('/' :: '/' :: rest.toList)
    rw [if_pos (show ['/', '/'].isPrefixOf ('/' :: '/' :: rest.toList) = true from rfl),
      ← chars] at kept
    rw [kept, String.ofList_toList]
  · unfold stripLibrary join
    rw [String.toList_ofList, chars]
    exact congrArg String.ofList h.strip_name
  · have all : ∀ path ∈ name.toList :: (directory.map String.toList).toList,
        isAbsoluteChars path = false ∧ IsPlain path := by
      rw [Option.toList_map, ← List.map_cons, List.forall_mem_map]
      exact each
    unfold stripLibrary join
    rw [String.toList_ofList, Option.map_some, chars,
      h.strip_compilation (fun path m => (all path m).1) fun path m => (all path m).2,
      Option.toList_map]
    simp only [List.map_append, List.map_cons, List.map_nil]
  · rw [String.toList_append, String.toList_ofList (l := fromRoot paths)]
    exact h.not_isPrefix_fromRoot paths

/-- A file below an address that is the directory of the compilation. -/
theorem stripLibrary_join_https :
    IsAddress "https".toList "example.com/src".toList ∧
      (∀ path ∈ ["a.rs", "lib"], isAbsolute path = false ∧ IsPlain path.toList) ∧
      stripLibrary (join "a.rs" (some "lib") (some "https://example.com/src")) =
        "/example.com/src/lib/a.rs" := by
  have letters : "https".toList.all isLibraryChar = true := by decide
  have h : IsAddress "https".toList "example.com/src".toList :=
    ⟨by decide, List.all_eq_true.1 letters, by decide, by decide, by decide, by unfold IsPlain; decide⟩
  have each : ∀ path ∈ ["a.rs", "lib"], isAbsolute path = false ∧ IsPlain path.toList := by
    unfold IsPlain
    decide
  exact ⟨h, each, (stripLibrary_join_address h).2.2.1 "a.rs" (some "lib") each⟩

/-- An address that is the name of a file does not keep its scheme. -/
theorem stripLibrary_join_url :
    stripLibrary (join "https://example.com/a.rs" none none) = "/example.com/a.rs" ∧
      ¬ "https:".toList <+: (stripLibrary (join "https://example.com/a.rs" none none)).toList := by
  decide

end WasmSourceMap.SourcePath
