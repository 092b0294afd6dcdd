import WasmSourceMap.Proofs.SourcePath.Joining

/-!
# Other spellings of joined paths

Paths that are joined can be brought to normal form before or after: the normal form of the whole is
the same (`normalizeChars_joinWith`). The parents at the front of a relative path take back
components of the paths in front of it, stay at the front of a path without root, or vanish at the
root, and it makes no difference when they do so, since components do what their settled form does.
Main statement: a joined path does not depend on how its parts are spelled (`join_respelled`).
-/

namespace WasmSourceMap.SourcePath

/-- Go through the components of some paths, one path after the other. -/
def walkAll (rooted : Bool) (before : List (List Char)) (paths : List (List Char)) :
    List (List Char) :=
  paths.foldl (fun before path => walk rooted before (withSlashes path)) before

section

variable {rooted : Bool} {before : List (List Char)} {first : List Char} {others : List (List Char)}

lemma walk_joinWith (before : List (List Char)) (first : List Char) (others : List (List Char)) :
    walk rooted before (withSlashes (Text.joinWith '/' (first :: others))) =
      walkAll rooted before (first :: others) := by
  induction others generalizing before first with
  | nil => rfl
  | cons next rest ih =>
    rw [Text.joinWith, withSlashes_append, walk_append, ih]
    rfl

/-- Joined paths begin at the root if the first of them does. -/
lemma isRooted_joinWith (nonempty : first ≠ []) (others : List (List Char)) :
    isRooted (withSlashes (Text.joinWith '/' (first :: others))) =
      isRooted (withSlashes first) := by
  cases others with
  | nil => rfl
  | cons next rest =>
    rw [Text.joinWith, withSlashes_append]
    exact isRooted_append (mt List.map_eq_nil_iff.1 nonempty) _

lemma joinWith_ne_nil (nonempty : first ≠ []) (others : List (List Char)) :
    Text.joinWith '/' (first :: others) ≠ [] := by
  cases others with
  | nil => exact nonempty
  | cons next rest => exact List.append_ne_nil_of_left_ne_nil nonempty _

/-- Behind other components, relative paths lead where their normal forms lead. -/
lemma walkAll_normalizeChars (unrooted : ∀ path ∈ others, isRooted (withSlashes path) = false) :
    walkAll rooted before (others.map normalizeChars) = walkAll rooted before others := by
  induction others generalizing before with
  | nil => rfl
  | cons path rest ih =>
    obtain ⟨here, later⟩ := List.forall_mem_cons.1 unrooted
    have noRoot : ¬isRooted (withSlashes path) = true := Bool.eq_false_iff.1 here
    have same : walk rooted before (normalizeChars path) = walk rooted before (withSlashes path) :=
      (acts_push rooted).foldl_normalizeChars fun root => absurd root noRoot
    show walkAll rooted (walk rooted before (withSlashes (normalizeChars path))) _ =
      walkAll rooted (walk rooted before (withSlashes path)) rest
    rw [withSlashes_normalizeChars, same, ih later]

/-- Joined paths can be brought to normal form one by one first. -/
lemma normalizeChars_joinWith (nonempty : first ≠ [])
    (unrooted : ∀ path ∈ others, isRooted (withSlashes path) = false) :
    normalizeChars (Text.joinWith '/' (first :: others)) =
      normalizeChars (Text.joinWith '/' ((first :: others).map normalizeChars)) := by
  have nonempty' : normalizeChars first ≠ [] := mt normalizeChars_eq_nil_iff.1 nonempty
  have start : walk (isRooted (withSlashes first)) [] (normalizeChars first) =
      walk (isRooted (withSlashes first)) [] (withSlashes first) :=
    (acts_push _).foldl_normalizeChars fun root => root ▸ rfl
  rw [List.map_cons, normalizeChars_eq (joinWith_ne_nil nonempty _),
    normalizeChars_eq (joinWith_ne_nil nonempty' _), isRooted_joinWith nonempty,
    isRooted_joinWith nonempty', withSlashes_normalizeChars, isRooted_normalizeChars, walk_joinWith,
    walk_joinWith]
  congr 2
  show walkAll _ (walk _ [] (withSlashes first)) others =
    walkAll _ (walk _ [] (withSlashes (normalizeChars first))) _
  rw [withSlashes_normalizeChars, start, walkAll_normalizeChars unrooted]

end

section

variable {name base : List Char} {directory : Option (List Char)}

lemma map_given (directory : Option (List Char)) :
    (given directory).map normalizeChars = given (directory.map normalizeChars) := by
  cases directory with
  | none => rfl
  | some path =>
    by_cases empty : path = []
    · subst empty
      rfl
    · obtain ⟨c, more, rfl⟩ := List.exists_cons_of_ne_nil empty
      obtain ⟨d, rest, e⟩ := List.exists_cons_of_ne_nil (mt normalizeChars_eq_nil_iff.1 empty)
      show some (normalizeChars (c :: more)) = given (some (normalizeChars (c :: more)))
      rw [e]
      rfl

lemma mem_of_mem_given {path : List Char} (m : path ∈ given directory) : path ∈ directory := by
  cases directory with
  | none => exact m
  | some own =>
    cases own with
    | nil => cases m
    | cons c more => exact m

/-- A path below the directory of a compilation is that of the normal forms of its parts. -/
lemma joinChars_normalized (nonempty : base ≠ []) (relativeName : isAbsoluteChars name = false)
    (relativeDirectory : ∀ path ∈ directory, isAbsoluteChars path = false) :
    joinChars name directory (some base) =
      normalizeChars (Text.joinWith '/' (normalizeChars base ::
        ((given (directory.map normalizeChars)).toList ++ [normalizeChars name]))) := by
  have unrooted : ∀ path ∈ (given directory).toList ++ [name],
      isRooted (withSlashes path) = false := by
    intro path m
    rcases List.mem_append.1 m with m | m
    · have listed := mem_of_mem_given (Option.mem_toList.1 m)
      exact (Bool.or_eq_false_iff.1 (relativeDirectory path listed)).1
    · rw [List.mem_singleton.1 m]
      exact (Bool.or_eq_false_iff.1 relativeName).1
  rw [joinChars_relative relativeName, leading_eq nonempty relativeDirectory, List.cons_append,
    normalizeChars_joinWith nonempty unrooted, List.map_cons, List.map_append, ← Option.toList_map,
    map_given, List.map_singleton]

end

/-- Two spellings of one relative path. -/
structure Respells (path other : String) : Prop where
  relative : isAbsolute path = false
  relative' : isAbsolute other = false
  same : normalize path = normalize other

section

variable {directory directory' : Option String}

/-- Directories that are spelled in two ways are relative and have the same normal form. -/
lemma chars_of_respells (h : Option.Rel Respells directory directory') :
    (∀ path ∈ directory.map String.toList, isAbsoluteChars path = false) ∧
      (∀ path ∈ directory'.map String.toList, isAbsoluteChars path = false) ∧
      (directory.map String.toList).map normalizeChars =
        (directory'.map String.toList).map normalizeChars := by
  cases h with
  | none => exact ⟨nofun, nofun, rfl⟩
  | some respells =>
    refine ⟨?_, ?_, congrArg some (String.ofList_inj.1 respells.same)⟩
    · rintro _ ⟨⟩
      exact respells.relative
    · rintro _ ⟨⟩
      exact respells.relative'

lemma join_of_respells {name name' compilation compilation' : String} (names : Respells name name')
    (directories : Option.Rel Respells directory directory') (nonempty : compilation ≠ "")
    (same : normalize compilation = normalize compilation') :
    join name directory (some compilation) = join name' directory' (some compilation') := by
  have sameBase := String.ofList_inj.1 same
  have sameName := String.ofList_inj.1 names.same
  obtain ⟨relative, relative', sameDirectory⟩ := chars_of_respells directories
  have given : compilation.toList ≠ [] := mt String.toList_eq_nil_iff.1 nonempty
  have given' : compilation'.toList ≠ [] := by
    rwa [Ne, ← normalizeChars_eq_nil_iff, ← sameBase, normalizeChars_eq_nil_iff]
  unfold join
  rw [Option.map_some, Option.map_some, joinChars_normalized given names.relative relative,
    joinChars_normalized given' names.relative' relative', sameBase, sameName, sameDirectory]

end

lemma normalize_append {first second : String} (nonempty : first ≠ "")
    (noSlash : second.toList.head? ≠ some '/') (noBackslash : second.toList.head? ≠ some '\\') :
    normalize (first ++ "/" ++ second) =
      normalize (normalize first ++ "/" ++ normalize second) := by
  have joined : ∀ first second : String, (first ++ "/" ++ second).toList =
      Text.joinWith '/' [first.toList, second.toList] := by
    intro first second
    rw [String.toList_append, String.toList_append, List.append_assoc]
    rfl
  have unrooted : ∀ path ∈ [second.toList], isRooted (withSlashes path) = false := by
    refine List.forall_mem_singleton.2 (Bool.eq_false_iff.2 fun root => ?_)
    exact (isRooted_withSlashes_iff.1 root).elim noSlash noBackslash
  have given : first.toList ≠ [] := mt String.toList_eq_nil_iff.1 nonempty
  unfold normalize
  rw [joined, joined, normalizeChars_joinWith given unrooted, String.toList_ofList,
    String.toList_ofList]
  rfl

/-- Normalizing joined paths gives the same as normalizing them before they are joined as well. So a
path below the directory of a compilation does not change if its name, its directory and that of the
compilation are spelled in another way. -/
theorem join_respelled :
    (∀ first second : String, first ≠ "" → second.toList.head? ≠ some '/' →
      second.toList.head? ≠ some '\\' →
      normalize (first ++ "/" ++ second) = normalize (normalize first ++ "/" ++ normalize second)) ∧
    ∀ (name name' compilation compilation' : String) (directory directory' : Option String),
      Respells name name' → Option.Rel Respells directory directory' → compilation ≠ "" →
      normalize compilation = normalize compilation' →
      join name directory (some compilation) = join name' directory' (some compilation') :=
  ⟨fun _ _ => normalize_append, fun _ _ _ _ _ _ => join_of_respells⟩

/-- Parents that take back components, one that the root takes, and both kinds of slash. -/
theorem join_respelled_parents :
    normalize ("/w\\..//x" ++ "/" ++ "..\\..\\y") = "/y" ∧
      normalize (normalize "/w\\..//x" ++ "/" ++ normalize "..\\..\\y") = "/y" ∧
      join "a//../main.c" (some "..\\src\\.") (some "/w/./") = "/src/main.c" ∧
      join "./main.c" (some "b/../../src") (some "\\w") = "/src/main.c" := by
  have joined : normalize (normalize "/w\\..//x" ++ "/" ++ normalize "..\\..\\y") = "/y" := by
    decide
  have path : join "./main.c" (some "b/../../src") (some "\\w") = "/src/main.c" := by decide
  obtain ⟨append, respelled⟩ := join_respelled
  refine ⟨(append _ _ (by decide) (by decide) (by decide)).trans joined, joined,
    (respelled _ _ _ _ _ _ ?_ ?_ ?_ ?_).trans path, path⟩
  · exact ⟨by decide, by decide, by decide⟩
  · exact .some ⟨by decide, by decide, by decide⟩
  · decide
  · decide

end WasmSourceMap.SourcePath
