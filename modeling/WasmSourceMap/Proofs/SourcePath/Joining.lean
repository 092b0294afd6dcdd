import WasmSourceMap.Proofs.SourcePath.NormalForm

/-!
# Joining a directory twice

A path below a directory is not the same if the directory comes twice. How deep a path leads, down
for a name and up for a parent, adds up over the components (`depth_foldl_push`), so the paths can
agree only if the directory leads to where it starts. In that case it takes back what it has put
there and puts the same again (`Settled.foldl_of_depth`). Hence the paths agree if, and only if, the
directory joined to itself is itself (`join_twice_iff`).
-/

namespace WasmSourceMap.SourcePath

/-- How far some components lead down from where they start. -/
def depth : List (List Char) → Int
  | [] => 0
  | part :: before => depth before + if part = parent then -1 else 1

section

variable {before : List (List Char)}

lemma depth_push (before : List (List Char)) (part : List Char) :
    depth (push false before part) = depth before + depth (push false [] part) := by
  rcases idle_or_parent_or_isName part with idle | rfl | isName
  · rw [push_of_idle idle, push_of_idle idle, depth, Int.add_zero]
  · cases before with
    | nil => rfl
    | cons last rest =>
      by_cases up : last = parent
      · subst up
        rfl
      · have back : push false (last :: rest) parent = rest := if_neg up
        rw [back, depth, if_neg up]
        exact (Int.add_neg_cancel_right _ 1).symm
  · rw [push_of_isName isName, push_of_isName isName, depth, depth, depth]
    omega

/-- The depth of one path after another is the sum of both. -/
lemma depth_foldl_push (before parts : List (List Char)) :
    depth (parts.foldl (push false) before) =
      depth before + depth (parts.foldl (push false) []) := by
  induction parts generalizing before with
  | nil => exact (Int.add_zero _).symm
  | cons part rest ih =>
    calc depth (rest.foldl (push false) (push false before part))
      _ = depth (push false before part) + depth (rest.foldl (push false) []) := ih _
      _ = depth before + (depth (push false [] part) + depth (rest.foldl (push false) [])) := by
        rw [depth_push, Int.add_assoc]
      _ = depth before + depth (rest.foldl (push false) (push false [] part)) := by rw [← ih]

lemma depth_walk (before : List (List Char)) (cs : List Char) :
    depth (walk false before cs) = depth before + depth (walk false [] cs) :=
  depth_foldl_push before _

lemma depth_append (first second : List (List Char)) :
    depth (first ++ second) = depth first + depth second := by
  induction first with
  | nil => exact (Int.zero_add _).symm
  | cons part rest ih =>
    rw [List.cons_append, depth, depth, ih]
    omega

lemma depth_names {names : List (List Char)} (all : ∀ part ∈ names, IsName part) :
    depth names = names.length := by
  induction names with
  | nil => rfl
  | cons part rest ih =>
    obtain ⟨isName, others⟩ := List.forall_mem_cons.1 all
    rw [depth, ih others, if_neg isName.2.2, List.length_cons, Int.natCast_succ]

lemma depth_parents (ups : Nat) : depth (List.replicate ups parent) = -ups := by
  induction ups with
  | zero => rfl
  | succ ups ih =>
    rw [List.replicate_succ, depth, ih, if_pos rfl]
    omega

/-- Parents take back as many names. -/
lemma foldl_push_parents {names : List (List Char)} (all : ∀ part ∈ names, IsName part) :
    (List.replicate names.length parent).foldl (push false) (names ++ before) = before := by
  induction names with
  | nil => rfl
  | cons part rest ih =>
    obtain ⟨isName, others⟩ := List.forall_mem_cons.1 all
    rw [List.length_cons, List.replicate_succ, List.foldl_cons, List.cons_append,
      push_parent_of_isName isName, ih others]

lemma foldl_push_names {names : List (List Char)} (all : ∀ part ∈ names, IsName part) :
    names.reverse.foldl (push false) before = names ++ before := by
  induction names with
  | nil => rfl
  | cons part rest ih =>
    obtain ⟨isName, others⟩ := List.forall_mem_cons.1 all
    rw [List.reverse_cons, List.foldl_append, ih others, List.foldl_cons, List.foldl_nil,
      push_of_isName isName, List.cons_append]

/-- Components that lead to where they start take themselves back and come again. -/
lemma Settled.foldl_of_depth (h : Settled false before) (level : depth before = 0) :
    before.reverse.foldl (SourcePath.push false) before = before := by
  obtain ⟨names, ups, rfl, all, -⟩ := h.split
  have same : ups = names.length := by
    rw [depth_append, depth_names all, depth_parents] at level
    omega
  subst same
  rw [List.reverse_append, List.reverse_replicate, List.foldl_append, foldl_push_parents all,
    foldl_push_names all]

/-- A path that leads to where it starts is the same after itself. -/
lemma walk_walk_of_depth {cs : List Char} (level : depth (walk false [] cs) = 0) :
    walk false (walk false [] cs) cs = walk false [] cs := by
  have start : Settled false [] := settled_nil
  have again : walk false (walk false [] cs) cs =
      (walk false [] cs).reverse.foldl (push false) (walk false [] cs) :=
    (start.foldl_acts (acts_push false) nofun _).symm
  rw [again]
  exact (settled_walk false cs).foldl_of_depth level

/-- What comes after a path says whether the path comes twice, unless it is the same twice. -/
lemma walk_twice_iff (first second : List Char) :
    walk false (walk false (walk false [] first) first) second =
        walk false (walk false [] first) second ↔
      walk false (walk false [] first) first = walk false [] first := by
  constructor
  · intro same
    apply walk_walk_of_depth
    -- Depths add up, so one more `first` can make no difference to the depth.
    have level := congrArg depth same
    rw [depth_walk _ second, depth_walk (walk false [] first) first,
      depth_walk (walk false [] first) second] at level
    omega
  · intro same
    rw [same]

end

section

variable {cs name : List Char}

lemma withSlashes_append (first second : List Char) :
    withSlashes (first ++ '/' :: second) = withSlashes first ++ '/' :: withSlashes second :=
  List.map_append

lemma isRooted_append (nonempty : cs ≠ []) (rest : List Char) :
    isRooted (cs ++ rest) = isRooted cs := by
  obtain ⟨c, more, rfl⟩ := List.exists_cons_of_ne_nil nonempty
  by_cases slash : c = '/'
  · subst slash
    rfl
  · have other : ∀ tail, isRooted (c :: tail) = false := fun tail =>
      isRooted.eq_2 _ fun _ h => slash (List.cons.inj h).1
    exact (other _).trans (other _).symm

/-- The normal form of a path below a directory without root. -/
lemma normalizeChars_append (nonempty : cs ≠ []) (relative : isAbsoluteChars cs = false)
    (rest : List Char) :
    normalizeChars (cs ++ '/' :: rest) =
      ofComponents false
        (walk false (walk false [] (withSlashes cs)) (withSlashes rest)).reverse := by
  have nonempty' : withSlashes cs ≠ [] := fun e => nonempty (List.map_eq_nil_iff.1 e)
  have noRoot : isRooted (withSlashes cs) = false := (Bool.or_eq_false_iff.1 relative).1
  rw [normalizeChars_eq (List.append_ne_nil_of_left_ne_nil nonempty _), withSlashes_append,
    isRooted_append nonempty', noRoot, walk_append]

lemma normalizeChars_relative (nonempty : cs ≠ []) (relative : isAbsoluteChars cs = false) :
    normalizeChars cs = ofComponents false (walk false [] (withSlashes cs)).reverse := by
  rw [normalizeChars_eq nonempty, (Bool.or_eq_false_iff.1 relative).1]

/-- Different components give different paths. -/
lemma ofComponents_walk_inj {first second : List Char} :
    ofComponents false (walk false [] first).reverse =
        ofComponents false (walk false [] second).reverse ↔
      walk false [] first = walk false [] second := by
  constructor
  · intro same
    have back := congrArg (walk false []) same
    rwa [walk_ofComponents_walk, walk_ofComponents_walk] at back
  · intro same
    rw [same]

lemma joinChars_relative (relative : isAbsoluteChars name = false)
    (directory compilation : Option (List Char)) :
    joinChars name directory compilation =
      normalizeChars (Text.joinWith '/' (leading directory compilation ++ [name])) :=
  if_neg (by rw [relative]; exact Bool.false_ne_true)

/-- The directories in front of a name below a directory, or below the directory in itself. -/
lemma leading_of_relative (nonempty : cs ≠ []) (relative : isAbsoluteChars cs = false) :
    leading none (some cs) = [cs] ∧ leading (some cs) (some cs) = [cs, cs] := by
  obtain ⟨c, more, rfl⟩ := List.exists_cons_of_ne_nil nonempty
  exact ⟨rfl, if_neg (by rw [relative]; exact Bool.false_ne_true)⟩

/-- The directories in front of a name are that of the compilation and the listed one, if it is not
empty. -/
lemma leading_eq {base : List Char} {directory : Option (List Char)} (nonempty : base ≠ [])
    (relative : ∀ path ∈ directory, isAbsoluteChars path = false) :
    leading directory (some base) = base :: (given directory).toList := by
  obtain ⟨c, more, rfl⟩ := List.exists_cons_of_ne_nil nonempty
  cases directory with
  | none => rfl
  | some path =>
    cases path with
    | nil => rfl
    | cons d rest => exact if_neg (by rw [relative _ rfl]; exact Bool.false_ne_true)

lemma leading_of_absolute (absolute : isAbsoluteChars cs = true) :
    leading (some cs) (some cs) = leading none (some cs) := by
  cases cs with
  | nil => rfl
  | cons c more => exact if_pos absolute

/-- A name is at the same place below a directory and below the directory in itself if, and only if,
the directory in itself is the directory. -/
lemma joinChars_twice_iff (relative : isAbsoluteChars name = false) :
    joinChars name (some cs) (some cs) = joinChars name none (some cs) ↔
      joinChars cs none (some cs) = normalizeChars cs := by
  by_cases empty : cs = []
  · subst empty
    exact ⟨fun _ => rfl, fun _ => rfl⟩
  cases absolute : isAbsoluteChars cs with
  | true =>
    rw [joinChars_relative relative, joinChars_relative relative, leading_of_absolute absolute]
    exact ⟨fun _ => if_pos absolute, fun _ => rfl⟩
  | false =>
    obtain ⟨once, twice⟩ := leading_of_relative empty absolute
    rw [joinChars_relative relative, joinChars_relative relative, joinChars_relative absolute, once,
      twice]
    change normalizeChars (cs ++ '/' :: (cs ++ '/' :: name)) = normalizeChars (cs ++ '/' :: name) ↔
      normalizeChars (cs ++ '/' :: cs) = normalizeChars cs
    rw [normalizeChars_append empty absolute, normalizeChars_append empty absolute,
      normalizeChars_append empty absolute, normalizeChars_relative empty absolute,
      withSlashes_append, walk_append]
    simp only [← walk_append, ofComponents_walk_inj]
    simp only [walk_append]
    exact walk_twice_iff _ _

end

/-- An absolute name stands alone. -/
lemma join_of_isAbsolute {name : String} (absolute : isAbsolute name = true)
    (directory compilation : Option String) :
    join name directory compilation = normalize name :=
  congrArg String.ofList (if_pos absolute)

/-- A name is at the same place below a directory and below the directory in itself if, and only if,
the directory in itself is the directory. That is so for an absolute directory and for one that
leads up as far as it leads down. -/
theorem join_twice_iff {name : String} (relative : isAbsolute name = false) (directory : String) :
    join name (some directory) (some directory) = join name none (some directory) ↔
      join directory none (some directory) = normalize directory := by
  unfold join normalize
  simp only [Option.map_some, Option.map_none, String.ofList_inj]
  exact joinChars_twice_iff relative

end WasmSourceMap.SourcePath
