import WasmSourceMap.Proofs.SourcePath.NormalForm

/-!
# Normal form and the places that paths lead to

Normal form is a property of the text of a path (`IsNormal`): forward slashes only, never two in a
row, no empty component and no lone dot, and parents at most at the start of a relative path. The
paths of this form are those that normalizing gives (`isNormal_normalizeChars`) and those that it
leaves as they are (`IsNormal.normalizeChars_eq`).

A path leads from one place to another (`follow`), and so does its normal form. Two paths that lead
to the same place from everywhere have the same normal form (`normalizeChars_eq_iff`).
-/

namespace WasmSourceMap.SourcePath

/-- The components of a path as it is written, without the empty one in front of a leading slash.
The empty path has none. -/
def written (cs : List Char) : List (List Char) :=
  if cs = [] then [] else Text.splitOn '/' (if isRooted cs then cs.tail else cs)

/-- Normal form of a path. The lone dot and the root are the only ones with a component that leads
nowhere. -/
structure IsNormal (cs : List Char) : Prop where
  forward : '\\' ∉ cs
  single : ¬ ['/', '/'] <:+: cs
  proper : cs = ['.'] ∨ cs = ['/'] ∨ ∀ part ∈ written cs, part ≠ [] ∧ part ≠ ['.']
  climbs : ∃ ups rest, written cs = List.replicate ups parent ++ rest ∧ parent ∉ rest ∧
    (isRooted cs = true → ups = 0)

/-- Where a component leads from a place. A place is the names from the root to it, the last one
first; at the root a parent leads nowhere. -/
def step (place : List (List Char)) (component : List Char) : List (List Char) :=
  if component = [] ∨ component = ['.'] then place
  else if component = parent then place.tail
  else component :: place

/-- Where a path leads from a place. -/
def follow (place : List (List Char)) (cs : List Char) : List (List Char) :=
  (Text.splitOn '/' (withSlashes cs)).foldl step (if isRooted (withSlashes cs) then [] else place)

section

variable {rooted : Bool} {cs : List Char} {parts : List (List Char)}

lemma written_of_not_isRooted (nonempty : cs ≠ []) (unrooted : isRooted cs = false) :
    written cs = Text.splitOn '/' cs := by
  rw [written, if_neg nonempty, unrooted]
  rfl

/-- The components of a path are those that it was put together from. -/
lemma written_ofComponents (given : parts ≠ [])
    (proper : ∀ part ∈ parts, part ≠ [] ∧ '/' ∉ part) :
    written (ofComponents rooted parts) = parts := by
  have joined := Text.splitOn_joinWith given fun part m => (proper part m).2
  cases rooted with
  | true => exact joined
  | false =>
    have noRoot : ofComponents false parts = Text.joinWith '/' parts := if_neg given
    rw [written_of_not_isRooted (ofComponents_ne_nil fun part m => (proper part m).1)
      (isRooted_ofComponents proper), noRoot, joined]

/-- Two slashes in a row have an empty component between them. -/
lemma not_doubleSlash (nonempty : ∀ part ∈ written cs, part ≠ []) : ¬ ['/', '/'] <:+: cs := by
  rintro ⟨front, back, rfl⟩
  have between : ∀ front, [] ∈ Text.splitOn '/' (front ++ '/' :: '/' :: back) := by
    intro front
    rw [Text.splitOn_append_sep]
    exact List.mem_append_right _ List.mem_cons_self
  rw [List.append_assoc] at nonempty
  refine nonempty [] ?_ rfl
  cases front with
  | nil => exact List.mem_cons_self
  | cons c more =>
    by_cases slash : c = '/'
    · subst slash
      exact between more
    · have unrooted : isRooted (c :: (more ++ '/' :: '/' :: back)) = false :=
        Bool.eq_false_iff.2 fun root => slash (Option.some.inj (isRooted_iff.1 root))
      have whole := written_of_not_isRooted (List.cons_ne_nil c _) unrooted
      exact whole ▸ between (c :: more)

lemma isNormal_nil : IsNormal [] where
  forward := by decide
  single := not_doubleSlash (by decide)
  proper := by decide
  climbs := ⟨0, [], by decide⟩

lemma isNormal_dot : IsNormal ['.'] where
  forward := by decide
  single := not_doubleSlash (by decide)
  proper := by decide
  climbs := ⟨0, [['.']], by decide⟩

lemma isNormal_root : IsNormal ['/'] where
  forward := by decide
  single h := absurd h.length_le (by decide)
  proper := by decide
  climbs := ⟨0, [[]], by decide⟩

/-- The path of settled components is in normal form. -/
lemma Settled.isNormal {before : List (List Char)} (h : Settled rooted before)
    (noSlash : ∀ part ∈ before, '/' ∉ part) (forward : '\\' ∉ ofComponents rooted before.reverse) :
    IsNormal (ofComponents rooted before.reverse) := by
  by_cases none : before = []
  · subst none
    cases rooted with
    | true => exact isNormal_root
    | false => exact isNormal_dot
  have proper : ∀ part ∈ before.reverse, part ≠ [] ∧ '/' ∉ part := fun part m =>
    ⟨(h.not_idle (List.mem_reverse.1 m)).1, noSlash part (List.mem_reverse.1 m)⟩
  have components : written (ofComponents rooted before.reverse) = before.reverse :=
    written_ofComponents (mt List.reverse_eq_nil_iff.1 none) proper
  have notIdle : ∀ part ∈ before.reverse, part ≠ [] ∧ part ≠ ['.'] := fun part m =>
    h.not_idle (List.mem_reverse.1 m)
  obtain ⟨names, ups, rfl, all, free⟩ := h.split
  refine ⟨forward, not_doubleSlash ?_, .inr (.inr ?_), ups, names.reverse, ?_, fun m => ?_, ?_⟩
  · rw [components]
    exact fun part m => (notIdle part m).1
  · rwa [components]
  · rw [components, List.reverse_append, List.reverse_replicate]
  · exact (all parent (List.mem_reverse.1 m)).2.2 rfl
  · rwa [isRooted_ofComponents proper]

/-- Normalizing gives normal form. -/
lemma isNormal_normalizeChars (cs : List Char) : IsNormal (normalizeChars cs) := by
  by_cases empty : cs = []
  · subst empty
    exact isNormal_nil
  · have forward := not_mem_normalizeChars cs
    rw [normalizeChars_eq empty] at forward ⊢
    exact (settled_walk _ _).isNormal
      (fun part m => (proper_of_mem_walk (List.mem_reverse.2 m)).2) forward

/-- A path is its components with slashes between them, and one in front if it has a root. -/
lemma ofComponents_written (nonempty : cs ≠ []) : ofComponents (isRooted cs) (written cs) = cs := by
  cases root : isRooted cs with
  | true =>
    obtain ⟨c, rest, rfl⟩ := List.exists_cons_of_ne_nil nonempty
    obtain rfl := Option.some.inj (isRooted_iff.1 root)
    exact congrArg ('/' :: ·) (Text.joinWith_splitOn '/' rest)
  | false =>
    rw [written_of_not_isRooted nonempty root]
    exact (if_neg (Text.splitOn_ne_nil '/' cs)).trans (Text.joinWith_splitOn '/' cs)

lemma walk_eq_foldl_written (nonempty : cs ≠ []) :
    walk rooted [] cs = (written cs).foldl (push rooted) [] := by
  cases root : isRooted cs with
  | true =>
    obtain ⟨c, rest, rfl⟩ := List.exists_cons_of_ne_nil nonempty
    obtain rfl := Option.some.inj (isRooted_iff.1 root)
    rfl
  | false =>
    rw [written_of_not_isRooted nonempty root]
    rfl

/-- Normalizing a path in normal form changes nothing. -/
lemma IsNormal.normalizeChars_eq (h : IsNormal cs) : normalizeChars cs = cs := by
  by_cases empty : cs = []
  · subst empty
    rfl
  rcases h.proper with rfl | rfl | proper
  · rfl
  · rfl
  obtain ⟨ups, rest, e, noParent, free⟩ := h.climbs
  have names : ∀ part ∈ rest.reverse, IsName part := by
    intro part m
    replace m := List.mem_reverse.1 m
    obtain ⟨nonempty, notDot⟩ := proper part (e ▸ List.mem_append_right _ m)
    exact ⟨nonempty, notDot, fun up => noParent (up ▸ m)⟩
  have settled : Settled (isRooted cs) (written cs).reverse := by
    rw [e, List.reverse_append, List.reverse_replicate]
    exact .append_parents names free
  have back := settled.foldl_reverse
  rw [List.reverse_reverse] at back
  rw [SourcePath.normalizeChars_eq empty, withSlashes_of_not_mem h.forward,
    walk_eq_foldl_written empty, back, List.reverse_reverse, ofComponents_written empty]

end

section

variable {cs ds : List Char} {place : List (List Char)}

lemma acts_step : Acts step where
  idle _ idle := if_pos idle
  back {part} place isName := by
    have there : step place part = part :: place :=
      (if_neg (not_or.2 ⟨isName.1, isName.2.1⟩)).trans (if_neg isName.2.2)
    rw [there]
    rfl

/-- A path leads where its normal form leads. -/
lemma follow_normalizeChars (place : List (List Char)) (cs : List Char) :
    follow place (normalizeChars cs) = follow place cs := by
  unfold follow
  rw [withSlashes_normalizeChars, isRooted_normalizeChars]
  refine acts_step.foldl_normalizeChars fun root => ?_
  rw [root]
  rfl

lemma foldl_step_settled {names : List (List Char)} (all : ∀ part ∈ names, IsName part) (ups : Nat)
    (place : List (List Char)) :
    (names ++ List.replicate ups parent).reverse.foldl step place = names ++ place.drop ups := by
  induction names with
  | nil =>
    rw [List.nil_append, List.nil_append, List.reverse_replicate]
    induction ups generalizing place with
    | zero => rfl
    | succ ups ih => exact (ih place.tail).trans List.drop_tail
  | cons part rest ih =>
    obtain ⟨isName, others⟩ := List.forall_mem_cons.1 all
    rw [List.cons_append, List.reverse_cons, List.foldl_append, ih others]
    exact (if_neg (not_or.2 ⟨isName.1, isName.2.1⟩)).trans (if_neg isName.2.2)

/-- Where a path leads says how its components are settled: names, and how far up it leads before
them. -/
lemma follow_split (cs : List Char) :
    ∃ names ups,
      walk (isRooted (withSlashes cs)) [] (withSlashes cs) = names ++ List.replicate ups parent ∧
      (isRooted (withSlashes cs) = true → ups = 0) ∧
      ∀ place, follow place cs =
        names ++ (if isRooted (withSlashes cs) then [] else place).drop ups := by
  obtain ⟨names, ups, e, all, free⟩ :=
    (settled_walk (isRooted (withSlashes cs)) (withSlashes cs)).split
  refine ⟨names, ups, e, free, fun place => ?_⟩
  have stays : isRooted (withSlashes cs) = true →
      step (if isRooted (withSlashes cs) then [] else place) parent =
        if isRooted (withSlashes cs) then [] else place := by
    intro root
    rw [root]
    rfl
  rw [← foldl_step_settled all ups, ← e]
  exact (settled_nil.foldl_acts acts_step stays _).symm

/-- Paths that lead to the same place from everywhere have the same components. -/
lemma walk_eq_of_follow_eq (same : ∀ place, follow place cs = follow place ds) :
    isRooted (withSlashes cs) = isRooted (withSlashes ds) ∧
      walk (isRooted (withSlashes cs)) [] (withSlashes cs) =
        walk (isRooted (withSlashes ds)) [] (withSlashes ds) := by
  obtain ⟨names, ups, e, free, leads⟩ := follow_split cs
  obtain ⟨names', ups', e', free', leads'⟩ := follow_split ds
  -- From the root both lead through their names, since there is nothing to leave behind.
  have sameNames : names = names' := by
    have fromRoot := same []
    rw [leads, leads', ite_self, ite_self, List.drop_nil, List.drop_nil, List.append_nil,
      List.append_nil] at fromRoot
    exact fromRoot
  subst sameNames
  -- From a place that is deep enough, what is left of the place tells how far up they lead.
  have left := congrArg List.length (same (List.replicate (ups + ups' + 1) []))
  rw [leads, leads', List.length_append, List.length_append, List.length_drop,
    List.length_drop] at left
  rw [e, e']
  cases root : isRooted (withSlashes cs) <;> cases root' : isRooted (withSlashes ds) <;>
    simp only [root, root', Bool.false_eq_true, if_true, if_false, List.length_replicate,
      List.length_nil] at left
  · have sameUps : ups = ups' := by omega
    exact ⟨rfl, sameUps ▸ rfl⟩
  · omega
  · omega
  · rw [free root, free' root']
    exact ⟨rfl, rfl⟩

/-- Paths have the same normal form if, and only if, they lead to the same place from everywhere.
The empty path alone is told from the lone dot. -/
lemma normalizeChars_eq_iff :
    normalizeChars cs = normalizeChars ds ↔
      (cs = [] ↔ ds = []) ∧ ∀ place, follow place cs = follow place ds := by
  constructor
  · intro same
    refine ⟨?_, fun place => ?_⟩
    · rw [← normalizeChars_eq_nil_iff, same, normalizeChars_eq_nil_iff]
    · rw [← follow_normalizeChars place cs, same, follow_normalizeChars]
  · rintro ⟨both, same⟩
    by_cases empty : cs = []
    · rw [empty, both.1 empty]
    · obtain ⟨sameRoot, sameWalk⟩ := walk_eq_of_follow_eq same
      rw [normalizeChars_eq empty, normalizeChars_eq (mt both.2 empty), sameWalk, sameRoot]

end

/-- Normalizing gives the normal form of a path: the text is in normal form, and but for the empty
one it is the only such text that leads where the path leads. It is empty only for the empty path,
and it begins with a slash only for a path that begins with a slash of either kind. -/
theorem isNormal_normalize (path : String) :
    IsNormal (normalize path).toList ∧
      (normalize path = "" ↔ path = "") ∧
      ((normalize path).toList.head? = some '/' ↔
        path.toList.head? = some '/' ∨ path.toList.head? = some '\\') ∧
      normalize (normalize path) = normalize path ∧
      (IsNormal path.toList ↔ normalize path = path) ∧
      (∀ place, follow place (normalize path).toList = follow place path.toList) ∧
      ∀ other, normalize path = normalize other ↔
        (path = "" ↔ other = "") ∧
          ∀ place, follow place path.toList = follow place other.toList := by
  have chars : (normalize path).toList = normalizeChars path.toList := String.toList_ofList
  have empty : ∀ path : String, path.toList = [] ↔ path = "" := fun path => String.toList_eq_nil_iff
  have normal := isNormal_normalizeChars path.toList
  refine ⟨chars ▸ normal, ?_, ?_, ?_, ⟨fun h => ?_, fun e => ?_⟩, fun place => ?_, fun other => ?_⟩
  · rw [← empty, chars, normalizeChars_eq_nil_iff, empty]
  · rw [chars, ← isRooted_iff, isRooted_normalizeChars, isRooted_withSlashes_iff]
  · unfold normalize
    rw [String.toList_ofList, normalizeChars_idem]
  · unfold normalize
    rw [h.normalizeChars_eq, String.ofList_toList]
  · rw [← e, chars]
    exact normal
  · rw [chars, follow_normalizeChars]
  · unfold normalize
    rw [String.ofList_inj, normalizeChars_eq_iff, empty, empty]

example : normalize "C:\\src\\.\\lib\\..\\\\a.c" = "C:/src/a.c" := by decide

end WasmSourceMap.SourcePath
