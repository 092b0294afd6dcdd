import Mathlib.Tactic.Lemma
import WasmSourceMap.SourcePath

/-!
# Normal form of source paths

Going through the components of a path keeps those that it passed in a certain form: names above
parents, and no parents below a root (`Settled`). Whatever components do, if a parent takes back the
name before it (`Acts`), those of a path in normal form do the same as those of the path
(`Acts.foldl_components`). In particular a path in normal form is read back as its components, so
that normalizing it again changes nothing (`normalizeChars_idem`).
-/

namespace WasmSourceMap

namespace SourcePath

/-- A component that names a file or a directory. -/
def IsName (part : List Char) : Prop := part ≠ [] ∧ part ≠ ['.'] ∧ part ≠ parent

/-- What components can be. -/
lemma idle_or_parent_or_isName (part : List Char) :
    (part = [] ∨ part = ['.']) ∨ part = parent ∨ IsName part := by
  by_cases idle : part = [] ∨ part = ['.']
  · exact .inl idle
  · by_cases up : part = parent
    · exact .inr (.inl up)
    · exact .inr (.inr ⟨fun e => idle (.inl e), fun e => idle (.inr e), up⟩)

/-- The components that a path in normal form can have so far, in reverse order. -/
inductive Settled (rooted : Bool) : List (List Char) → Prop where
  | parents (n : Nat) : (rooted = true → n = 0) → Settled rooted (List.replicate n parent)
  | name {part : List Char} {before : List (List Char)} :
    IsName part → Settled rooted before → Settled rooted (part :: before)

section

variable {rooted : Bool} {before : List (List Char)} {part last : List Char}

lemma push_of_idle (h : part = [] ∨ part = ['.']) : push rooted before part = before :=
  if_pos h

lemma push_of_isName (h : IsName part) : push rooted before part = part :: before := by
  obtain ⟨nonempty, notDot, notParent⟩ := h
  exact (if_neg (not_or.2 ⟨nonempty, notDot⟩)).trans (if_pos notParent)

lemma push_parent_of_isName (h : IsName last) : push rooted (last :: before) parent = before :=
  if_neg h.2.2

lemma Settled.push (h : Settled rooted before) (part : List Char) :
    Settled rooted (push rooted before part) := by
  rcases idle_or_parent_or_isName part with idle | rfl | isName
  · rw [push_of_idle idle]
    exact h
  · cases h with
    | parents n free =>
      cases n with
      | zero =>
        cases rooted with
        | false => exact .parents 1 (fun e => nomatch e)
        | true => exact .parents 0 fun _ => rfl
      | succ n => exact .parents (n + 2) fun root => nomatch free root
    | name isName h =>
      rw [push_parent_of_isName isName]
      exact h
  · rw [push_of_isName isName]
    exact .name isName h

lemma Settled.foldl (h : Settled rooted before) (parts : List (List Char)) :
    Settled rooted (parts.foldl (SourcePath.push rooted) before) := by
  induction parts generalizing before with
  | nil => exact h
  | cons part rest ih => exact ih (h.push part)

/-- No component is empty or a lone dot. -/
lemma Settled.not_idle (h : Settled rooted before) (m : part ∈ before) :
    part ≠ [] ∧ part ≠ ['.'] := by
  induction h with
  | parents n _ =>
    rw [List.eq_of_mem_replicate m]
    decide
  | name isName _ ih =>
    rcases List.mem_cons.1 m with rfl | m
    · exact ⟨isName.1, isName.2.1⟩
    · exact ih m

/-- Settled components are names above parents, and below a root they are names only. -/
lemma Settled.split (h : Settled rooted before) :
    ∃ names ups, before = names ++ List.replicate ups parent ∧ (∀ part ∈ names, IsName part) ∧
      (rooted = true → ups = 0) := by
  induction h with
  | parents ups free => exact ⟨[], ups, rfl, List.forall_mem_nil _, free⟩
  | @name part _ isName _ ih =>
    obtain ⟨names, ups, rfl, all, free⟩ := ih
    exact ⟨part :: names, ups, rfl, List.forall_mem_cons.2 ⟨isName, all⟩, free⟩

/-- Names above parents are settled, if there are no parents below a root. -/
lemma Settled.append_parents {names : List (List Char)} (all : ∀ part ∈ names, IsName part)
    {ups : Nat} (free : rooted = true → ups = 0) :
    Settled rooted (names ++ List.replicate ups parent) := by
  induction names with
  | nil => exact .parents ups free
  | cons part rest ih =>
    obtain ⟨isName, others⟩ := List.forall_mem_cons.1 all
    exact .name isName (ih others)

/-- Going through settled components gives them back. -/
lemma Settled.foldl_reverse (h : Settled rooted before) :
    before.reverse.foldl (SourcePath.push rooted) [] = before := by
  induction h with
  | parents n free =>
    rw [List.reverse_replicate]
    induction n with
    | zero => rfl
    | succ n ih =>
      cases rooted with
      | true =>
        -- Below a root no parents are kept.
        exact absurd (free rfl) (Nat.succ_ne_zero n)
      | false =>
        rw [List.replicate_succ', List.foldl_append, ih (fun e => nomatch e),
          ← List.replicate_succ']
        cases n <;> rfl
  | name isName _ ih => rw [List.reverse_cons, List.foldl_append, ih, List.foldl_cons,
      List.foldl_nil, push_of_isName isName]

lemma mem_push {c : List Char} (m : c ∈ push rooted before part) :
    c ∈ before ∨ c = part ∨ c = parent := by
  rcases idle_or_parent_or_isName part with idle | rfl | isName
  · rw [push_of_idle idle] at m
    exact .inl m
  · unfold push at m
    rw [if_neg (by decide), if_neg (by simp)] at m
    split at m
    · split at m
      · cases m
      · exact .inr (.inr (List.mem_singleton.1 m))
    · rename_i last rest
      split at m
      · rcases List.mem_cons.1 m with e | m
        · exact .inr (.inr e)
        · exact .inl m
      · exact .inl (List.mem_cons_of_mem last m)
  · rw [push_of_isName isName] at m
    rcases List.mem_cons.1 m with e | m
    · exact .inr (.inl e)
    · exact .inl m

/-- Components come from the path, or they are parents. -/
lemma mem_foldl_push {parts : List (List Char)} {c : List Char}
    (m : c ∈ parts.foldl (push rooted) before) : c ∈ before ∨ c ∈ parts ∨ c = parent := by
  induction parts generalizing before with
  | nil => exact .inl m
  | cons part rest ih =>
    rcases ih m with m | m | e
    · rcases mem_push m with m | e | e
      · exact .inl m
      · exact .inr (.inl (e ▸ List.mem_cons_self))
      · exact .inr (.inr e)
    · exact .inr (.inl (List.mem_cons_of_mem part m))
    · exact .inr (.inr e)

end

/-- Components that do something: one that is empty or a lone dot changes nothing, and a parent
takes back what the name before it has done. -/
structure Acts {σ : Type} (act : σ → List Char → σ) : Prop where
  idle {part : List Char} (x : σ) : part = [] ∨ part = ['.'] → act x part = x
  back {part : List Char} (x : σ) : IsName part → act (act x part) parent = x

lemma acts_push (rooted : Bool) : Acts (push rooted) where
  idle _ idle := push_of_idle idle
  back _ isName := by rw [push_of_isName isName, push_parent_of_isName isName]

/-- Components do what their settled form does. -/
lemma Settled.foldl_acts {rooted : Bool} {settled : List (List Char)} (h : Settled rooted settled)
    {σ : Type} {act : σ → List Char → σ} (acts : Acts act) {x : σ}
    (stays : rooted = true → act x parent = x) (parts : List (List Char)) :
    (parts.foldl (SourcePath.push rooted) settled).reverse.foldl act x =
      parts.foldl act (settled.reverse.foldl act x) := by
  induction parts generalizing settled with
  | nil => rfl
  | cons part rest ih =>
    rw [List.foldl_cons, List.foldl_cons, ih (h.push part)]
    congr 1
    rcases idle_or_parent_or_isName part with idle | rfl | isName
    · rw [push_of_idle idle, acts.idle _ idle]
    · cases h with
      | parents ups free =>
        cases rooted with
        | true =>
          obtain rfl := free rfl
          exact (stays rfl).symm
        | false =>
          -- Without a root, one more parent is put on the others.
          have more : SourcePath.push false (List.replicate ups parent) parent =
              parent :: List.replicate ups parent := by
            cases ups <;> rfl
          rw [more, List.reverse_cons, List.foldl_append]
          rfl
      | name isName _ =>
        rw [push_parent_of_isName isName, List.reverse_cons, List.foldl_append, List.foldl_cons,
          List.foldl_nil, acts.back _ isName]
    · rw [push_of_isName isName, List.reverse_cons, List.foldl_append]
      rfl

/-- Go through the components of a path after some others. -/
def walk (rooted : Bool) (before : List (List Char)) (cs : List Char) : List (List Char) :=
  (Text.splitOn '/' cs).foldl (push rooted) before

section

variable {σ : Type} {act : σ → List Char → σ}
variable {rooted : Bool} {before : List (List Char)} {cs : List Char}

lemma walk_append (rooted : Bool) (before : List (List Char)) (first second : List Char) :
    walk rooted before (first ++ '/' :: second) =
      walk rooted (walk rooted before first) second := by
  unfold walk
  rw [Text.splitOn_append_sep, List.foldl_append]

lemma Settled.walk (h : Settled rooted before) (cs : List Char) :
    Settled rooted (walk rooted before cs) :=
  h.foldl _

lemma settled_nil : Settled rooted [] := .parents 0 fun _ => rfl

lemma settled_walk (rooted : Bool) (cs : List Char) : Settled rooted (walk rooted [] cs) :=
  settled_nil.walk cs

/-- Components hold no slash, and nothing else that the path does not hold. -/
lemma mem_of_mem_walk {part : List Char} (m : part ∈ walk rooted [] cs) {c : Char} (h : c ∈ part) :
    c ≠ '/' ∧ (c ∈ cs ∨ c = '.') := by
  rcases mem_foldl_push m with m | m | rfl
  · cases m
  · obtain ⟨inside, other⟩ := Text.mem_of_mem_splitOn m h
    exact ⟨other, .inl inside⟩
  · have dot : c = '.' := by simpa [parent] using h
    exact ⟨by rw [dot]; decide, .inr dot⟩

/-- The path of some components acts as they do: a lone dot and an empty path are idle. -/
lemma Acts.foldl_ofComponents (acts : Acts act) {parts : List (List Char)}
    (noSlash : ∀ part ∈ parts, '/' ∉ part) (x : σ) :
    (Text.splitOn '/' (ofComponents rooted parts)).foldl act x = parts.foldl act x := by
  cases parts with
  | nil =>
    cases rooted with
    | true =>
      have twice : act (act x []) [] = x := by rw [acts.idle _ (.inl rfl), acts.idle _ (.inl rfl)]
      exact twice
    | false => exact acts.idle x (.inr rfl)
  | cons part rest =>
    have joined := Text.splitOn_joinWith (List.cons_ne_nil part rest) noSlash
    cases rooted with
    | true =>
      have root : ofComponents true (part :: rest) =
          [] ++ '/' :: Text.joinWith '/' (part :: rest) := rfl
      rw [root, Text.splitOn_append_sep, joined]
      exact congrArg (rest.foldl act ∘ (act · part)) (acts.idle x (.inl rfl))
    | false =>
      have noRoot : ofComponents false (part :: rest) = Text.joinWith '/' (part :: rest) := rfl
      rw [noRoot, joined]

/-- The components of a path in normal form are not empty and hold no slash. -/
lemma proper_of_mem_walk {part : List Char}
    (m : part ∈ (walk rooted [] cs).reverse) : part ≠ [] ∧ '/' ∉ part :=
  ⟨((settled_walk rooted cs).not_idle (List.mem_reverse.1 m)).1,
    fun slash => (mem_of_mem_walk (List.mem_reverse.1 m) slash).1 rfl⟩

/-- A path in normal form acts as the path does, if a parent changes nothing where the path begins
at its root. -/
lemma Acts.foldl_components (acts : Acts act) {x : σ} (stays : rooted = true → act x parent = x)
    (cs : List Char) :
    (Text.splitOn '/' (ofComponents rooted (walk rooted [] cs).reverse)).foldl act x =
      (Text.splitOn '/' cs).foldl act x := by
  rw [acts.foldl_ofComponents fun part m => (proper_of_mem_walk m).2]
  exact settled_nil.foldl_acts acts stays _

/-- A path in normal form is read back as its components. -/
lemma walk_ofComponents_walk :
    walk rooted [] (ofComponents rooted (walk rooted [] cs).reverse) = walk rooted [] cs :=
  (acts_push rooted).foldl_components (fun root => root ▸ rfl) cs

/-- The path of components starts with a slash only if it has a root. -/
lemma isRooted_ofComponents {parts : List (List Char)}
    (proper : ∀ part ∈ parts, part ≠ [] ∧ '/' ∉ part) :
    isRooted (ofComponents rooted parts) = rooted := by
  cases rooted with
  | true => rfl
  | false =>
    cases parts with
    | nil => rfl
    | cons part rest =>
      obtain ⟨nonempty, noSlash⟩ := proper part List.mem_cons_self
      obtain ⟨c, more, rfl⟩ := List.exists_cons_of_ne_nil nonempty
      have other : c ≠ '/' := fun e => noSlash (e ▸ List.mem_cons_self)
      have first : ∃ tail, ofComponents false ((c :: more) :: rest) = c :: tail := by
        cases rest with
        | nil => exact ⟨more, rfl⟩
        | cons next others => exact ⟨_, rfl⟩
      obtain ⟨tail, e⟩ := first
      rw [e, isRooted.eq_2 _ fun _ h => other (List.cons.inj h).1]

lemma mem_ofComponents {parts : List (List Char)} {c : Char}
    (h : c ∈ ofComponents rooted parts) : c = '/' ∨ c = '.' ∨ ∃ part ∈ parts, c ∈ part := by
  unfold ofComponents at h
  split at h
  · rcases List.mem_cons.1 h with e | h
    · exact .inl e
    · exact (Text.mem_joinWith h).imp_right .inr
  · split at h
    · exact .inr (.inl (List.mem_singleton.1 h))
    · exact (Text.mem_joinWith h).imp_right .inr

lemma ofComponents_ne_nil {parts : List (List Char)} (nonempty : ∀ part ∈ parts, part ≠ []) :
    ofComponents rooted parts ≠ [] := by
  unfold ofComponents
  split
  · exact List.cons_ne_nil _ _
  · split
    · exact List.cons_ne_nil _ _
    · cases parts with
      | nil => contradiction
      | cons part rest =>
        have first := nonempty part List.mem_cons_self
        cases rest with
        | nil => exact first
        | cons next more => exact List.append_ne_nil_of_left_ne_nil first _

end

/-- No backslash is left among forward slashes. -/
lemma not_mem_withSlashes (cs : List Char) : '\\' ∉ withSlashes cs := by
  intro m
  obtain ⟨c, _, e⟩ := List.mem_map.1 m
  split at e
  · cases e
  · rename_i other
    exact other e

lemma withSlashes_of_not_mem {cs : List Char} (h : '\\' ∉ cs) : withSlashes cs = cs := by
  have same : ∀ c ∈ cs, (if c = '\\' then '/' else c) = c := by
    intro c m
    exact if_neg fun (e : c = '\\') => h (e ▸ m)
  exact (List.map_congr_left same).trans (List.map_id' cs)

/-- The normal form of a path that is not empty. -/
lemma normalizeChars_eq {cs : List Char} (h : cs ≠ []) :
    normalizeChars cs = ofComponents (isRooted (withSlashes cs))
      (walk (isRooted (withSlashes cs)) [] (withSlashes cs)).reverse :=
  if_neg h

/-- Normal form has forward slashes only. -/
lemma not_mem_normalizeChars (cs : List Char) : '\\' ∉ normalizeChars cs := by
  by_cases empty : cs = []
  · subst empty
    exact List.not_mem_nil
  · rw [normalizeChars_eq empty]
    intro m
    rcases mem_ofComponents m with e | e | ⟨part, inside, m⟩
    · cases e
    · cases e
    · rcases (mem_of_mem_walk (List.mem_reverse.1 inside) m).2 with m | e
      · exact not_mem_withSlashes cs m
      · cases e

lemma isRooted_iff {cs : List Char} : isRooted cs = true ↔ cs.head? = some '/' := by
  cases cs with
  | nil => simp [isRooted]
  | cons c rest =>
    rw [List.head?_cons, Option.some_inj]
    by_cases slash : c = '/'
    · exact iff_of_true (slash ▸ rfl) slash
    · rw [isRooted.eq_2 _ fun _ e => slash (List.cons.inj e).1]
      exact iff_of_false Bool.false_ne_true slash

/-- Both kinds of slash are a root. -/
lemma isRooted_withSlashes_iff {cs : List Char} :
    isRooted (withSlashes cs) = true ↔ cs.head? = some '/' ∨ cs.head? = some '\\' := by
  rw [isRooted_iff, withSlashes, List.head?_map, Option.map_eq_some_iff]
  constructor
  · rintro ⟨c, first, e⟩
    split at e
    · rename_i back
      exact .inr (back ▸ first)
    · exact .inl (e ▸ first)
  · rintro (first | first) <;> exact ⟨_, first, rfl⟩

/-- Only the empty path has an empty normal form. -/
lemma normalizeChars_eq_nil_iff {cs : List Char} : normalizeChars cs = [] ↔ cs = [] := by
  by_cases empty : cs = []
  · subst empty
    exact iff_of_true rfl rfl
  · rw [normalizeChars_eq empty]
    exact iff_of_false (ofComponents_ne_nil fun part m => (proper_of_mem_walk m).1) empty

/-- The normal form of a path begins at the root if the path does. -/
lemma isRooted_normalizeChars (cs : List Char) :
    isRooted (normalizeChars cs) = isRooted (withSlashes cs) := by
  by_cases empty : cs = []
  · subst empty
    rfl
  · rw [normalizeChars_eq empty, isRooted_ofComponents fun part m => proper_of_mem_walk m]

/-- The slashes of a path in normal form are forward already. -/
lemma withSlashes_normalizeChars (cs : List Char) :
    withSlashes (normalizeChars cs) = normalizeChars cs :=
  withSlashes_of_not_mem (not_mem_normalizeChars cs)

/-- The normal form of a path acts as the path does. -/
lemma Acts.foldl_normalizeChars {σ : Type} {act : σ → List Char → σ} (acts : Acts act) {x : σ}
    {cs : List Char} (stays : isRooted (withSlashes cs) = true → act x parent = x) :
    (Text.splitOn '/' (normalizeChars cs)).foldl act x =
      (Text.splitOn '/' (withSlashes cs)).foldl act x := by
  by_cases empty : cs = []
  · subst empty
    rfl
  · rw [normalizeChars_eq empty]
    exact acts.foldl_components stays _

/-- Normalizing a path in normal form changes nothing. -/
lemma normalizeChars_idem (cs : List Char) :
    normalizeChars (normalizeChars cs) = normalizeChars cs := by
  by_cases empty : cs = []
  · subst empty
    rfl
  · have nonempty : normalizeChars cs ≠ [] := fun e => empty (normalizeChars_eq_nil_iff.1 e)
    -- What is read the second time has its slashes already, the same root and the same components.
    rw [normalizeChars_eq nonempty, withSlashes_normalizeChars, isRooted_normalizeChars,
      normalizeChars_eq empty, walk_ofComponents_walk]

/-- Joined paths are in normal form. -/
lemma joinChars_eq (name : List Char) (directory compilation : Option (List Char)) :
    ∃ cs, joinChars name directory compilation = normalizeChars cs := by
  unfold joinChars
  split <;> exact ⟨_, rfl⟩

/-- A joined path is in normal form and has forward slashes only. -/
theorem normalize_join (name : String) (directory compilation : Option String) :
    normalize (join name directory compilation) = join name directory compilation ∧
      '\\' ∉ (join name directory compilation).toList := by
  obtain ⟨cs, e⟩ := joinChars_eq name.toList (directory.map String.toList)
    (compilation.map String.toList)
  unfold normalize join
  rw [e, String.toList_ofList]
  exact ⟨congrArg String.ofList (normalizeChars_idem cs), not_mem_normalizeChars cs⟩

end SourcePath

end WasmSourceMap
