import Mathlib.Tactic.Lemma

/-!
# Maximal runs

A run of a list is a stretch of items with a property that cannot be made longer (`IsRun`). `runs`
finds all of them from the left, each with what stands in front of it (`mem_runs_iff`,
`pairwise_runs`). Where a list is put together from stretches with the property and items without
it, the stretches are the runs (`runsFrom_append_cons`).
-/

namespace WasmSourceMap.Text

variable {α : Type} {p : α → Bool}

/-- A maximal run of items with a property in a list, behind some front of it. -/
structure IsRun (p : α → Bool) (whole front run : List α) : Prop where
  stands : ∃ behind, whole = front ++ (run ++ behind) ∧ ∀ a ∈ behind.head?, p a = false
  nonempty : run ≠ []
  holds : ∀ a ∈ run, p a = true
  begins : ∀ a ∈ front.getLast?, p a = false

/-- A stretch behind some front is a run unless it is empty. -/
def seen (front run : List α) : List (List α × List α) :=
  if run.isEmpty then [] else [(front, run)]

/-- The maximal runs of a list of which `front`, and then `run` with the property, has been seen. -/
def runsFrom (p : α → Bool) (front run : List α) : List α → List (List α × List α)
  | [] => seen front run
  | a :: rest =>
    if p a then runsFrom p front (run ++ [a]) rest
    else seen front run ++ runsFrom p (front ++ run ++ [a]) [] rest

/-- The maximal runs of a list, each with what stands in front of it. -/
def runs (p : α → Bool) (whole : List α) : List (List α × List α) := runsFrom p [] [] whole

lemma mem_seen_iff {front run before found : List α} :
    (before, found) ∈ seen front run ↔ run ≠ [] ∧ before = front ∧ found = run := by
  unfold seen
  cases run <;> simp

/-- A stretch goes as far as its items have the property. -/
lemma takeWhile_stretch {stretch behind : List α} (holds : ∀ a ∈ stretch, p a = true)
    (ends : ∀ a ∈ behind.head?, p a = false) : (stretch ++ behind).takeWhile p = stretch := by
  rw [List.takeWhile_append_of_pos holds]
  cases behind with
  | nil => exact List.append_nil _
  | cons b rest =>
    rw [List.takeWhile_cons_of_neg (by simp [ends b rfl]), List.append_nil]

lemma not_isRun_nil {front run : List α} : ¬IsRun p [] front run := by
  rintro ⟨⟨behind, whole, _⟩, nonempty, _, _⟩
  have nothing := List.append_eq_nil_iff.1 (List.append_eq_nil_iff.1 whole.symm).2
  exact nonempty nothing.1

/-- A run does not begin in front of an item without the property. -/
lemma isRun_cons_iff {a : α} {rest front run : List α} (without : p a = false) :
    IsRun p (a :: rest) front run ↔ ∃ later, front = a :: later ∧ IsRun p rest later run := by
  constructor
  · rintro ⟨⟨behind, whole, ends⟩, nonempty, holds, begins⟩
    cases front with
    | nil =>
      obtain ⟨b, more, rfl⟩ := List.exists_cons_of_ne_nil nonempty
      cases whole
      exact absurd (holds a List.mem_cons_self) (by simp [without])
    | cons first later =>
      cases whole
      refine ⟨later, rfl, ⟨behind, rfl, ends⟩, nonempty, holds, fun b last => begins b ?_⟩
      rw [List.getLast?_cons, Option.mem_def.1 last]
      rfl
  · rintro ⟨later, rfl, ⟨behind, rfl, ends⟩, nonempty, holds, begins⟩
    refine ⟨⟨behind, rfl, ends⟩, nonempty, holds, fun b last => ?_⟩
    rw [List.getLast?_cons, Option.mem_some_iff] at last
    cases h : later.getLast? with
    | none =>
      rw [h] at last
      exact last ▸ without
    | some c =>
      rw [h] at last
      exact last ▸ begins c h

/-- A stretch with the property is a run, and the others come behind it. -/
lemma isRun_append_iff {stretch tail front run : List α} (holds : ∀ a ∈ stretch, p a = true)
    (ends : ∀ a ∈ tail.head?, p a = false) :
    IsRun p (stretch ++ tail) front run ↔
      (stretch ≠ [] ∧ front = [] ∧ run = stretch) ∨
        ∃ later, front = stretch ++ later ∧ IsRun p tail later run := by
  constructor
  · rintro ⟨⟨behind, whole, stops⟩, nonempty, inside, begins⟩
    rcases List.append_eq_append_iff.1 whole with ⟨later, rfl, rfl⟩ | ⟨more, rfl, same⟩
    · refine .inr ⟨later, rfl, ⟨behind, rfl, stops⟩, nonempty, inside, fun b last => begins b ?_⟩
      rw [List.getLast?_append, Option.mem_def.1 last]
      rfl
    · -- The front lies in the stretch, so its last item would have the property.
      have empty : front = [] := by
        rw [← List.getLast?_eq_none_iff]
        cases h : front.getLast? with
        | none => rfl
        | some b =>
          have inStretch := List.mem_append_left more (List.mem_of_getLast? h)
          exact absurd (holds b inStretch) (by simp [begins b h])
      subst empty
      have run_eq : run = more := by
        rw [← takeWhile_stretch inside stops, same]
        exact takeWhile_stretch holds ends
      exact .inl ⟨run_eq ▸ nonempty, rfl, run_eq⟩
  · rintro (⟨nonempty, rfl, rfl⟩ | ⟨later, rfl, ⟨behind, rfl, stops⟩, nonempty, inside, begins⟩)
    · exact ⟨⟨tail, rfl, ends⟩, nonempty, holds, nofun⟩
    · refine ⟨⟨behind, List.append_assoc _ _ _ ▸ rfl, stops⟩, nonempty, inside, fun b last => ?_⟩
      rw [List.getLast?_append, Option.mem_def] at last
      cases h : later.getLast? with
      | none =>
        -- The run would begin with the first item of the tail, which ends the stretch.
        obtain rfl := List.getLast?_eq_none_iff.1 h
        obtain ⟨c, more, rfl⟩ := List.exists_cons_of_ne_nil nonempty
        exact absurd (inside c List.mem_cons_self) (by simp [ends c rfl])
      | some c =>
        rw [h] at last
        exact Option.some.inj last ▸ begins c h

lemma mem_runsFrom_iff {front run cs before found : List α} (holds : ∀ a ∈ run, p a = true) :
    (before, found) ∈ runsFrom p front run cs ↔
      ∃ later, before = front ++ later ∧ IsRun p (run ++ cs) later found := by
  induction cs generalizing front run with
  | nil =>
    have ends : ∀ a ∈ ([] : List α).head?, p a = false := nofun
    simp only [runsFrom, mem_seen_iff, isRun_append_iff holds ends, not_isRun_nil, and_false,
      exists_false, or_false]
    constructor
    · rintro ⟨nonempty, rfl, rfl⟩
      exact ⟨[], (List.append_nil _).symm, nonempty, rfl, rfl⟩
    · rintro ⟨_, rfl, nonempty, rfl, rfl⟩
      exact ⟨nonempty, List.append_nil _, rfl⟩
  | cons a rest ih =>
    rw [runsFrom]
    by_cases h : p a = true
    · have more : ∀ b ∈ run ++ [a], p b = true := by
        intro b mem
        rcases List.mem_append.1 mem with mem | mem
        · exact holds b mem
        · exact List.mem_singleton.1 mem ▸ h
      rw [if_pos h, ih more, List.append_assoc, List.singleton_append]
    · have without : p a = false := Bool.eq_false_iff.2 h
      have ends : ∀ b ∈ (a :: rest).head?, p b = false := fun b first =>
        Option.some.inj first ▸ without
      rw [if_neg h, List.mem_append, mem_seen_iff, ih (List.forall_mem_nil _)]
      simp only [isRun_append_iff holds ends, isRun_cons_iff without, List.nil_append]
      constructor
      · rintro (⟨nonempty, rfl, rfl⟩ | ⟨later, rfl, found⟩)
        · exact ⟨[], (List.append_nil _).symm, .inl ⟨nonempty, rfl, rfl⟩⟩
        · refine ⟨run ++ a :: later, ?_, .inr ⟨_, rfl, later, rfl, found⟩⟩
          simp only [List.append_assoc, List.singleton_append]
      · rintro ⟨_, rfl, ⟨nonempty, rfl, rfl⟩ | ⟨_, rfl, later, rfl, found⟩⟩
        · exact .inl ⟨nonempty, List.append_nil _, rfl⟩
        · refine .inr ⟨later, ?_, found⟩
          simp only [List.append_assoc, List.singleton_append]

/-- All maximal runs are found, and nothing else. -/
lemma mem_runs_iff {whole front run : List α} :
    (front, run) ∈ runs p whole ↔ IsRun p whole front run := by
  rw [runs, mem_runsFrom_iff (List.forall_mem_nil _)]
  simp only [List.nil_append, exists_eq_left']

lemma pairwise_runsFrom {front run : List α} (cs : List α) (holds : ∀ a ∈ run, p a = true) :
    (runsFrom p front run cs).Pairwise fun r s => r.1.length < s.1.length := by
  induction cs generalizing front run with
  | nil =>
    rw [runsFrom, seen]
    split
    · exact .nil
    · exact List.pairwise_singleton _ _
  | cons a rest ih =>
    rw [runsFrom]
    split
    · rename_i h
      refine ih fun b mem => ?_
      rcases List.mem_append.1 mem with mem | mem
      · exact holds b mem
      · exact List.mem_singleton.1 mem ▸ h
    · refine List.pairwise_append.2 ⟨?_, ih (List.forall_mem_nil _), ?_⟩
      · rw [seen]
        split
        · exact .nil
        · exact List.pairwise_singleton _ _
      · rintro ⟨before, found⟩ first ⟨later, other⟩ second
        -- What is found later stands behind the item without the property.
        obtain ⟨_, rfl, _⟩ := mem_seen_iff.1 first
        obtain ⟨more, rfl, _⟩ := (mem_runsFrom_iff (List.forall_mem_nil _)).1 second
        simp only [List.length_append, List.length_singleton]
        omega

/-- The runs are found in the order in which they stand in the list. -/
lemma pairwise_runs (whole : List α) :
    (runs p whole).Pairwise fun r s => r.1.length < s.1.length :=
  pairwise_runsFrom whole (List.forall_mem_nil _)

/-- A stretch with the property is added to the run that has been seen. -/
lemma runsFrom_append {stretch : List α} (holds : ∀ a ∈ stretch, p a = true)
    (front run rest : List α) :
    runsFrom p front run (stretch ++ rest) = runsFrom p front (run ++ stretch) rest := by
  induction stretch generalizing run with
  | nil => rw [List.nil_append, List.append_nil]
  | cons a more ih =>
    rw [List.cons_append, runsFrom, if_pos (holds a List.mem_cons_self),
      ih fun b mem => holds b (List.mem_cons_of_mem a mem), List.append_assoc,
      List.singleton_append]

lemma runsFrom_stretch {stretch : List α} (holds : ∀ a ∈ stretch, p a = true) (front : List α) :
    runsFrom p front [] stretch = seen front stretch := by
  rw [← List.append_nil stretch, runsFrom_append holds, List.nil_append, runsFrom, List.append_nil]

/-- A stretch in front of an item without the property is a run, and the others come behind it. -/
lemma runsFrom_append_cons {stretch : List α} {a : α} (holds : ∀ a ∈ stretch, p a = true)
    (without : p a = false) (front rest : List α) :
    runsFrom p front [] (stretch ++ a :: rest) =
      seen front stretch ++ runsFrom p (front ++ stretch ++ [a]) [] rest := by
  rw [runsFrom_append holds, List.nil_append, runsFrom, if_neg (by simp [without])]

end WasmSourceMap.Text
