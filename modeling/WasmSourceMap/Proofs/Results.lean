import Mathlib.Data.List.Forall2
import Mathlib.Tactic.Lemma

/-!
# Results of computations that may fail

Lemmas for `Except`, most of them inversions: what a step after a step, or a step on each item of a
list, did if its result is known. Proofs about computations that may fail take them apart with
these.
-/

namespace WasmSourceMap.Except

variable {ε ε' α β γ : Type}

/-- Both steps of a computation that succeeds succeed. -/
lemma bind_ok {x : Except ε α} {f : α → Except ε β} {b : β} (h : x >>= f = .ok b) :
    ∃ a, x = .ok a ∧ f a = .ok b := by
  cases x with
  | error fault => cases h
  | ok a => exact ⟨a, rfl, h⟩

lemma ok_bind (a : α) (f : α → Except ε β) : Except.ok a >>= f = f a := rfl

/-- One of the steps of a computation that fails fails. -/
lemma bind_error {x : Except ε α} {f : α → Except ε β} {fault : ε} (h : x >>= f = .error fault) :
    x = .error fault ∨ ∃ a, x = .ok a ∧ f a = .error fault := by
  cases x with
  | error own =>
    cases h
    exact .inl rfl
  | ok a => exact .inr ⟨a, rfl, h⟩

lemma map_bind (x : Except ε α) (f : α → Except ε β) (g : β → γ) :
    (x >>= f).map g = x >>= fun a => (f a).map g := by
  cases x <;> rfl

/-- A success does not depend on how faults are told. -/
lemma ok_of_mapError {x : Except ε α} {f : ε → ε'} {a : α} (h : x.mapError f = .ok a) :
    x = .ok a := by
  cases x with
  | error fault => cases h
  | ok b => rw [Except.ok.inj h]

lemma error_of_mapError {x : Except ε α} {f : ε → ε'} {fault : ε'}
    (h : x.mapError f = .error fault) : ∃ own, x = .error own ∧ f own = fault := by
  cases x with
  | error own => exact ⟨own, rfl, Except.error.inj h⟩
  | ok a => cases h

lemma map_ok {x : Except ε α} {f : α → β} {b : β} (h : x.map f = .ok b) :
    ∃ a, x = .ok a ∧ f a = b := by
  cases x with
  | error own => cases h
  | ok a => exact ⟨a, rfl, Except.ok.inj h⟩

lemma error_of_map {x : Except ε α} {f : α → β} {fault : ε} (h : x.map f = .error fault) :
    x = .error fault := by
  cases x with
  | error own => exact congrArg Except.error (Except.error.inj h)
  | ok a => cases h

lemma ok_of_toOption {x : Except ε α} {a : α} (h : x.toOption = some a) : x = .ok a := by
  cases x with
  | error fault => cases h
  | ok b => rw [Option.some.inj h]

/-- A step that succeeds on a list succeeds on each item. -/
lemma mapM_ok {f : α → Except ε β} {items : List α} {results : List β}
    (h : items.mapM f = .ok results) : List.Forall₂ (fun a b => f a = .ok b) items results := by
  induction items generalizing results with
  | nil =>
    cases h
    exact .nil
  | cons a rest ih =>
    rw [List.mapM_cons] at h
    obtain ⟨b, first, h⟩ := bind_ok h
    obtain ⟨later, others, h⟩ := bind_ok h
    cases h
    exact .cons first (ih others)

/-- What a step on a list gives it gives for an item. -/
lemma mem_mapM_ok {f : α → Except ε β} {items : List α} {results : List β} {b : β}
    (h : items.mapM f = .ok results) (mem : b ∈ results) : ∃ a ∈ items, f a = .ok b := by
  have each := mapM_ok h
  clear h
  induction each with
  | nil => cases mem
  | @cons a first rest others here _ ih =>
    rcases List.mem_cons.1 mem with rfl | mem
    · exact ⟨a, List.mem_cons_self, here⟩
    · obtain ⟨x, m, e⟩ := ih mem
      exact ⟨x, List.mem_cons_of_mem a m, e⟩

/-- A step that succeeds on a list succeeds on any item of it. -/
lemma ok_of_mem_mapM {f : α → Except ε β} {items : List α} {results : List β} {a : α}
    (h : items.mapM f = .ok results) (mem : a ∈ items) : ∃ b, f a = .ok b := by
  have each := mapM_ok h
  clear h
  induction each with
  | nil => cases mem
  | @cons x b rest _ here _ ih =>
    rcases List.mem_cons.1 mem with rfl | mem
    · exact ⟨b, here⟩
    · exact ih mem

/-- A step that fails on a list fails on an item. -/
lemma mapM_error {f : α → Except ε β} {items : List α} {fault : ε}
    (h : items.mapM f = .error fault) : ∃ a ∈ items, f a = .error fault := by
  induction items with
  | nil => cases h
  | cons a rest ih =>
    rw [List.mapM_cons] at h
    rcases bind_error h with here | ⟨b, _, h⟩
    · exact ⟨a, List.mem_cons_self, here⟩
    · rcases bind_error h with later | ⟨others, _, h⟩
      · obtain ⟨x, m, e⟩ := ih later
        exact ⟨x, List.mem_cons_of_mem a m, e⟩
      · cases h

/-- A step that succeeds on each item succeeds on the list. -/
lemma mapM_of_forall₂ {f : α → Except ε β} {items : List α} {results : List β}
    (h : List.Forall₂ (fun a b => f a = .ok b) items results) : items.mapM f = .ok results := by
  induction h with
  | nil => rfl
  | cons first _ ih =>
    rw [List.mapM_cons, first, ok_bind, ih]
    rfl

/-- A step that succeeds on each item, with a result of some property, does so on the list. -/
lemma exists_mapM_ok {f : α → Except ε β} {R : α → β → Prop} {items : List α}
    (each : ∀ a ∈ items, ∃ b, f a = .ok b ∧ R a b) :
    ∃ results, items.mapM f = .ok results ∧ List.Forall₂ R items results := by
  induction items with
  | nil => exact ⟨[], rfl, .nil⟩
  | cons a rest ih =>
    obtain ⟨⟨b, first, related⟩, others⟩ := List.forall_mem_cons.1 each
    obtain ⟨results, later, allRelated⟩ := ih others
    refine ⟨b :: results, ?_, .cons related allRelated⟩
    rw [List.mapM_cons, first, ok_bind, later]
    rfl

/-- A step fails on a list as it fails on the first item that it fails on. -/
lemma mapM_error_iff {f : α → Except ε β} {items : List α} {fault : ε} :
    items.mapM f = .error fault ↔ ∃ before a after, items = before ++ a :: after ∧
      (∀ x ∈ before, ∃ b, f x = .ok b) ∧ f a = .error fault := by
  induction items with
  | nil =>
    constructor
    · intro h
      cases h
    · rintro ⟨before, a, after, split, _⟩
      cases before <;> cases split
  | cons first rest ih =>
    rw [List.mapM_cons]
    cases here : f first with
    | error own =>
      constructor
      · intro h
        cases h
        exact ⟨[], first, rest, rfl, nofun, here⟩
      · rintro ⟨before, a, after, split, succeeds, failed⟩
        cases before with
        | nil =>
          cases split
          cases here.symm.trans failed
          rfl
        | cons x before =>
          cases split
          obtain ⟨b, e⟩ := succeeds first List.mem_cons_self
          cases here.symm.trans e
    | ok b =>
      have later : (do let bs ← rest.mapM f; pure (b :: bs)) = .error fault ↔
          rest.mapM f = .error fault := by
        cases rest.mapM f with
        | error own => exact Iff.rfl
        | ok bs => exact ⟨nofun, nofun⟩
      rw [ok_bind, later, ih]
      constructor
      · rintro ⟨before, a, after, rfl, succeeds, failed⟩
        exact ⟨first :: before, a, after, rfl,
          List.forall_mem_cons.2 ⟨⟨b, here⟩, succeeds⟩, failed⟩
      · rintro ⟨before, a, after, split, succeeds, failed⟩
        cases before with
        | nil =>
          cases split
          cases here.symm.trans failed
        | cons x before =>
          cases split
          exact ⟨before, a, after, rfl, (List.forall_mem_cons.1 succeeds).2, failed⟩

end WasmSourceMap.Except
