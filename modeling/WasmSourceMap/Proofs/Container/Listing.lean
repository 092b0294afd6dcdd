import WasmSourceMap.Container.Module
import WasmSourceMap.Proofs.Reader.Extension
import WasmSourceMap.Proofs.Results

/-!
# What relocation sections list

A relocation section lists places of one target, and counts them from the content of the target, of
which the name of a custom section is a part. A module keeps them counted from the payload. Here
both are set side by side: `Listing.read` reads a list as the file has it, every relocation section
of a module is such a list with the name taken off each place (`readAll_listed`), and the
relocations of a target are those of the last section that lists some for it (`relocationsAt_last`).
-/

namespace WasmSourceMap.Container

/-- The bytes of the content before the payload, which hold the name of a custom section. -/
def Section.nameSize (s : Section) : Nat := s.dataOffset - s.offset

/-- A relocation as the file has it; its place counts from the content of the target. -/
structure ListedRelocation where
  code : Nat
  place : Nat
  symbol : Nat
  addend : Int

namespace ListedRelocation

def read : Reader Fault ListedRelocation := do
  let code ← Reader.byte
  let place ← Reader.uleb
  let symbol ← Reader.uleb
  let addend ← Relocation.readAddend code.toNat
  return { code := code.toNat, place, symbol, addend }

/-- The relocation as a module keeps it, if the name of the target takes `nameSize` bytes. -/
def inPayload (nameSize : Nat) (l : ListedRelocation) : Relocation where
  offset := l.place - nameSize
  code := l.code
  kind := .ofCode l.code
  symbol := some l.symbol
  addend := l.addend

end ListedRelocation

/-- The index of a target and the relocations of it. -/
structure Listing where
  target : Nat
  entries : List ListedRelocation

def Listing.read : Reader Fault Listing := do
  let target ← Reader.uleb
  let count ← Reader.uleb
  let entries ← Reader.times count ListedRelocation.read
  return { target, entries }

/-- The payload of a section is a list, and the relocations are those of the list. -/
def RelocationSection.Listed (sections : List Section) (data : Bytes) (s : Section)
    (r : RelocationSection) : Prop :=
  ∃ (target : Section) (entries : List ListedRelocation) (next : Nat),
    sections[r.target]? = some target ∧
    Listing.read data s.dataOffset = .done ⟨r.target, entries⟩ next ∧
    r.entries = entries.map (·.inPayload target.nameSize) ∧
    ∀ l ∈ entries, target.nameSize ≤ l.place

/-- What the last relocation section lists for a target, nothing if there is none for it. -/
inductive Module.LastListing (m : Module) (target : Nat) : List ListedRelocation → Prop where
  | none
      (nowhere : ∀ s ∈ m.sections.filter RelocationSection.isRelocation, ∀ l next,
        Listing.read m.data s.dataOffset = .done l next → l.target ≠ target) :
      LastListing m target []
  | some {before after : List Section} {s : Section} {entries : List ListedRelocation} {next : Nat}
      (split : m.sections.filter RelocationSection.isRelocation = before ++ s :: after)
      (read : Listing.read m.data s.dataOffset = .done ⟨target, entries⟩ next)
      (last : ∀ s' ∈ after, ∀ l next,
        Listing.read m.data s'.dataOffset = .done l next → l.target ≠ target) :
      LastListing m target entries

variable {data : Bytes} {position next : Nat}

namespace Relocation

variable {sectionName : String} {nameSize : Nat}

/-- A relocation is what the file has, with the name taken off its place. -/
lemma read_listed {r : Relocation} (h : read sectionName nameSize data position = .done r next) :
    ∃ l, ListedRelocation.read data position = .done l next ∧ r = l.inPayload nameSize ∧
      nameSize ≤ l.place := by
  obtain ⟨code, p₁, h₁, h⟩ := Reader.bind_done h
  obtain ⟨place, p₂, h₂, h⟩ := Reader.bind_done h
  obtain ⟨symbol, p₃, h₃, h⟩ := Reader.bind_done h
  obtain ⟨addend, p₄, h₄, h⟩ := Reader.bind_done h
  obtain ⟨_, p₅, h₅, h⟩ := Reader.bind_done h
  obtain ⟨rfl, rfl⟩ := Reader.pure_done h
  obtain ⟨behind, rfl⟩ := Reader.check_done h₅
  refine ⟨⟨code.toNat, place, symbol, addend⟩, ?_, rfl, of_decide_eq_true behind⟩
  refine (Reader.bind_of_done h₁).trans ?_
  refine (Reader.bind_of_done h₂).trans ?_
  refine (Reader.bind_of_done h₃).trans ?_
  exact Reader.bind_of_done h₄

lemma times_listed {count : Nat} {rs : List Relocation}
    (h : Reader.times count (read sectionName nameSize) data position = .done rs next) :
    ∃ ls, Reader.times count ListedRelocation.read data position = .done ls next ∧
      rs = ls.map (·.inPayload nameSize) ∧ ∀ l ∈ ls, nameSize ≤ l.place := by
  induction count generalizing position rs with
  | zero =>
    obtain ⟨rfl, rfl⟩ := Reader.pure_done h
    exact ⟨[], rfl, rfl, nofun⟩
  | succ count ih =>
    obtain ⟨r, p₁, h₁, h⟩ := Reader.bind_done h
    obtain ⟨others, p₂, h₂, h⟩ := Reader.bind_done h
    obtain ⟨rfl, rfl⟩ := Reader.pure_done h
    obtain ⟨l, first, rfl, behind⟩ := read_listed h₁
    obtain ⟨ls, rest, rfl, allBehind⟩ := ih h₂
    refine ⟨l :: ls, ?_, rfl, List.forall_mem_cons.2 ⟨behind, allBehind⟩⟩
    refine (Reader.bind_of_done first).trans ?_
    exact Reader.bind_of_done rest

end Relocation

namespace RelocationSection

variable {sections : List Section} {s : Section}

lemma read_listed {r : RelocationSection} (h : read sections s data position = .done r next) :
    Listed sections data s r := by
  obtain ⟨_, p₁, h₁, h⟩ := Reader.bind_done h
  obtain ⟨target, p₂, h₂, h⟩ := Reader.bind_done h
  obtain ⟨entries, p₃, h₃, h⟩ := Reader.bind_done h
  obtain ⟨rfl, rfl⟩ := Reader.pure_done h
  obtain rfl := Reader.seek_done (Reader.mapFault_done h₁)
  unfold readEntries at h₃
  cases found : sections[target]? with
  | none =>
    rw [found] at h₃
    cases h₃
  | some t =>
    rw [found] at h₃
    obtain ⟨count, p₄, h₄, h₃⟩ := Reader.bind_done h₃
    obtain ⟨ls, all, rfl, behind⟩ := Relocation.times_listed h₃
    refine ⟨t, ls, p₃, found, ?_, rfl, behind⟩
    refine (Reader.bind_of_done h₂).trans ?_
    refine (Reader.bind_of_done h₄).trans ?_
    exact Reader.bind_of_done all

/-- The relocation sections of a module are lists, in file order. -/
lemma readAll_listed {wanted : List Section} {rs : List RelocationSection}
    (h : readAll sections wanted data position = .done rs next) :
    List.Forall₂ (Listed sections data) wanted rs := by
  induction wanted generalizing position rs with
  | nil =>
    obtain ⟨rfl, _⟩ := Reader.pure_done h
    exact .nil
  | cons s rest ih =>
    obtain ⟨r, p₁, h₁, h⟩ := Reader.bind_done h
    obtain ⟨others, p₂, h₂, h⟩ := Reader.bind_done h
    obtain ⟨rfl, rfl⟩ := Reader.pure_done h
    exact .cons (read_listed h₁) (ih h₂)

/-- What is read for a section decides what the section is a list of. -/
lemma Listed.target_eq {r : RelocationSection} (listed : Listed sections data s r) {l : Listing}
    (h : Listing.read data s.dataOffset = .done l next) : l.target = r.target := by
  obtain ⟨_, entries, _, _, read, _⟩ := listed
  rw [read] at h
  cases h
  rfl

end RelocationSection

/-- Lists that are related item by item split at the same place. -/
lemma forall₂_split {α β : Type} {R : α → β → Prop} {xs : List α} {before after : List β} {b : β}
    (h : List.Forall₂ R xs (before ++ b :: after)) :
    ∃ first x rest, xs = first ++ x :: rest ∧ List.Forall₂ R first before ∧ R x b ∧
      List.Forall₂ R rest after := by
  have front := List.forall₂_take_append xs before (b :: after) h
  have behind := List.forall₂_drop_append xs before (b :: after) h
  obtain ⟨x, rest, related, others, split⟩ := List.forall₂_cons_right_iff.1 behind
  refine ⟨xs.take before.length, x, rest, ?_, front, related, others⟩
  rw [← split, List.take_append_drop]

lemma exists_of_forall₂ {α β : Type} {R : α → β → Prop} {xs : List α} {ys : List β}
    (h : List.Forall₂ R xs ys) {x : α} (mem : x ∈ xs) : ∃ y ∈ ys, R x y := by
  induction h with
  | nil => cases mem
  | cons related _ ih =>
    cases mem with
    | head => exact ⟨_, List.mem_cons_self, related⟩
    | tail _ later =>
      obtain ⟨y, inside, relatedLater⟩ := ih later
      exact ⟨y, List.mem_cons_of_mem _ inside, relatedLater⟩

/-- The last item with a property splits a list, and no item after it has the property. -/
lemma last_split {α : Type} {p : α → Bool} {xs : List α} {x : α} (h : xs.reverse.find? p = some x) :
    p x = true ∧ ∃ before after, xs = before ++ x :: after ∧ ∀ y ∈ after, p y = false := by
  obtain ⟨here, after, before, reversed, others⟩ := List.find?_eq_some_iff_append.1 h
  refine ⟨here, before.reverse, after.reverse, ?_, ?_⟩
  · rw [← List.reverse_reverse xs, reversed]
    simp
  · intro y mem
    have miss := others y (List.mem_reverse.1 mem)
    rw [Bool.not_eq_true'] at miss
    exact miss

namespace Module

variable {m : Module} {target : Nat} {t : Section}

/-- No section of some lists relocations for a target that none of them is a list of. -/
lemma not_listing {wanted : List Section} {rs : List RelocationSection}
    (listed : List.Forall₂ (RelocationSection.Listed m.sections m.data) wanted rs)
    (other : ∀ r ∈ rs, r.target ≠ target) :
    ∀ s ∈ wanted, ∀ l next, Listing.read m.data s.dataOffset = .done l next → l.target ≠ target := by
  intro s mem l next read
  obtain ⟨r, inside, isListed⟩ := exists_of_forall₂ listed mem
  rw [isListed.target_eq read]
  exact other r inside

/-- The relocations of a target are what the last relocation section for it lists, with the name of
the target taken off. -/
lemma relocationsAt_last
    (listed : List.Forall₂ (RelocationSection.Listed m.sections m.data)
      (m.sections.filter RelocationSection.isRelocation) m.relocations)
    (found : m.sections[target]? = some t) :
    ∃ entries, m.LastListing target entries ∧
      (m.relocationsAt target).getD [] = entries.map (·.inPayload t.nameSize) ∧
      ∀ l ∈ entries, t.nameSize ≤ l.place := by
  unfold relocationsAt
  cases last : m.relocations.reverse.find? (fun r => r.target == target) with
  | none =>
    have other : ∀ r ∈ m.relocations, r.target ≠ target := by
      intro r mem same
      exact List.find?_eq_none.1 last r (List.mem_reverse.2 mem) (beq_iff_eq.2 same)
    exact ⟨[], .none (not_listing listed other), rfl, nofun⟩
  | some r =>
    obtain ⟨same, before, after, split, others⟩ := last_split last
    have hit : r.target = target := beq_iff_eq.1 same
    have notLater : ∀ r' ∈ after, r'.target ≠ target := by
      intro r' mem
      exact beq_eq_false_iff_ne.1 (others r' mem)
    rw [split] at listed
    obtain ⟨first, s, rest, sections, _, isListed, later⟩ := forall₂_split listed
    obtain ⟨t', entries, next, found', read, shifted, behind⟩ := isListed
    rw [hit] at found' read
    obtain rfl := Option.some.inj (found.symm.trans found')
    exact ⟨entries, .some sections read (not_listing later notLater), shifted, behind⟩

end Module

end WasmSourceMap.Container
