import Mathlib.Tactic.Lemma

/-!
# Numbers in groups of digits

The numbers of a container and those of mappings are written alike: the lowest group of bits comes
first, each group is one symbol, and the symbol says whether another one follows. A `GroupCode` is
such a way of writing. A row of symbols that is a number (`Spells`) may end in groups of zero, and
every number has one row without them (`shortest`).

Whatever row a number is read from, it is the shortest one or it is longer
(`Spells.eq_shortest_or_lt`), and its last symbol tells which (`Spells.eq_shortest_iff`).
-/

namespace WasmSourceMap

/-- Symbols for the groups of a number, with digits below twice the base; behind a digit from the
base on another one follows. -/
structure GroupCode (α : Type) where
  base : Nat
  digit? : α → Option Nat
  symbol : Nat → α
  one_lt_base : 1 < base
  digit?_symbol : ∀ ⦃d⦄, d < 2 * base → digit? (symbol d) = some d
  symbol_of_digit? : ∀ ⦃a d⦄, digit? a = some d → d < 2 * base ∧ symbol d = a

namespace GroupCode

variable {α : Type} (code : GroupCode α)

/-- The symbols are those of a number, which may be padded. -/
inductive Spells : List α → Nat → Prop where
  | last {a : α} {d : Nat} (digit : code.digit? a = some d) (ends : d < code.base) : Spells [a] d
  | more {a : α} {d n : Nat} {rest : List α} (digit : code.digit? a = some d)
    (goesOn : code.base ≤ d) (others : Spells rest n) :
    Spells (a :: rest) (d % code.base + code.base * n)

/-- The symbols of a number without padding. -/
def shortest (n : Nat) : List α :=
  if n < code.base then [code.symbol n]
  else code.symbol (code.base + n % code.base) :: shortest (n / code.base)
termination_by n
decreasing_by exact Nat.div_lt_self (by have := code.one_lt_base; omega) code.one_lt_base

variable {code} {n : Nat} {symbols : List α}

lemma base_pos : 0 < code.base := Nat.lt_trans Nat.zero_lt_one code.one_lt_base

namespace Spells

lemma ne_nil (h : code.Spells symbols n) : symbols ≠ [] := by
  cases h <;> exact List.cons_ne_nil _ _

/-- One symbol alone is its digit. -/
lemma digit?_of_singleton {a : α} (h : code.Spells [a] n) : code.digit? a = some n := by
  cases h with
  | last digit _ => exact digit
  | more _ _ others => exact absurd rfl others.ne_nil

/-- A group in front of more than zero is the first symbol of the shortest form. -/
lemma shortest_more {a : α} {d : Nat} (digit : code.digit? a = some d) (goesOn : code.base ≤ d)
    (nonzero : n ≠ 0) : code.shortest (d % code.base + code.base * n) = a :: code.shortest n := by
  obtain ⟨small, rfl⟩ := code.symbol_of_digit? digit
  have low : d % code.base < code.base := Nat.mod_lt d base_pos
  have large : code.base ≤ code.base * n := Nat.le_mul_of_pos_right _ (Nat.pos_of_ne_zero nonzero)
  have first : (d % code.base + code.base * n) % code.base = d % code.base := by
    rw [Nat.add_mul_mod_self_left, Nat.mod_mod]
  have others : (d % code.base + code.base * n) / code.base = n := by
    rw [Nat.add_mul_div_left _ _ base_pos, Nat.div_eq_of_lt low, Nat.zero_add]
  have whole : code.base + d % code.base = d := by
    rw [Nat.mod_eq_sub_mod goesOn, Nat.mod_eq_of_lt (by omega)]
    omega
  rw [shortest, if_neg (by omega), first, others, whole]

/-- A group in front of zero is all that the shortest form needs. -/
lemma length_shortest_group (d : Nat) :
    (code.shortest (d % code.base + code.base * 0)).length = 1 := by
  have low : d % code.base < code.base := Nat.mod_lt d base_pos
  rw [Nat.mul_zero, Nat.add_zero, shortest, if_pos low, List.length_singleton]

/-- No row of symbols is shorter than the shortest form, and no other one is as short. -/
lemma eq_shortest_or_lt (h : code.Spells symbols n) :
    symbols = code.shortest n ∨ (code.shortest n).length < symbols.length := by
  induction h with
  | last digit ends =>
    rw [shortest, if_pos ends, (code.symbol_of_digit? digit).2]
    exact .inl rfl
  | @more a d n rest digit goesOn others ih =>
    by_cases zero : n = 0
    · subst zero
      rw [length_shortest_group, List.length_cons]
      have := List.length_pos_iff.2 others.ne_nil
      exact .inr (by omega)
    · rw [shortest_more digit goesOn zero]
      rcases ih with rfl | longer
      · exact .inl rfl
      · exact .inr (Nat.succ_lt_succ longer)

/-- Padding is all that zero is written with. -/
lemma getLast?_of_zero (h : code.Spells symbols n) (zero : n = 0) :
    symbols.getLast? = some (code.symbol 0) := by
  induction h with
  | last digit ends => rw [← (code.symbol_of_digit? digit).2, zero, List.getLast?_singleton]
  | more digit goesOn others ih =>
    have nothing := Nat.eq_zero_of_add_eq_zero_left zero
    have later := (Nat.mul_eq_zero.1 nothing).resolve_left (Nat.ne_of_gt base_pos)
    rw [List.getLast?_cons, ih later, Option.getD_some]

/-- One symbol for more than zero is not the padding. -/
lemma getLast?_ne_of_length (h : code.Spells symbols n) (one : symbols.length = 1) (nonzero : n ≠ 0) :
    symbols.getLast? ≠ some (code.symbol 0) := by
  obtain ⟨a, rfl⟩ := List.length_eq_one_iff.1 one
  intro padding
  have digit := h.digit?_of_singleton
  have zero : a = code.symbol 0 := Option.some.inj padding
  rw [zero, code.digit?_symbol (Nat.mul_pos Nat.two_pos base_pos)] at digit
  exact nonzero (Option.some.inj digit).symm

/-- A row of symbols is the shortest form if it is one symbol or does not end in padding. -/
lemma eq_shortest_iff (h : code.Spells symbols n) :
    symbols = code.shortest n ↔ symbols.length = 1 ∨ symbols.getLast? ≠ some (code.symbol 0) := by
  induction h with
  | last digit ends =>
    rw [shortest, if_pos ends, (code.symbol_of_digit? digit).2]
    exact ⟨fun _ => .inl rfl, fun _ => rfl⟩
  | @more a d n rest digit goesOn others ih =>
    obtain ⟨b, more, rfl⟩ := List.exists_cons_of_ne_nil others.ne_nil
    rw [List.getLast?_cons_cons]
    by_cases zero : n = 0
    · -- What follows the first group is padding.
      have padding := others.getLast?_of_zero zero
      subst zero
      constructor
      · intro same
        have := congrArg List.length same
        rw [length_shortest_group] at this
        simp at this
      · rintro (one | other)
        · simp at one
        · exact absurd padding other
    · rw [shortest_more digit goesOn zero, List.cons_inj_right, ih]
      constructor
      · rintro (one | other)
        · exact .inr (others.getLast?_ne_of_length one zero)
        · exact .inr other
      · rintro (one | other)
        · simp at one
        · exact .inr other

end Spells

end GroupCode

end WasmSourceMap
