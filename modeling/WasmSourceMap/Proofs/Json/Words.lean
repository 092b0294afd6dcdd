import Mathlib.Data.List.TakeWhile
import WasmSourceMap.Json.Parser

/-!
# Integers as words

A word of JSON is classified as a whole. The decimal digits of a natural number are an integer part
(`isIntegerPart_toDigits`) with that number as value, so the text of an integer is read back as the
integer (`ofWord?_toString`). None of its characters ends a word (`endsWord_of_mem_toString`), which
is what the scanner has to know of it.
-/

namespace WasmSourceMap.Json

/-- The digits of a natural number start with a zero only if there is no other digit. -/
lemma head_toDigits {n : Nat} (h : n ≠ 0) : (Nat.toDigits 10 n).head? ≠ some '0' := by
  induction n using Nat.strongRecOn with
  | ind n ih =>
    rw [Nat.toDigits_eq_if (by decide)]
    split
    · intro e
      simp only [List.head?_cons, Option.some.injEq] at e
      exact h (Nat.digitChar_eq_zero.1 e)
    · rename_i large
      have quotient : n / 10 ≠ 0 := by omega
      have front := ih (n / 10) (by omega) quotient
      cases e : Nat.toDigits 10 (n / 10) with
      | nil => exact absurd e Nat.toDigits_ne_nil
      | cons c rest =>
        rw [e] at front
        exact front

lemma all_isDigit_toDigits (n : Nat) : (Nat.toDigits 10 n).all Char.isDigit = true := by
  rw [List.all_eq_true]
  intro c hc
  exact Nat.isDigit_of_mem_toDigits (by decide) (by decide) hc

lemma isIntegerPart_toDigits (n : Nat) : isIntegerPart (Nat.toDigits 10 n) = true := by
  by_cases zero : n = 0
  · subst zero
    rfl
  · have first := head_toDigits zero
    have all := all_isDigit_toDigits n
    cases e : Nat.toDigits 10 n with
    | nil => exact absurd e Nat.toDigits_ne_nil
    | cons c rest =>
      rw [e] at first all
      have hc : c ≠ '0' := fun e => first (e ▸ rfl)
      rw [isIntegerPart.eq_3 _ _ fun e _ => hc e, all]
      simp [hc]

lemma magnitude?_toDigits (n : Nat) : magnitude? (Nat.toDigits 10 n) = some (some n) := by
  have all := List.all_eq_true.1 (all_isDigit_toDigits n)
  have whole := List.takeWhile_eq_self_iff.2 all
  have after := List.dropWhile_eq_nil_iff.2 all
  have value : digitsValue (Nat.toDigits 10 n) = n := Nat.ofDigitChars_ten_toDigits
  rw [magnitude?, whole, after, isIntegerPart_toDigits, value]
  rfl

/-- The digits of a natural number are none of the words with a meaning of their own. -/
lemma ofWord?_toDigits (n : Nat) : ofWord? (Nat.toDigits 10 n) = some (.integer n) := by
  have all := List.all_eq_true.1 (all_isDigit_toDigits n)
  -- Every other word begins with a letter or a sign.
  have other : ∀ c rest, c.isDigit = false → Nat.toDigits 10 n ≠ c :: rest := by
    intro c rest hc e
    have := all c (by rw [e]; exact List.mem_cons_self)
    rw [hc] at this
    cases this
  have names : ["NaN", "Infinity", "-Infinity"].contains (String.ofList (Nat.toDigits 10 n)) =
      false := by
    rw [List.contains_eq_mem, decide_eq_false_iff_not]
    intro m
    simp only [List.mem_cons, List.not_mem_nil, or_false] at m
    rcases m with e | e | e
    · exact other 'N' ['a', 'N'] rfl (String.ofList_injective e)
    · exact other 'I' "nfinity".toList rfl (String.ofList_injective e)
    · exact other '-' "Infinity".toList rfl (String.ofList_injective e)
  rw [ofWord?, if_neg (other _ _ rfl), if_neg (other _ _ rfl), if_neg (other _ _ rfl), names]
  simp only [Bool.false_eq_true, if_false, magnitude?_toDigits]
  · rfl
  · exact fun digits => other '-' digits rfl

/-- The text of a negative integer is its magnitude behind a sign. -/
lemma ofWord?_minus_toDigits (n : Nat) :
    ofWord? ('-' :: Nat.toDigits 10 n) = some (.integer (-n)) := by
  have infinity : Nat.toDigits 10 n ≠ "Infinity".toList := by
    intro e
    have := List.all_eq_true.1 (all_isDigit_toDigits n) 'I' (by rw [e]; decide)
    cases this
  have names : ["NaN", "Infinity", "-Infinity"].contains
      (String.ofList ('-' :: Nat.toDigits 10 n)) = false := by
    rw [List.contains_eq_mem, decide_eq_false_iff_not]
    intro m
    simp only [List.mem_cons, List.not_mem_nil, or_false] at m
    rcases m with e | e | e
    · cases String.ofList_injective (e.trans (String.ofList_toList).symm)
    · cases String.ofList_injective (e.trans (String.ofList_toList).symm)
    · exact infinity (List.cons.inj (String.ofList_injective e)).2
  rw [ofWord?, if_neg (by simp), if_neg (by simp), if_neg (by simp), names]
  simp only [Bool.false_eq_true, if_false, magnitude?_toDigits]
  rfl

/-- The text of an integer is its digits, behind a sign if it is negative. -/
lemma toList_toString (z : Int) :
    (toString z).toList =
      if 0 ≤ z then Nat.toDigits 10 z.toNat else '-' :: Nat.toDigits 10 (-z).toNat := by
  rw [Int.toString_eq_repr, Int.repr_eq_if]
  split
  · exact Nat.toList_repr
  · rw [String.toList_append, Nat.toList_repr]
    rfl

/-- The text of an integer is the word of the integer. -/
lemma ofWord?_toString (z : Int) : ofWord? (toString z).toList = some (.integer z) := by
  rw [toList_toString]
  split
  · rw [ofWord?_toDigits, Int.toNat_of_nonneg ‹_›]
  · rw [ofWord?_minus_toDigits, Int.toNat_of_nonneg (by omega), Int.neg_neg]

/-- The characters that end a word. -/
lemma mem_of_endsWord {c : Char} (h : Token.endsWord c = true) :
    c ∈ [' ', '\t', '\n', '\r', '\x7b', '\x7d', '[', ']', ':', ',', '"'] := by
  simp only [Token.endsWord, Token.isBlank, Bool.or_eq_true, beq_iff_eq] at h
  rcases h with ((((rfl | rfl) | rfl) | rfl) | mark) | rfl
  case inl.inr =>
    unfold Token.ofMark? at mark
    split at mark
    case h_7 => cases mark
    all_goals simp
  all_goals simp

lemma endsWord_of_isDigit {c : Char} (h : c.isDigit = true) : Token.endsWord c = false := by
  rw [Bool.eq_false_iff]
  intro e
  have digits : ∀ d ∈ [' ', '\t', '\n', '\r', '\x7b', '\x7d', '[', ']', ':', ',', '"'],
      d.isDigit = false := by simp
  rw [digits c (mem_of_endsWord e)] at h
  cases h

lemma endsWord_of_all {word : List Char} (h : word.all (fun c => !Token.endsWord c) = true) :
    ∀ c ∈ word, Token.endsWord c = false := by
  intro c hc
  have inside := List.all_eq_true.1 h c hc
  rwa [Bool.not_eq_true'] at inside

/-- No character of the text of an integer ends a word. -/
lemma endsWord_of_mem_toString {z : Int} {c : Char} (h : c ∈ (toString z).toList) :
    Token.endsWord c = false := by
  have digit : ∀ n : Nat, c ∈ Nat.toDigits 10 n → Token.endsWord c = false := fun n m =>
    endsWord_of_isDigit (List.all_eq_true.1 (all_isDigit_toDigits n) c m)
  rw [toList_toString] at h
  split at h
  · exact digit _ h
  · rcases List.mem_cons.1 h with rfl | h
    · rfl
    · exact digit _ h

end WasmSourceMap.Json
