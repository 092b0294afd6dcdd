import Mathlib.Tactic.Lemma
import WasmSourceMap.Text.Utf8

/-!
# Decoding undoes UTF-8

The decoder is a machine over bytes. From between characters it reads the bytes of a character, in
front of any others, as the character and stands between characters again (`decodeFrom_encodeChar`),
so it reads the bytes of a text as the text (`decode_encode`).
-/

namespace WasmSourceMap.Text.Utf8

lemma toNat_ofNat {n : Nat} (h : n < 256) : (UInt8.ofNat n).toNat = n := by
  rw [UInt8.toNat_ofNat']
  exact Nat.mod_eq_of_lt h

/-- A byte that goes on with an open character to which it is not the last. -/
lemma decodeFrom_pending {value need low high n : Nat} (inside : low ≤ n ∧ n ≤ high)
    (more : need ≠ 1) (byte : n < 256) (rest : Bytes) :
    decodeFrom (.pending value need low high) (UInt8.ofNat n :: rest) =
      decodeFrom (.pending (value * 64 + n % 64) (need - 1) 0x80 0xBF) rest := by
  rw [decodeFrom, toNat_ofNat byte, step, if_pos inside, if_neg more]
  rfl

/-- A byte that completes an open character. -/
lemma decodeFrom_last {value low high n : Nat} (inside : low ≤ n ∧ n ≤ high) (byte : n < 256)
    (rest : Bytes) :
    decodeFrom (.pending value 1 low high) (UInt8.ofNat n :: rest) =
      Char.ofNat (value * 64 + n % 64) :: decodeFrom .ground rest := by
  rw [decodeFrom, toNat_ofNat byte, step, if_pos inside, if_pos rfl]
  rfl

lemma decodeFrom_single {n : Nat} (h : n < 0x80) (rest : Bytes) :
    decodeFrom .ground (UInt8.ofNat n :: rest) = Char.ofNat n :: decodeFrom .ground rest := by
  rw [decodeFrom, toNat_ofNat (by omega), step, start, if_pos h]
  rfl

lemma decodeFrom_two {k : Nat} (low : 2 ≤ k) (high : k < 32) (rest : Bytes) :
    decodeFrom .ground (UInt8.ofNat (0xC0 + k) :: rest) =
      decodeFrom (.pending k 1 0x80 0xBF) rest := by
  rw [decodeFrom, toNat_ofNat (by omega), step, start]
  rw [if_neg (by omega), if_neg (by omega), if_pos (by omega), Nat.add_sub_cancel_left]
  rfl

lemma decodeFrom_three {k : Nat} (high : k < 16) (rest : Bytes) :
    decodeFrom .ground (UInt8.ofNat (0xE0 + k) :: rest) =
      decodeFrom (.pending k 2 (if 0xE0 + k = 0xE0 then 0xA0 else 0x80)
        (if 0xE0 + k = 0xED then 0x9F else 0xBF)) rest := by
  rw [decodeFrom, toNat_ofNat (by omega), step, start]
  rw [if_neg (by omega), if_neg (by omega), if_neg (by omega), if_pos (by omega)]
  rw [Nat.add_sub_cancel_left]
  rfl

lemma decodeFrom_four {k : Nat} (high : k < 5) (rest : Bytes) :
    decodeFrom .ground (UInt8.ofNat (0xF0 + k) :: rest) =
      decodeFrom (.pending k 3 (if 0xF0 + k = 0xF0 then 0x90 else 0x80)
        (if 0xF0 + k = 0xF4 then 0x8F else 0xBF)) rest := by
  rw [decodeFrom, toNat_ofNat (by omega), step, start]
  rw [if_neg (by omega), if_neg (by omega), if_neg (by omega), if_neg (by omega),
    if_pos (by omega)]
  rw [Nat.add_sub_cancel_left]
  rfl

/-- The bytes of a character are read as the character. -/
lemma decodeFrom_encodeChar (c : Char) (rest : Bytes) :
    decodeFrom .ground (encodeChar c ++ rest) = c :: decodeFrom .ground rest := by
  have valid : c.toNat < 0xD800 ∨ 0xDFFF < c.toNat ∧ c.toNat < 0x110000 := c.valid
  have back : ∀ n, n = c.toNat → Char.ofNat n = c := fun n e => e ▸ Char.ofNat_toNat c
  unfold encodeChar
  dsimp only
  split
  · rw [List.singleton_append, decodeFrom_single (by assumption), Char.ofNat_toNat]
  split
  · simp only [List.cons_append, List.nil_append]
    rw [decodeFrom_two (by omega) (by omega), decodeFrom_last (by omega) (by omega)]
    rw [back _ (by omega)]
  -- The bounds of the second byte leave out what has a shorter form and what is no character.
  split
  · simp only [List.cons_append, List.nil_append]
    rw [decodeFrom_three (by omega)]
    rw [decodeFrom_pending (by split <;> split <;> omega) (by decide) (by omega)]
    rw [decodeFrom_last (by omega) (by omega), back _ (by omega)]
  · simp only [List.cons_append, List.nil_append]
    rw [decodeFrom_four (by omega)]
    rw [decodeFrom_pending (by split <;> split <;> omega) (by decide) (by omega)]
    rw [decodeFrom_pending (by omega) (by decide) (by omega)]
    rw [decodeFrom_last (by omega) (by omega), back _ (by omega)]

lemma decodeFrom_encodeChars (cs : List Char) (rest : Bytes) :
    decodeFrom .ground (encodeChars cs ++ rest) = cs ++ decodeFrom .ground rest := by
  induction cs with
  | nil => rfl
  | cons c cs ih =>
    rw [encodeChars, List.flatMap_cons, List.append_assoc, decodeFrom_encodeChar]
    exact congrArg (c :: ·) ih

/-- A text is read back from its bytes. -/
theorem decode_encode (s : String) : decode (encode s) = s := by
  have all := decodeFrom_encodeChars s.toList []
  rw [List.append_nil] at all
  rw [decode, decodeChars, encode, all]
  show String.ofList (s.toList ++ []) = s
  rw [List.append_nil, String.ofList_toList]

/-- The bytes of a text are accepted as such. -/
theorem decode?_encode (s : String) : decode? (encode s) = some s := by
  rw [decode?, decode_encode]
  exact if_pos rfl

lemma decode?_eq_some_iff {data : Bytes} {text : String} :
    decode? data = some text ↔ data = encode text := by
  constructor
  · intro h
    unfold decode? at h
    dsimp only at h
    split at h
    · rename_i same
      rw [← Option.some.inj h, same]
    · cases h
  · rintro rfl
    exact decode?_encode text

end WasmSourceMap.Text.Utf8
