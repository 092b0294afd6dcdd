import Mathlib.Tactic.Lemma
import WasmSourceMap.Vlq

/-!
# Base64 numbers read back

The prefix property of the base64 numbers: a number is recognised at the front of any text
(`takeNat_encodeNat`), so numbers can follow each other without separators. A segment is such a run,
from which `decodeChars_encodeChars_append` takes the numbers off one by one
(`decodeChars_flatMap_encodeChars`).

The digits are all in the alphabet (`mem_alphabet_of_mem_encodeChars`), which keeps them apart from
the marks that separate segments and lines. For texts, `encode_selfDelimiting` says that integers
are read back in a row and anywhere in a text, and that none of them begins with another.
-/

namespace WasmSourceMap.Vlq

lemma digitValue?_digitChar {d : Nat} (h : d < 64) : digitValue? (digitChar d) = some d := by
  revert d
  decide

lemma digitChar_mem_alphabet (d : Nat) : digitChar d ∈ alphabet := by
  unfold digitChar
  rw [List.getD_eq_getElem?_getD]
  cases h : alphabet[d]? with
  | none => decide
  | some c => exact List.mem_of_getElem? h

/-- A number is read back in front of any text. -/
lemma takeNat_encodeNat (n : Nat) (rest : List Char) :
    takeNat (encodeNat n ++ rest) = .ok (n, rest) := by
  fun_induction encodeNat n with
  | case1 n small =>
    rw [List.singleton_append, takeNat, digitValue?_digitChar (by omega)]
    exact if_pos small
  | case2 n large ih =>
    rw [List.cons_append, takeNat, digitValue?_digitChar (by omega)]
    -- The continuation bit is what the digit has above its five bits.
    have more : ¬(32 + n % 32 < 32) := by omega
    have value : (32 + n % 32) % 32 + 32 * (n / 32) = n := by omega
    simp only [if_neg more, ih, value]

/-- The sign in the lowest bit is taken off again. -/
lemma unpack_pack (z : Int) : unpack (pack z) = z := by
  unfold pack unpack
  split <;> split <;> omega

lemma encodeChars_ne_nil (z : Int) : encodeChars z ≠ [] := by
  unfold encodeChars
  rw [encodeNat]
  split <;> simp

lemma mem_alphabet_of_mem_encodeNat {n : Nat} {c : Char} (h : c ∈ encodeNat n) : c ∈ alphabet := by
  fun_induction encodeNat n with
  | case1 n small =>
    rw [List.mem_singleton.1 h]
    exact digitChar_mem_alphabet n
  | case2 n large ih =>
    rcases List.mem_cons.1 h with rfl | h
    · exact digitChar_mem_alphabet _
    · exact ih h

lemma mem_alphabet_of_mem_encodeChars {z : Int} {c : Char} (h : c ∈ encodeChars z) :
    c ∈ alphabet :=
  mem_alphabet_of_mem_encodeNat h

lemma decodeChars_nil : decodeChars [] = .ok [] := by
  rw [decodeChars]
  exact if_pos rfl

/-- The first number of a run is read back, and the others follow. -/
lemma decodeChars_encodeChars_append (z : Int) (rest : List Char) :
    decodeChars (encodeChars z ++ rest) = (decodeChars rest).map (z :: ·) := by
  have first : takeNat (encodeChars z ++ rest) = .ok (pack z, rest) := takeNat_encodeNat _ _
  have nonempty : encodeChars z ++ rest ≠ [] := by simp [encodeChars_ne_nil z]
  rw [decodeChars, if_neg nonempty]
  split
  · rename_i fault e
    rw [first] at e
    cases e
  · rename_i n after e
    rw [first] at e
    cases e
    rw [unpack_pack]
    cases decodeChars rest <;> rfl

/-- A run of numbers is read back. -/
lemma decodeChars_flatMap_encodeChars (values : List Int) :
    decodeChars (values.flatMap encodeChars) = .ok values := by
  induction values with
  | nil => exact decodeChars_nil
  | cons z rest ih =>
    rw [List.flatMap_cons, decodeChars_encodeChars_append, ih]
    rfl

/-- An integer is read back wherever it stands in a text. -/
lemma decodeAt_encode (value : Int) (front rest : String) :
    decodeAt (front ++ encode value ++ rest) front.length =
      .ok (value, front.length + (encode value).length) := by
  have whole : (front ++ encode value ++ rest).toList =
      front.toList ++ (encodeChars value ++ rest.toList) := by
    rw [String.toList_append, String.toList_append, List.append_assoc, encode, String.toList_ofList]
  have size : (encode value).length = (encodeChars value).length := by
    rw [← String.length_toList, encode, String.toList_ofList]
  have behind : (front ++ encode value ++ rest).toList.drop front.length =
      encodeChars value ++ rest.toList := by
    rw [whole, ← String.length_toList, List.drop_left]
  have taken : takeNat (encodeChars value ++ rest.toList) = .ok (pack value, rest.toList) :=
    takeNat_encodeNat _ _
  rw [decodeAt, behind, taken, whole, size, ← String.length_toList]
  dsimp only
  rw [unpack_pack, List.length_append, List.length_append, ← Nat.add_assoc, Nat.add_sub_cancel]

/-- No integer begins with another one. -/
lemma encode_prefix_iff {value other : Int} :
    (encode value).toList <+: (encode other).toList ↔ value = other := by
  constructor
  · rintro ⟨rest, whole⟩
    rw [encode, encode, String.toList_ofList, String.toList_ofList] at whole
    have short : takeNat (encodeChars value ++ rest) = .ok (pack value, rest) :=
      takeNat_encodeNat _ _
    have long : takeNat (encodeChars other ++ []) = .ok (pack other, []) := takeNat_encodeNat _ _
    -- The same number is taken off both, since the texts are the same.
    rw [List.append_nil, ← whole, short] at long
    have packed : pack value = pack other := (Prod.mk.inj (Except.ok.inj long)).1
    rw [← unpack_pack value, packed, unpack_pack]
  · rintro rfl
    exact List.prefix_refl _

/-- Integers of any size need no separators: a run of them is read back, each is read back wherever
it stands in a text, and none of them begins with another. -/
theorem encode_selfDelimiting :
    (∀ values : List Int, decode (String.join (values.map encode)) = .ok values) ∧
      (∀ (value : Int) (front rest : String),
        decodeAt (front ++ encode value ++ rest) front.length =
          .ok (value, front.length + (encode value).length)) ∧
      ∀ value other : Int, (encode value).toList <+: (encode other).toList ↔ value = other := by
  refine ⟨fun values => ?_, decodeAt_encode, fun _ _ => encode_prefix_iff⟩
  have digits : (String.join (values.map encode)).toList = values.flatMap encodeChars := by
    rw [String.toList_join, List.flatMap_map]
    simp only [encode, String.toList_ofList]
  rw [decode, digits, decodeChars_flatMap_encodeChars]

end WasmSourceMap.Vlq
