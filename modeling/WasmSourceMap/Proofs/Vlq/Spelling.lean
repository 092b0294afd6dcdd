import WasmSourceMap.Proofs.GroupCode
import WasmSourceMap.Proofs.Vlq.RoundTrip

/-!
# Spellings of base64 numbers

An integer is read from any row of digits that spells its packed magnitude: `takeNat` takes such a
row off the front of a text (`takeNat_ok`). Among the rows that are read as one integer the written
one is the shortest, and it is the only one without a group of zero at its end
(`encode_of_decodeAt`), but for zero, which has a spelling of its own when it is negative.
-/

namespace WasmSourceMap.Vlq

lemma digitChar_of_digitValue? {c : Char} {d : Nat} (h : digitValue? c = some d) :
    d < 64 ∧ digitChar d = c := by
  obtain ⟨inside, here, _⟩ := List.idxOf?_eq_some_iff.1 h
  refine ⟨inside, ?_⟩
  rw [digitChar, List.getD_eq_getElem?_getD, List.getElem?_eq_getElem inside, here]
  rfl

/-- Groups of five bits, with the characters of the alphabet. -/
def groupCode : GroupCode Char where
  base := 32
  digit? := digitValue?
  symbol := digitChar
  one_lt_base := by decide
  digit?_symbol _ small := digitValue?_digitChar small
  symbol_of_digit? _ _ digit := digitChar_of_digitValue? digit

lemma encodeNat_eq_shortest (n : Nat) : encodeNat n = groupCode.shortest n := by
  fun_induction encodeNat n with
  | case1 n small =>
    rw [GroupCode.shortest]
    exact (if_pos small).symm
  | case2 n large ih =>
    rw [GroupCode.shortest, ih]
    exact (if_neg large).symm

/-- What is taken off the front of a text is a spelling of the number. -/
lemma takeNat_ok {cs after : List Char} {n : Nat} (h : takeNat cs = .ok (n, after)) :
    ∃ spelling, cs = spelling ++ after ∧ groupCode.Spells spelling n := by
  induction cs generalizing n with
  | nil => cases h
  | cons c rest ih =>
    rw [takeNat] at h
    split at h
    · cases h
    · rename_i d digit
      split at h
      · rename_i small
        cases h
        exact ⟨[c], rfl, .last digit small⟩
      · rename_i large
        split at h
        · rename_i m later others
          cases h
          obtain ⟨spelling, rfl, spells⟩ := ih others
          exact ⟨c :: spelling, rfl, .more digit (Nat.le_of_not_lt large) spells⟩
        · cases h

/-- Only the negative zero is packed differently from how it was spelled. -/
lemma pack_unpack {n : Nat} (h : n ≠ 1) : pack (unpack n) = n := by
  unfold pack unpack
  split <;> split <;> omega

lemma encodeChars_unpack_one : encodeChars (unpack 1) = ['A'] := by
  rw [encodeChars, encodeNat]
  rfl

lemma encodeNat_one : encodeNat 1 = ['B'] := by
  rw [encodeNat]
  rfl

/-- A spelling is written again for its integer if it is not the negative zero and not padded. -/
lemma encodeChars_unpack_iff {spelling : List Char} {n : Nat} (h : groupCode.Spells spelling n) :
    encodeChars (unpack n) = spelling ↔
      spelling ≠ ['B'] ∧ (spelling.length = 1 ∨ spelling.getLast? ≠ some 'A') := by
  have unpadded : spelling = encodeNat n ↔ spelling.length = 1 ∨ spelling.getLast? ≠ some 'A' := by
    rw [encodeNat_eq_shortest]
    exact h.eq_shortest_iff
  by_cases one : n = 1
  · subst one
    rw [← unpadded, encodeChars_unpack_one, encodeNat_one]
    constructor
    · rintro rfl
      -- The one digit that is written for zero spells zero and not one.
      exact absurd h.digit?_of_singleton (by decide)
    · rintro ⟨other, same⟩
      exact absurd same other
  · rw [encodeChars, pack_unpack one, eq_comm, unpadded]
    refine ⟨fun short => ⟨?_, short⟩, And.right⟩
    rintro rfl
    have digit : digitValue? 'B' = some n := h.digit?_of_singleton
    exact one (Option.some.inj digit.symm)

lemma length_encodeChars_unpack_le {spelling : List Char} {n : Nat}
    (h : groupCode.Spells spelling n) : (encodeChars (unpack n)).length ≤ spelling.length := by
  by_cases one : n = 1
  · rw [one, encodeChars_unpack_one]
    exact List.length_pos_iff.2 h.ne_nil
  · rw [encodeChars, pack_unpack one, encodeNat_eq_shortest]
    rcases h.eq_shortest_or_lt with same | shorter
    · exact Nat.le_of_eq (congrArg List.length same.symm)
    · exact Nat.le_of_lt shorter

/-- The part of a text from one position up to another. -/
def between (text : String) (start stop : Nat) : String :=
  String.ofList ((text.toList.take stop).drop start)

/-- A position of a text at which an integer is read, and the spelling that stands there. -/
lemma decodeAt_ok {text : String} {position stop : Nat} {value : Int}
    (h : decodeAt text position = .ok (value, stop)) :
    ∃ spelling after n, text.toList = text.toList.take position ++ spelling ++ after ∧
      position ≤ text.length ∧ stop = position + spelling.length ∧ groupCode.Spells spelling n ∧
        value = unpack n := by
  unfold decodeAt at h
  split at h
  · rename_i n after taken
    cases h
    obtain ⟨spelling, here, spells⟩ := takeNat_ok taken
    have nonempty := List.length_pos_iff.2 spells.ne_nil
    have lengths := congrArg List.length here
    rw [List.length_drop, List.length_append] at lengths
    refine ⟨spelling, after, n, ?_, ?_, ?_, spells, rfl⟩
    · rw [List.append_assoc, ← here, List.take_append_drop]
    · rw [← String.length_toList]
      omega
    · omega
  · cases h

/-- The written form of an integer is no longer than what the integer was read from, and it is just
that unless this was the negative zero or has a redundant group of zero at its end. -/
theorem encode_of_decodeAt {text : String} {position stop : Nat} {value : Int}
    (h : decodeAt text position = .ok (value, stop)) :
    position < stop ∧ stop ≤ text.length ∧ (encode value).length ≤ stop - position ∧
      (encode value = between text position stop ↔ between text position stop ≠ "B" ∧
        (stop = position + 1 ∨ text.toList[stop - 1]? ≠ some 'A')) := by
  obtain ⟨spelling, after, n, whole, inside, rfl, spells, rfl⟩ := decodeAt_ok h
  have nonempty := List.length_pos_iff.2 spells.ne_nil
  have front : (text.toList.take position).length = position := by
    rw [List.length_take, String.length_toList, Nat.min_eq_left inside]
  have read : between text position (position + spelling.length) = String.ofList spelling := by
    have size : (text.toList.take position ++ spelling).length = position + spelling.length := by
      rw [List.length_append, front]
    rw [between, whole, List.take_left' size, List.drop_left' front]
  have last : text.toList[position + spelling.length - 1]? = spelling.getLast? := by
    rw [whole, List.append_assoc, List.getElem?_append_right (by omega), front,
      List.getElem?_append_left (by omega), List.getLast?_eq_getElem?]
    congr 1
    omega
  refine ⟨by omega, ?_, ?_, ?_⟩
  · have := congrArg List.length whole
    rw [List.length_append, List.length_append, front, String.length_toList] at this
    omega
  · rw [Nat.add_sub_cancel_left, encode, ← String.length_toList, String.toList_ofList]
    exact length_encodeChars_unpack_le spells
  · have one : position + spelling.length = position + 1 ↔ spelling.length = 1 := by omega
    have sameText : String.ofList spelling = String.ofList ['B'] ↔ spelling = ['B'] :=
      String.ofList_inj
    have negativeZero : String.ofList spelling ≠ "B" ↔ spelling ≠ ['B'] := not_congr sameText
    rw [read, last, one, negativeZero, encode, String.ofList_inj]
    exact encodeChars_unpack_iff spells

/-- Minus eight with a group of zero that goes on to another one, inside a text. -/
theorem encode_of_decodeAt_padded :
    decodeAt "CxgAD" 1 = .ok (-8, 4) ∧ (encode (-8)).length ≤ 3 ∧ encode (-8) ≠ "xgA" := by
  have read : decodeAt "CxgAD" 1 = .ok (-8, 4) := by rfl
  obtain ⟨_, _, shorter, same⟩ := encode_of_decodeAt read
  have here : between "CxgAD" 1 4 = "xgA" := by decide +kernel
  rw [here] at same
  exact ⟨read, shorter, fun written => absurd (same.1 written).2 (by decide +kernel)⟩

end WasmSourceMap.Vlq
