import Mathlib.Tactic.Lemma
import WasmSourceMap.Leb128
import WasmSourceMap.Reader

/-!
# Numbers of the container

What is written as a number is read as the number (`decode_encode`), and a number that is read at
the front of some bytes does not depend on what follows them (`decode_append`). The reader of
numbers reads at a position what `decode` reads from there on (`uleb_of_decode`).
-/

namespace WasmSourceMap

namespace Leb128

lemma decode_append {bytes : Bytes} {n count : Nat} (h : decode bytes = .ok (n, count))
    (more : Bytes) : decode (bytes ++ more) = .ok (n, count) := by
  induction bytes generalizing n count with
  | nil => cases h
  | cons b rest ih =>
    rw [List.cons_append]
    unfold decode at h ⊢
    split at h
    · rename_i last
      rw [if_pos last, h]
    · rename_i goesOn
      rw [if_neg goesOn]
      split at h
      · rename_i m k inner
        rw [ih inner]
        exact h
      · cases h

/-- A number is read back from its shortest form. -/
theorem decode_encode (n : Nat) : decode (encode n) = .ok (n, (encode n).length) := by
  induction n using encode.induct with
  | case1 n small =>
    have byte : (UInt8.ofNat n).toNat = n := by
      rw [UInt8.toNat_ofNat']
      omega
    rw [encode, if_pos small, decode, byte, if_pos small]
    rfl
  | case2 n large ih =>
    have byte : (UInt8.ofNat (128 + n % 128)).toNat = 128 + n % 128 := by
      rw [UInt8.toNat_ofNat']
      omega
    rw [encode, if_neg large, decode, byte, if_neg (by omega), ih]
    have whole : (128 + n % 128) % 128 + 128 * (n / 128) = n := by omega
    rw [List.length_cons]
    simp only [whole]

end Leb128

namespace Reader

lemma byte_of_drop {data rest : Bytes} {position : Nat} {b : UInt8}
    (h : data.drop position = b :: rest) : byte data position = .done b (position + 1) := by
  have here : data[position]? = some b := by
    rw [← List.getElem?_cons_zero (a := b) (l := rest), ← h, List.getElem?_drop, Nat.add_zero]
  unfold byte
  rw [here]

/-- A number is read at a position if it is at the front of the bytes from there on. -/
lemma uleb_of_decode {data : Bytes} {position n count : Nat}
    (h : Leb128.decode (data.drop position) = .ok (n, count)) :
    uleb data position = .done n (position + count) := by
  change ulebAt data position = _
  -- The induction is on the bytes that are left, while the position moves along.
  generalize e : data.drop position = bytes at h
  induction bytes generalizing position n count with
  | nil => cases h
  | cons b rest ih =>
    have next : data.drop (position + 1) = rest := by
      rw [← List.drop_drop, e]
      rfl
    unfold Leb128.decode at h
    rw [ulebAt, byte_of_drop e]
    dsimp only
    split at h
    · rename_i last
      cases h
      rw [if_pos last]
    · rename_i goesOn
      rw [if_neg goesOn]
      split at h
      · rename_i m k inner
        cases h
        rw [ih next inner, Nat.add_assoc, Nat.add_comm 1 k]
      · cases h

end Reader

end WasmSourceMap
