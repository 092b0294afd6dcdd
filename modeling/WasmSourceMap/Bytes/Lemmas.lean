import Mathlib.Algebra.Group.Nat.Defs
import WasmSourceMap.Bytes

/-!
# Numbers of a fixed width

A number that is written with some width takes so many bytes (`length_ofNatLE`), which are its
digits in base 256 (`getElem?_ofNatLE`), and reading it back gives the number modulo the power of
256 for the width (`toNatLE_ofNatLE`). Bytes that are spliced over others inside the data replace
just those.
-/

namespace WasmSourceMap.Bytes

/-- A number written with `width` bytes has `width` bytes. -/
theorem length_ofNatLE (width n : Nat) : (ofNatLE width n).length = width := by
  induction width generalizing n with
  | zero => rfl
  | succ width ih => simp [ofNatLE, ih]

/-- Reading back a written number gives its residue for the width. -/
theorem toNatLE_ofNatLE (width n : Nat) : toNatLE (ofNatLE width n) = n % 256 ^ width := by
  induction width generalizing n with
  | zero => simp [ofNatLE, toNatLE, Nat.mod_one]
  | succ width ih =>
    rw [ofNatLE, toNatLE, ih, UInt8.toNat_ofNat', pow_succ' 256, Nat.mod_mul]
    omega

/-- The digits of a written number, by their place. -/
theorem getElem?_ofNatLE {width i : Nat} (n : Nat) (h : i < width) :
    (ofNatLE width n)[i]? = some (UInt8.ofNat (n / 256 ^ i % 256)) := by
  induction width generalizing n i with
  | zero => cases h
  | succ width ih =>
    cases i with
    | zero => simp [ofNatLE]
    | succ i =>
      rw [ofNatLE, List.getElem?_cons_succ, ih (n / 256) (Nat.lt_of_succ_lt_succ h),
        Nat.div_div_eq_div_mul, pow_succ' 256]

variable {data replacement : Bytes} {start width : Nat}

/-- Inside the data, `splice` replaces as many bytes as it writes. -/
theorem splice_inside (size : replacement.length = width) (h : start + width ≤ data.length) :
    data.splice start (start + width : Nat) replacement =
      data.take start ++ replacement ++ data.drop (start + width) := by
  have first : clampIndex data.length start = start := by
    unfold clampIndex
    split <;> omega
  have last : clampIndex data.length (start + width : Nat) = start + width := by
    unfold clampIndex
    split <;> omega
  unfold splice
  dsimp only
  rw [first, last, Nat.max_eq_right (Nat.le_add_right _ _)]

theorem length_splice (size : replacement.length = width) (h : start + width ≤ data.length) :
    (data.splice start (start + width : Nat) replacement).length = data.length := by
  rw [splice_inside size h, List.length_append, List.length_append, List.length_take,
    List.length_drop]
  omega

/-- A byte in the replaced stretch is one of the replacement. -/
theorem getElem?_splice_of_mem (size : replacement.length = width)
    (h : start + width ≤ data.length) {i : Nat} (behind : start ≤ i) (before : i < start + width) :
    (data.splice start (start + width : Nat) replacement)[i]? = replacement[i - start]? := by
  have length : (data.take start).length = start := List.length_take_of_le (by omega)
  rw [splice_inside size h, List.append_assoc, List.getElem?_append_right (by omega), length,
    List.getElem?_append_left (by omega)]

/-- A byte outside the replaced stretch is as it was. -/
theorem getElem?_splice_of_not_mem (size : replacement.length = width)
    (h : start + width ≤ data.length) {i : Nat} (outside : i < start ∨ start + width ≤ i) :
    (data.splice start (start + width : Nat) replacement)[i]? = data[i]? := by
  have length : (data.take start).length = start := List.length_take_of_le (by omega)
  rw [splice_inside size h, List.append_assoc]
  cases outside with
  | inl before =>
    rw [List.getElem?_append_left (by omega), List.getElem?_take_of_lt before]
  | inr behind =>
    rw [List.getElem?_append_right (by omega), length, List.getElem?_append_right (by omega),
      List.getElem?_drop]
    congr 1
    omega

end WasmSourceMap.Bytes
