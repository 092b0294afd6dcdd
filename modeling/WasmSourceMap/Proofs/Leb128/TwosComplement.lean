import Mathlib.Data.Int.ModEq
import WasmSourceMap.Proofs.Leb128.Agreement
import WasmSourceMap.Proofs.Leb128.Numeral

/-!
# Integers in two's complement

The reader of integers stops where the reader of natural numbers stops, whether they succeed or
fail. The integer that it reads is the one in two's complement for as many groups of seven bits as
there are bytes (`isTwosComplement_iff`). An integer has many spellings, which pad it with groups of
zeros or of ones; one of them is the shortest, and that is how it is written
(`eq_encodeSigned_or_lt_of_spells`). Main statement: `read_sleb_twosComplement`.
-/

namespace WasmSourceMap

namespace Leb128

/-- An integer in `count` groups of seven bits that has the same bits as a natural number. The lower
half of the range is for the negative ones. -/
structure IsTwosComplement (count n : Nat) (z : Int) : Prop where
  congruent : z ≡ n [ZMOD 2 ^ (7 * count)]
  lower : -2 ^ (7 * count - 1) ≤ z
  upper : z < 2 ^ (7 * count - 1)

/-- There is one such integer. -/
lemma isTwosComplement_iff {count : Nat} (some : 0 < count) (n : Nat) (z : Int) :
    IsTwosComplement count n z ↔ z = signedValue n count := by
  have bits : 128 ^ count = 2 ^ (7 * count) := (Nat.pow_mul 2 7 count).symm
  have whole : 2 ^ (7 * count) = 2 * 2 ^ (7 * count - 1) := by
    rw [← Nat.pow_succ', Nat.succ_eq_add_one, Nat.sub_add_cancel (by omega)]
  have halves : ((2 ^ (7 * count) : Nat) : Int) = 2 * 2 ^ (7 * count - 1) := by
    rw [whole]
    norm_cast
  rw [signedValue, eq_comm, bits, Int.bmod_eq_iff (Nat.two_pow_pos _)]
  constructor
  · rintro ⟨congruent, lower, upper⟩
    refine ⟨by omega, by omega, ?_⟩
    exact_mod_cast Int.modEq_iff_dvd.1 congruent.symm
  · rintro ⟨lower, upper, divides⟩
    refine ⟨(Int.modEq_iff_dvd.2 ?_).symm, by omega, by omega⟩
    exact_mod_cast divides

/-- A spelling of an integer is its shortest form, or it is longer. -/
lemma eq_encodeSigned_or_lt_of_spells {spelling : Bytes} {n : Nat}
    (h : groupCode.Spells spelling n) :
    spelling = encodeSigned (signedValue n spelling.length) ∨
      (encodeSigned (signedValue n spelling.length)).length < spelling.length := by
  induction h with
  | @last b d digit ends =>
    obtain ⟨-, rfl⟩ := groupCode.symbol_of_digit? digit
    have low : d < 128 := ends
    have value : -64 ≤ signedValue d 1 ∧ signedValue d 1 < 64 ∧
        (signedValue d 1 % 128).toNat = d := by
      by_cases positive : d < 64
      · rw [signedValue_of_lt (by omega)]
        omega
      · rw [signedValue_of_le (by omega)]
        omega
    obtain ⟨lower, upper, group⟩ := value
    left
    rw [List.length_singleton, encodeSigned, if_pos ⟨lower, upper⟩, group]
    rfl
  | @more b d n rest digit goesOn others ih =>
    obtain ⟨small, rfl⟩ := groupCode.symbol_of_digit? digit
    replace small : d < 256 := small
    replace goesOn : 128 ≤ d := goesOn
    have later : 0 < rest.length := List.length_pos_iff.2 others.ne_nil
    have value : signedValue (d % groupCode.base + groupCode.base * n) (rest.length + 1) =
        (d % 128 : Nat) + 128 * signedValue n rest.length :=
      signedValue_group (Nat.mod_lt d (by decide)) n later
    rw [List.length_cons, value]
    generalize signedValue n rest.length = z at ih
    by_cases short : -64 ≤ ((d % 128 : Nat) : Int) + 128 * z ∧
        ((d % 128 : Nat) : Int) + 128 * z < 64
    · -- The integer fits in one group, so all that follows is padding.
      right
      rw [encodeSigned, if_pos short, List.length_singleton]
      omega
    · have group : 128 + ((((d % 128 : Nat) : Int) + 128 * z) % 128).toNat = d := by omega
      have left : (((d % 128 : Nat) : Int) + 128 * z) / 128 = z := by omega
      rw [encodeSigned, if_neg short, group, left]
      rcases ih with rest_eq | longer
      · exact .inl (congrArg (_ :: ·) rest_eq)
      · exact .inr (Nat.succ_lt_succ longer)

end Leb128

namespace Reader

variable {data : Bytes} {position next : Nat}

/-- The reader of integers fails where and for what the reader of natural numbers fails. -/
lemma sleb_of_uleb_failed {fault : ReadFault} (h : uleb data position = .failed fault next) :
    sleb data position = .failed fault next := by
  change ulebAt data position = _ at h
  show slebAt data position = _
  fun_induction ulebAt data position generalizing fault next with
  | case1 position own stop e =>
    cases h
    rw [slebAt, e]
  | case2 => cases h
  | case3 => cases h
  | case4 position b middle e goesOn own stop inner ih =>
    cases h
    rw [slebAt, e]
    dsimp only
    rw [if_neg (by omega), if_neg goesOn, ih inner]

/-- What the reader of integers reads is what the reader of natural numbers reads, in two's
complement. -/
lemma uleb_of_sleb {z : Int} (h : sleb data position = .done z next) :
    ∃ n, uleb data position = .done n next ∧ z = Leb128.signedValue n (next - position) := by
  cases read : uleb data position with
  | done n stop =>
    rw [sleb_of_uleb read] at h
    cases h
    exact ⟨n, rfl, rfl⟩
  | failed fault stop =>
    rw [sleb_of_uleb_failed read] at h
    cases h

lemma uleb_failed_iff {fault : ReadFault} :
    uleb data position = .failed fault next ↔ sleb data position = .failed fault next := by
  refine ⟨sleb_of_uleb_failed, fun h => ?_⟩
  cases read : uleb data position with
  | done n stop =>
    rw [sleb_of_uleb read] at h
    cases h
  | failed own stop =>
    rw [sleb_of_uleb_failed read] at h
    cases h
    rfl

/-- A number that is read is at the front of the bytes from there on. -/
lemma decode_of_uleb {n : Nat} (h : uleb data position = .done n next) :
    ∃ count, next = position + count ∧ Leb128.decode (data.drop position) = .ok (n, count) := by
  cases decoded : Leb128.decode (data.drop position) with
  | ok result =>
    rw [uleb_of_decode decoded] at h
    cases h
    exact ⟨_, rfl, rfl⟩
  | error fault =>
    rw [uleb_of_decode_error decoded] at h
    cases h

/-- The bytes that an integer is read from are its shortest form, or there are more of them. -/
lemma eq_encodeSigned_or_lt_of_sleb {z : Int} (h : sleb data position = .done z next) :
    (data.take next).drop position = Leb128.encodeSigned z ∨
      (Leb128.encodeSigned z).length < next - position := by
  obtain ⟨n, read, rfl⟩ := uleb_of_sleb h
  obtain ⟨count, rfl, decoded⟩ := decode_of_uleb read
  obtain ⟨spelling, rest, here, rfl, spells⟩ := Leb128.decode_ok decoded
  rw [← List.take_drop, here, List.take_left, Nat.add_sub_cancel_left]
  exact Leb128.eq_encodeSigned_or_lt_of_spells spells

end Reader

namespace ByteStream

open Leb128

variable {α : Type} {s next : ByteStream}

/-- A read that succeeds is one of an open stream, which keeps its bytes. -/
lemma read_ok_iff {r : Reader ReadFault α} {a : α} :
    s.read r = (.ok a, next) ↔ s.closed = false ∧
      ∃ stop, r s.data s.position = .done a stop ∧ next = { s with position := stop } := by
  unfold read
  cases s.closed with
  | true => simp
  | false => cases r s.data s.position <;> simp [eq_comm]

/-- A read that fails is one of a closed stream, or the reader fails and the stream is where it has
stopped. -/
lemma read_error_iff {r : Reader ReadFault α} {fault : StreamFault} :
    s.read r = (.error fault, next) ↔
      s.closed = true ∧ fault = .closed ∧ next = s ∨
      s.closed = false ∧ ∃ own stop, r s.data s.position = .failed own stop ∧
        fault = .unreadable own ∧ next = { s with position := stop } := by
  unfold read
  cases s.closed with
  | true => simp [eq_comm]
  | false => cases r s.data s.position <;> simp [eq_comm]

lemma read_uleb_error_iff {fault : StreamFault} :
    s.read Reader.uleb = (.error fault, next) ↔ s.read Reader.sleb = (.error fault, next) := by
  rw [read_error_iff, read_error_iff]
  simp only [Reader.uleb_failed_iff]

/-- The integer at a place where a natural number is read. -/
lemma read_sleb_of_read_uleb {n : Nat} (h : s.read Reader.uleb = (.ok n, next)) :
    ∃ (count : Nat) (z : Int), 0 < count ∧ next = { s with position := s.position + count } ∧
      s.read Reader.sleb = (.ok z, next) ∧ ∀ y, IsTwosComplement count n y ↔ y = z := by
  obtain ⟨isOpen, stop, read, rfl⟩ := read_ok_iff.1 h
  have moved := Reader.Advances.uleb read
  obtain ⟨count, rfl⟩ := Nat.exists_eq_add_of_le (Nat.le_of_lt moved)
  have some : 0 < count := by omega
  refine ⟨count, signedValue n count, some, rfl, ?_, isTwosComplement_iff some n⟩
  have signed := Reader.sleb_of_uleb read
  rw [Nat.add_sub_cancel_left] at signed
  exact read_ok_iff.2 ⟨isOpen, _, signed, rfl⟩

lemma read_encodeSigned (front rest : Bytes) (z : Int) :
    let s : ByteStream := ⟨front ++ encodeSigned z ++ rest, front.length, false⟩
    s.read Reader.sleb =
      (.ok z, { s with position := front.length + (encodeSigned z).length }) := by
  intro s
  have here : s.data.drop front.length = encodeSigned z ++ rest := by
    show (front ++ encodeSigned z ++ rest).drop front.length = _
    rw [List.append_assoc, List.drop_left]
  have inside : front.length ≤ s.data.length := by
    show _ ≤ (front ++ encodeSigned z ++ rest).length
    rw [List.append_assoc, List.length_append]
    exact Nat.le_add_right _ _
  have read := (Numeral.ofInt z).reads_signed front.length inside here
  rw [Numeral.signed_ofInt] at read
  exact read_ok_iff.2 ⟨rfl, _, read, rfl⟩

/-- A stream reads an integer where it reads a natural number, from the same bytes: the one in two's
complement for the groups of seven bits that they are. Where it reads no number, it reads no integer
either and fails in the same way at the same place. The shortest form of an integer is read as the
integer wherever it stands, and any other bytes that are read as it are more than those. -/
theorem read_sleb_twosComplement :
    (∀ (s next : ByteStream) (n : Nat), s.read Reader.uleb = (.ok n, next) →
      ∃ (count : Nat) (z : Int), 0 < count ∧ next = { s with position := s.position + count } ∧
        s.read Reader.sleb = (.ok z, next) ∧ ∀ y, IsTwosComplement count n y ↔ y = z) ∧
    (∀ (s next : ByteStream) (fault : StreamFault),
      s.read Reader.uleb = (.error fault, next) ↔ s.read Reader.sleb = (.error fault, next)) ∧
    ∀ z : Int,
      (∀ front rest : Bytes,
        let s : ByteStream := ⟨front ++ encodeSigned z ++ rest, front.length, false⟩
        s.read Reader.sleb =
          (.ok z, { s with position := front.length + (encodeSigned z).length })) ∧
      ∀ s next : ByteStream, s.read Reader.sleb = (.ok z, next) →
        (s.data.take next.position).drop s.position = encodeSigned z ∨
          (encodeSigned z).length < next.position - s.position := by
  refine ⟨fun _ _ _ => read_sleb_of_read_uleb, fun _ _ _ => read_uleb_error_iff, fun z => ?_⟩
  refine ⟨fun front rest => read_encodeSigned front rest z, fun s next h => ?_⟩
  obtain ⟨-, stop, read, rfl⟩ := read_ok_iff.1 h
  exact Reader.eq_encodeSigned_or_lt_of_sleb read

/-- A negative integer with two bytes of padding behind another byte. -/
def paddedNegative : ByteStream := ⟨[0x05, 0xc0, 0xff, 0x7f], 1, false⟩

/-- The padded integer is read from the three bytes that are also a natural number, and it is longer
than what is written for it. -/
theorem read_sleb_paddedNegative :
    let next : ByteStream := { paddedNegative with position := 4 }
    paddedNegative.read Reader.uleb = (.ok 2097088, next) ∧
      IsTwosComplement 3 2097088 (-64) ∧
      paddedNegative.read Reader.sleb = (.ok (-64), next) ∧
      (encodeSigned (-64)).length < 3 := by
  intro next
  obtain ⟨same, -, written⟩ := read_sleb_twosComplement
  have decoded : decode (paddedNegative.data.drop 1) = .ok (2097088, 3) := rfl
  have read : paddedNegative.read Reader.uleb = (.ok 2097088, next) :=
    read_ok_iff.2 ⟨rfl, 4, Reader.uleb_of_decode decoded, rfl⟩
  have fits : IsTwosComplement 3 2097088 (-64) := ⟨by decide, by decide, by decide⟩
  obtain ⟨count, z, -, stop, signed, only⟩ := same _ _ _ read
  have three : 4 = 1 + count := congrArg ByteStream.position stop
  obtain rfl : count = 3 := by omega
  obtain rfl := (only _).1 fits
  refine ⟨read, fits, signed, ?_⟩
  refine ((written _).2 _ _ signed).resolve_left fun shortest => ?_
  exact absurd shortest (by rw [encodeSigned]; decide)

end ByteStream

end WasmSourceMap
