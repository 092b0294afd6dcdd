import WasmSourceMap.ByteStream
import WasmSourceMap.Proofs.GroupCode
import WasmSourceMap.Proofs.Leb128

/-!
# The readers of numbers agree

A number of the container is decoded at a position of some bytes, or read from a stream that is
moved to the position. Both take the same bytes for the same number and fail on the same ones: the
stream stops where the decoder stops, or at the end of the data (`ulebFrom_eq`). Both read what the
writer writes wherever it stands, and whatever else they read as the same number is longer
(`decodeAt_agrees`).
-/

namespace WasmSourceMap

namespace Leb128

/-- Groups of seven bits, with bytes. -/
def groupCode : GroupCode UInt8 where
  base := 128
  digit? b := some b.toNat
  symbol := UInt8.ofNat
  one_lt_base := by decide
  digit?_symbol d small := by
    rw [UInt8.toNat_ofNat']
    congr 1
    omega
  symbol_of_digit? b d digit := by
    cases digit
    exact ⟨b.toNat_lt, UInt8.ofNat_toNat⟩

lemma encode_eq_shortest (n : Nat) : encode n = groupCode.shortest n := by
  fun_induction encode n with
  | case1 n small =>
    rw [GroupCode.shortest]
    exact (if_pos small).symm
  | case2 n large ih =>
    rw [GroupCode.shortest, ih]
    exact (if_neg large).symm

/-- What is decoded at the front of some bytes is a spelling of the number. -/
lemma decode_ok {bytes : Bytes} {n count : Nat} (h : decode bytes = .ok (n, count)) :
    ∃ spelling rest, bytes = spelling ++ rest ∧ count = spelling.length ∧
      groupCode.Spells spelling n := by
  induction bytes generalizing n count with
  | nil => cases h
  | cons b rest ih =>
    rw [decode] at h
    split at h
    · rename_i small
      cases h
      exact ⟨[b], rest, rfl, rfl, .last rfl small⟩
    · rename_i large
      split at h
      · rename_i m k others
        cases h
        obtain ⟨spelling, after, rfl, rfl, spells⟩ := ih others
        exact ⟨b :: spelling, after, rfl, rfl, .more rfl (Nat.le_of_not_lt large) spells⟩
      · cases h

/-- The bytes that a number is decoded from are its shortest form, or there are more of them. -/
lemma eq_encode_or_lt_of_decodeAt {data : Bytes} {position n stop : Nat}
    (h : decodeAt data position = .ok (n, stop)) :
    (data.take stop).drop position = encode n ∨ (encode n).length < stop - position := by
  unfold decodeAt at h
  split at h
  · rename_i m count decoded
    cases h
    obtain ⟨spelling, rest, here, rfl, spells⟩ := decode_ok decoded
    rw [← List.take_drop, here, List.take_left, Nat.add_sub_cancel_left, encode_eq_shortest]
    exact spells.eq_shortest_or_lt
  · cases h

lemma decodeAt_encode (n : Nat) (front rest : Bytes) :
    decodeAt (front ++ encode n ++ rest) front.length =
      .ok (n, front.length + (encode n).length) := by
  rw [decodeAt, List.append_assoc, List.drop_left, decode_append (decode_encode n)]

end Leb128

namespace Reader

/-- Where no number is at the front of the bytes, the reader fails at the end of the data. -/
lemma uleb_of_decode_error {data : Bytes} {position : Nat} {fault : Leb128.Fault}
    (h : Leb128.decode (data.drop position) = .error fault) :
    uleb data position =
      .failed (.endOfData (max position data.length) 1 0) (max position data.length) := by
  change ulebAt data position = _
  -- The induction is on the bytes that are left, while the position moves along.
  generalize e : data.drop position = bytes at h
  induction bytes generalizing position fault with
  | nil =>
    have outside : data.length ≤ position := List.drop_eq_nil_iff.1 e
    rw [ulebAt, byte, List.getElem?_eq_none outside, Nat.max_eq_left outside]
  | cons b rest ih =>
    have inside : position < data.length := by
      have := congrArg List.length e
      rw [List.length_drop, List.length_cons] at this
      omega
    have next : data.drop (position + 1) = rest := by
      rw [← List.drop_drop, e]
      rfl
    have same : max (position + 1) data.length = max position data.length := by omega
    unfold Leb128.decode at h
    rw [ulebAt, byte_of_drop e]
    dsimp only
    split at h
    · cases h
    · rename_i goesOn
      rw [if_neg goesOn]
      split at h
      · cases h
      · rename_i own inner
        rw [ih next inner, same]

end Reader

namespace ByteStream

open Leb128

/-- What a new stream reads as a number from a position on, and the stream afterwards. -/
def ulebFrom (data : Bytes) (position : Nat) : Except StreamFault Nat × ByteStream :=
  match (ofBytes data).seek position with
  | (.ok (), moved) => moved.read Reader.uleb
  | (.error fault, moved) => (.error fault, moved)

variable {data : Bytes} {position : Nat}

/-- The answer of a stream is that of the decoder, if the stream can be moved to the position. -/
lemma ulebFrom_eq (reachable : position ≤ data.length ∨ position < Reader.positionBound) :
    ulebFrom data position =
      match decodeAt data position with
      | .ok (n, stop) => (.ok n, ⟨data, stop, false⟩)
      | .error _ =>
        let stop := max position data.length
        (.error (.unreadable (.endOfData stop 1 0)), ⟨data, stop, false⟩) := by
  have moved : (ofBytes data).seek position = (.ok (), ⟨data, position, false⟩) := by
    show (ofBytes data).read (Reader.seek position) = _
    rw [read, if_neg (by simp [ofBytes]), Reader.seek, ofBytes, if_pos reachable]
  rw [ulebFrom, moved, decodeAt]
  dsimp only
  rw [read, if_neg (by simp)]
  cases decoded : decode (data.drop position) with
  | ok result => rw [Reader.uleb_of_decode decoded]
  | error fault => rw [Reader.uleb_of_decode_error decoded]

/-- A stream that cannot be moved to a position does not answer, and nothing is decoded there. -/
lemma ulebFrom_unreachable (h : ¬(position ≤ data.length ∨ position < Reader.positionBound)) :
    ulebFrom data position = (.error (.unreadable .outOfRange), ofBytes data) ∧
      decodeAt data position = .error .truncated := by
  constructor
  · have stays : (ofBytes data).seek position = (.error (.unreadable .outOfRange), ofBytes data) := by
      show (ofBytes data).read (Reader.seek position) = _
      rw [read, if_neg (by simp [ofBytes]), Reader.seek, ofBytes, if_neg h]
    rw [ulebFrom, stays]
  · rw [decodeAt, List.drop_eq_nil_of_le (by omega), decode]

end ByteStream

namespace Leb128

open ByteStream

lemma decodeAt_ok_iff {data : Bytes} {position n stop : Nat} :
    decodeAt data position = .ok (n, stop) ↔
      ulebFrom data position = (.ok n, ⟨data, stop, false⟩) := by
  by_cases reachable : position ≤ data.length ∨ position < Reader.positionBound
  · rw [ulebFrom_eq reachable]
    cases decodeAt data position with
    | ok result => simp [Prod.ext_iff]
    | error fault => simp
  · obtain ⟨refused, truncated⟩ := ulebFrom_unreachable reachable
    rw [refused, truncated]
    simp

lemma decode_error {bytes : Bytes} {fault : Fault} (h : decode bytes = .error fault) :
    fault = .truncated := by
  fun_induction decode bytes with
  | case1 => exact (Except.error.inj h).symm
  | case2 => cases h
  | case3 => cases h
  | case4 b rest goesOn own inner ih => exact ih (inner.trans h)

lemma decodeAt_error_iff {data : Bytes} {position : Nat} (h : position < Reader.positionBound) :
    decodeAt data position = .error .truncated ↔
      ∃ offset wanted got, (ulebFrom data position).1 =
        .error (.unreadable (.endOfData offset wanted got)) := by
  rw [ulebFrom_eq (.inr h)]
  unfold decodeAt
  cases decoded : decode (data.drop position) with
  | ok result => simp
  | error fault => simp [decode_error decoded]

/-- Decoding and reading from a stream agree: on the number and where it ends, and on the bytes that
are cut short. Both read what is written for a number, wherever it stands, and any other bytes that
are read as the number are more than those. -/
theorem decodeAt_agrees :
    (∀ (data : Bytes) (position n stop : Nat), decodeAt data position = .ok (n, stop) ↔
      ulebFrom data position = (.ok n, ⟨data, stop, false⟩)) ∧
    (∀ (data : Bytes) (position : Nat), position < Reader.positionBound →
      (decodeAt data position = .error .truncated ↔
        ∃ offset wanted got, (ulebFrom data position).1 =
          .error (.unreadable (.endOfData offset wanted got)))) ∧
    ∀ n : Nat, ∃ written, encodeInt n = .ok written ∧
      (∀ front rest : Bytes,
        let data := front ++ written ++ rest
        let stop := front.length + written.length
        decodeAt data front.length = .ok (n, stop) ∧
          ulebFrom data front.length = (.ok n, ⟨data, stop, false⟩)) ∧
      ∀ (data : Bytes) (position stop : Nat), decodeAt data position = .ok (n, stop) →
        (data.take stop).drop position = written ∨ written.length < stop - position := by
  refine ⟨fun _ _ _ _ => decodeAt_ok_iff, fun _ _ => decodeAt_error_iff, fun n => ?_⟩
  refine ⟨encode n, rfl, fun front rest => ?_, fun _ _ _ => eq_encode_or_lt_of_decodeAt⟩
  have decoded := decodeAt_encode n front rest
  exact ⟨decoded, decodeAt_ok_iff.1 decoded⟩

/-- A number with two bytes of padding behind another number. -/
def padded : Bytes := [0x05, 0xe5, 0x8e, 0xa6, 0x80, 0x00]

/-- The padded number is read by both, it is longer than what is written for it, and without its
last byte both find the end of the data. -/
theorem decodeAt_agrees_padded :
    ulebFrom padded 1 = (.ok 624485, ⟨padded, 6, false⟩) ∧
      (∃ offset wanted got, (ulebFrom (padded.take 5) 1).1 =
        .error (.unreadable (.endOfData offset wanted got))) ∧
      ∃ written, encodeInt 624485 = .ok written ∧ written.length < 5 := by
  obtain ⟨same, short, written⟩ := decodeAt_agrees
  have decoded : decodeAt padded 1 = .ok (624485, 6) := rfl
  refine ⟨(same _ _ _ _).1 decoded, (short _ 1 (by decide)).1 rfl, ?_⟩
  obtain ⟨bytes, isWritten, -, others⟩ := written 624485
  refine ⟨bytes, isWritten, (others _ _ _ decoded).resolve_left ?_⟩
  rintro rfl
  exact absurd (congrArg Except.toOption isWritten) (by decide +kernel)

end Leb128

end WasmSourceMap
