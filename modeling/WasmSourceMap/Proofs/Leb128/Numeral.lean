import Mathlib.Algebra.Group.Nat.Defs
import WasmSourceMap.Proofs.Reader.Written
import WasmSourceMap.Text.Utf8

/-!
# Numbers as they are written

A number of the container can be written with padding, so a `Numeral` is any bytes that are read as
a number. The same bytes are read as an integer in two's complement, with as many groups of seven
bits as there are bytes (`Reader.sleb_of_uleb`), and every integer has bytes that are read so
(`Numeral.signed_ofInt`). Bytes behind their length are a `Block`, and items behind their number are
`Counted`.
-/

namespace WasmSourceMap

namespace Leb128

/-- The integer that a number of `count` groups of seven bits stands for in two's complement. -/
def signedValue (n count : Nat) : Int := Int.bmod n (128 ^ count)

lemma signedValue_of_lt {n count : Nat} (h : 2 * (n % 128 ^ count) < 128 ^ count) :
    signedValue n count = (n % 128 ^ count : Nat) := by
  unfold signedValue Int.bmod
  dsimp only
  rw [← Int.natCast_emod, if_pos (by omega)]

lemma signedValue_of_le {n count : Nat} (h : 128 ^ count ≤ 2 * (n % 128 ^ count)) :
    signedValue n count = (n % 128 ^ count : Nat) - (128 ^ count : Nat) := by
  unfold signedValue Int.bmod
  dsimp only
  rw [← Int.natCast_emod, if_neg (by omega)]

/-- One more group in front leaves the sign to the groups behind it. -/
lemma signedValue_group {low : Nat} (h : low < 128) (n : Nat) {count : Nat} (some : 0 < count) :
    signedValue (low + 128 * n) (count + 1) = low + 128 * signedValue n count := by
  have rest : (low + 128 * n) % 128 ^ (count + 1) = low + 128 * (n % 128 ^ count) := by
    have last : (low + 128 * n) % 128 = low := by omega
    have others : (low + 128 * n) / 128 = n := by omega
    rw [Nat.pow_succ', Nat.mod_mul, last, others]
  have whole : 128 ^ (count + 1) = 128 * 128 ^ count := Nat.pow_succ'
  -- Half of the range is a multiple of 128, so the lowest group does not decide the sign.
  have even : ∃ k, 128 ^ count = 2 * k := by
    obtain ⟨c, rfl⟩ := Nat.exists_eq_add_of_lt some
    exact ⟨64 * 128 ^ (0 + c), by rw [Nat.pow_succ', ← Nat.mul_assoc]⟩
  by_cases small : 2 * (n % 128 ^ count) < 128 ^ count
  · rw [signedValue_of_lt small, signedValue_of_lt (by omega), rest]
    omega
  · rw [signedValue_of_le (Nat.le_of_not_lt small), signedValue_of_le (by omega), rest, whole]
    omega

/-- The shortest form of an integer in two's complement. -/
def encodeSigned (z : Int) : Bytes :=
  if -64 ≤ z ∧ z < 64 then [UInt8.ofNat (z % 128).toNat]
  else UInt8.ofNat (128 + (z % 128).toNat) :: encodeSigned (z / 128)
termination_by z.natAbs
decreasing_by omega

lemma length_encodeSigned_pos (z : Int) : 0 < (encodeSigned z).length := by
  rw [encodeSigned]
  split <;> exact Nat.succ_pos _

/-- The shortest form of an integer is a number that stands for it. -/
lemma decode_encodeSigned (z : Int) :
    ∃ n, decode (encodeSigned z) = .ok (n, (encodeSigned z).length) ∧
      signedValue n (encodeSigned z).length = z := by
  induction z using encodeSigned.induct with
  | case1 z small =>
    have byte : (UInt8.ofNat (z % 128).toNat).toNat = (z % 128).toNat := by
      rw [UInt8.toNat_ofNat']
      omega
    refine ⟨(z % 128).toNat, ?_, ?_⟩
    · rw [encodeSigned, if_pos small, decode, byte, if_pos (by omega)]
      rfl
    · rw [encodeSigned, if_pos small, List.length_singleton]
      by_cases positive : 0 ≤ z
      · rw [signedValue_of_lt (by omega)]
        omega
      · rw [signedValue_of_le (by omega)]
        omega
  | case2 z large ih =>
    -- The lowest group comes first, and the sign is in what is left of the integer.
    obtain ⟨n, read, value⟩ := ih
    have byte : (UInt8.ofNat (128 + (z % 128).toNat)).toNat = 128 + (z % 128).toNat := by
      rw [UInt8.toNat_ofNat']
      omega
    refine ⟨(z % 128).toNat + 128 * n, ?_, ?_⟩
    · have low : (128 + (z % 128).toNat) % 128 = (z % 128).toNat := by omega
      rw [encodeSigned, if_neg large, decode, byte, if_neg (by omega), read, List.length_cons]
      simp only [low]
    · rw [encodeSigned, if_neg large, List.length_cons]
      rw [signedValue_group (by omega) n (length_encodeSigned_pos _), value]
      omega

end Leb128

namespace Reader

/-- The reader of integers takes the same bytes as the reader of natural numbers, in two's
complement. -/
lemma sleb_of_uleb {data : Bytes} {position n next : Nat} (h : uleb data position = .done n next) :
    sleb data position = .done (Leb128.signedValue n (next - position)) next := by
  change ulebAt data position = _ at h
  show slebAt data position = _
  fun_induction ulebAt data position generalizing n next with
  | case1 => cases h
  | case2 position b middle e last =>
    cases h
    have moved := (byte_done e).2
    have one : middle - position = 1 := by omega
    rw [slebAt, e]
    dsimp only
    rw [one]
    split
    · rw [Leb128.signedValue_of_lt (by omega), Nat.mod_eq_of_lt (by omega)]
    · rw [Leb128.signedValue_of_le (by omega), Nat.mod_eq_of_lt (by omega)]
      rfl
  | case3 position b middle e goesOn m last inner ih =>
    cases h
    have moved := (byte_done e).2
    have later := Advances.uleb inner
    have more : last - position = last - middle + 1 := by omega
    rw [slebAt, e]
    dsimp only
    rw [if_neg (by omega), if_neg goesOn, ih inner, more]
    rw [Leb128.signedValue_group (Nat.mod_lt _ (by decide)) m (by omega)]
  | case4 => cases h

end Reader

/-- A number as bytes, which may be padded. -/
structure Numeral where
  bytes : Bytes
  value : Nat
  decodes : Leb128.decode bytes = .ok (value, bytes.length)

namespace Numeral

def ofNat (n : Nat) : Numeral := ⟨Leb128.encode n, n, Leb128.decode_encode n⟩

/-- The integer that the same bytes are read as. -/
def signed (n : Numeral) : Int := Leb128.signedValue n.value n.bytes.length

/-- The shortest form of an integer; what it is read as without its sign is of no interest. -/
def ofInt (z : Int) : Numeral where
  bytes := Leb128.encodeSigned z
  value := ((Leb128.decode (Leb128.encodeSigned z)).toOption.map Prod.fst).getD 0
  decodes := by
    obtain ⟨n, read, _⟩ := Leb128.decode_encodeSigned z
    rw [read]
    rfl

/-- Every integer can be written. -/
@[simp]
lemma signed_ofInt (z : Int) : (ofInt z).signed = z := by
  obtain ⟨n, read, value⟩ := Leb128.decode_encodeSigned z
  simp only [signed, ofInt, read]
  exact value

lemma reads (n : Numeral) (start : Nat) : Reader.uleb.Reads start n.bytes n.value :=
  fun _ _ _ here => Reader.uleb_of_drop here n.decodes

lemma reads_signed (n : Numeral) (start : Nat) : Reader.sleb.Reads start n.bytes n.signed := by
  intro data rest inside here
  have read := Reader.sleb_of_uleb (n.reads start inside here)
  rwa [Nat.add_sub_cancel_left] at read

end Numeral

/-- Bytes behind their length. -/
structure Block where
  size : Numeral
  content : Bytes
  counts : size.value = content.length

namespace Block

def bytes (b : Block) : Bytes := b.size.bytes ++ b.content

/-- Bytes behind the shortest form of their length. -/
def ofBytes (content : Bytes) : Block := ⟨.ofNat content.length, content, rfl⟩

/-- The bytes as text. -/
def text (b : Block) : String := Text.Utf8.decode b.content

lemma reads (b : Block) (start : Nat) : Reader.name.Reads start b.bytes b.text := by
  refine .bind (b.size.reads start) ?_
  rw [b.counts]
  exact .bind_pure (.bytes b.content) _

end Block

/-- Items behind their number. -/
structure Counted (α : Type) where
  count : Numeral
  items : List α
  counts : count.value = items.length

namespace Counted

variable {ε α β : Type}

/-- The bytes, if each item is written in some way. -/
def bytes (write : α → Bytes) (c : Counted α) : Bytes := c.count.bytes ++ c.items.flatMap write

lemma reads {r : Reader ε β} {write : α → Bytes} {place : Nat → α → β}
    (h : ∀ start a, r.Reads start (write a) (place start a)) (f : ReadFault → ε) (c : Counted α)
    (start : Nat) :
    (Reader.uleb.mapFault f >>= fun count => Reader.times count r).Reads start (c.bytes write)
      (Reader.layOut write place (start + c.count.bytes.length) c.items) := by
  refine .bind (c.count.reads start).mapFault ?_
  rw [c.counts]
  exact .times h _ c.items

end Counted

end WasmSourceMap
