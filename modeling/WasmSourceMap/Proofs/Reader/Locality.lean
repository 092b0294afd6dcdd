import Mathlib.Data.List.Basic
import WasmSourceMap.ByteStream
import WasmSourceMap.Proofs.Reader.Shortening

/-!
# What a read depends on

A read that succeeds sees the bytes from where it begins to where it stops and no others: data with
the same bytes there is read alike, and data that ends among them is told to end, where it does
(`Local`). Readers put together from local readers are local, with numbers of any length among them,
since each is a byte and then, perhaps, the rest of the number (`Unrolls`).

On a stream all reads are local that go on from where it stands (`Onward`), and so are rows of them,
as long as they are wished for; a row that is read at an address is local from there on
(`ByteStream.reading_local`).
-/

namespace WasmSourceMap

namespace Bytes

/-- The bytes from a position up to another are the same. -/
def Agrees (data other : Bytes) (start stop : Nat) : Prop :=
  ∀ i < stop, start ≤ i → other[i]? = data[i]?

instance (data other : Bytes) (start stop : Nat) : Decidable (Agrees data other start stop) :=
  inferInstanceAs (Decidable (∀ i < stop, start ≤ i → other[i]? = data[i]?))

variable {data other : Bytes} {start start' stop stop' : Nat}

lemma Agrees.mono (h : data.Agrees other start stop) (later : start ≤ start')
    (earlier : stop' ≤ stop) : data.Agrees other start' stop' :=
  fun i before behind => h i (Nat.lt_of_lt_of_le before earlier) (Nat.le_trans later behind)

lemma agrees_append (inside : start < stop → stop ≤ data.length) (more : Bytes) :
    data.Agrees (data ++ more) start stop :=
  fun _ before behind => List.getElem?_append_left (by omega)

/-- The bytes of a stretch are those of any data that agrees there. -/
lemma Agrees.take_drop {count : Nat} (h : data.Agrees other start (start + count)) :
    (other.drop start).take count = (data.drop start).take count := by
  refine List.ext_getElem? fun i => ?_
  by_cases early : i < count
  · rw [List.getElem?_take_of_lt early, List.getElem?_take_of_lt early, List.getElem?_drop,
      List.getElem?_drop]
    exact h (start + i) (by omega) (by omega)
  · rw [List.getElem?_take_eq_none (by omega), List.getElem?_take_eq_none (by omega)]

end Bytes

namespace Reader

variable {α β : Type}

/-- The reader reads a byte, which is the last one or has the same reader again behind it. -/
def Unrolls (r : Reader ReadFault α) (last : UInt8 → Option α) (more : UInt8 → α → α) : Prop :=
  r = byte >>= fun b =>
    match last b with
    | some a => pure a
    | none => r >>= fun a => pure (more b a)

lemma uleb_unrolls :
    Unrolls uleb (fun b => if b.toNat < 128 then some b.toNat else none)
      (fun b n => b.toNat % 128 + 128 * n) := by
  funext data start
  show ulebAt data start = _
  cases first : byte data start with
  | failed fault stop => rw [ulebAt, first, bind_of_failed first]
  | done b next =>
    rw [ulebAt, first, bind_of_done first]
    dsimp only
    by_cases final : b.toNat < 128
    · rw [if_pos final, if_pos final]
      rfl
    · rw [if_neg final, if_neg final]
      show _ = (uleb >>= _) data next
      simp only [bind, uleb]
      cases ulebAt data next <;> rfl

lemma sleb_unrolls :
    Unrolls sleb
      (fun b => if b.toNat < 64 then some (b.toNat : Int)
        else if b.toNat < 128 then some (b.toNat - 128) else none)
      (fun b z => (b.toNat % 128 : Nat) + 128 * z) := by
  funext data start
  show slebAt data start = _
  cases first : byte data start with
  | failed fault stop => rw [slebAt, first, bind_of_failed first]
  | done b next =>
    rw [slebAt, first, bind_of_done first]
    dsimp only
    by_cases positive : b.toNat < 64
    · rw [if_pos positive, if_pos positive]
      rfl
    by_cases final : b.toNat < 128
    · rw [if_neg positive, if_pos final, if_neg positive, if_pos final]
      rfl
    · rw [if_neg positive, if_neg final, if_neg positive, if_neg final]
      show _ = (sleb >>= _) data next
      simp only [bind, sleb]
      cases slebAt data next <;> rfl

/-- A read that gives a value sees the bytes from where it begins up to where it stops. -/
structure LocalRead (r : Reader ReadFault α) (data : Bytes) (start : Nat) (a : α) (stop : Nat) :
    Prop where
  forward : start ≤ stop
  inside : start < stop → stop ≤ data.length
  alike : ∀ ⦃other⦄, data.Agrees other start stop → r other start = .done a stop
  cut : data.length < positionBound → ∀ ⦃short : Bytes⦄, start ≤ short.length →
    short.length < stop → data.Agrees short start short.length →
    ∃ wanted got, r short start = .failed (.endOfData short.length wanted got) short.length

/-- Every read that succeeds sees the bytes that it takes and no others. -/
def Local (r : Reader ReadFault α) : Prop :=
  ∀ ⦃data start a stop⦄, r data start = .done a stop → LocalRead r data start a stop

/-- Two reads in a row see the bytes that both take. -/
lemma LocalRead.bind {r : Reader ReadFault α} {f : α → Reader ReadFault β} {data : Bytes}
    {start middle stop : Nat} {a : α} {b : β} (first : LocalRead r data start a middle)
    (second : LocalRead (f a) data middle b stop) : LocalRead (r >>= f) data start b stop where
  forward := Nat.le_trans first.forward second.forward
  inside some_ := by
    rcases Nat.eq_or_lt_of_le second.forward with rfl | later
    · exact first.inside some_
    · exact second.inside later
  alike other same := by
    rw [bind_of_done (first.alike (same.mono (Nat.le_refl _) second.forward))]
    exact second.alike (same.mono first.forward (Nat.le_refl _))
  cut inRange short reached ends same := by
    by_cases early : short.length < middle
    · -- The data ends in the first read.
      obtain ⟨wanted, got, failed⟩ := first.cut inRange reached early same
      exact ⟨wanted, got, bind_of_failed failed⟩
    · rw [Nat.not_lt] at early
      rw [bind_of_done (first.alike (same.mono (Nat.le_refl _) early))]
      exact second.cut inRange early ends (same.mono first.forward (Nat.le_refl _))

namespace Local

lemma pure (a : α) : Local (pure a : Reader ReadFault α) := by
  intro data start b stop h
  obtain ⟨rfl, rfl⟩ := pure_done h
  exact ⟨Nat.le_refl _, fun some_ => absurd some_ (Nat.lt_irrefl _), fun _ _ => rfl,
    fun _ _ reached ends => absurd ends (Nat.not_lt.2 reached)⟩

lemma bind {r : Reader ReadFault α} {f : α → Reader ReadFault β} (hr : Local r)
    (hf : ∀ a, Local (f a)) : Local (r >>= f) := by
  intro data start b stop h
  obtain ⟨a, middle, h₁, h₂⟩ := bind_done h
  exact (hr h₁).bind (hf a h₂)

lemma bytes (count : Nat) : Local (bytes count) := by
  intro data start taken stop h
  unfold Reader.bytes at h
  dsimp only at h
  split at h
  · rename_i enough
    cases h
    have long := enough
    rw [List.length_take, List.length_drop] at long
    refine ⟨Nat.le_add_right _ _, fun _ => by omega, fun other same => ?_, ?_⟩
    · unfold Reader.bytes
      dsimp only
      rw [same.take_drop]
      exact if_pos enough
    · intro inRange short reached ends _
      have fewer : ((short.drop start).take count).length = short.length - start := by
        rw [List.length_take, List.length_drop]
        omega
      refine ⟨count, short.length - start, ?_⟩
      unfold Reader.bytes
      dsimp only
      rw [fewer, if_neg (by omega), if_pos (by omega), Nat.add_sub_cancel' reached]
  · split at h <;> cases h

lemma byte : Local byte := by
  intro data start b stop h
  obtain ⟨inside, rfl⟩ := byte_done h
  refine ⟨Nat.le_add_right _ _, fun _ => inside, fun other same => ?_, ?_⟩
  · unfold Reader.byte at h ⊢
    rw [same start (Nat.lt_add_one start) (Nat.le_refl start)]
    exact h
  · intro _ short reached ends _
    obtain rfl : start = short.length := by omega
    refine ⟨1, 0, ?_⟩
    unfold Reader.byte
    rw [List.getElem?_eq_none (Nat.le_refl _)]

/-- Each byte of a number leaves fewer, so all of them together are read locally. -/
lemma of_unrolls {r : Reader ReadFault α} {last : UInt8 → Option α} {more : UInt8 → α → α}
    (unrolls : Unrolls r last more) : Local r := by
  intro data start a stop h
  induction left : data.length - start using Nat.strongRecOn generalizing start a stop with
  | ind left ih =>
    unfold Unrolls at unrolls
    rw [unrolls] at h ⊢
    obtain ⟨b, middle, first, h⟩ := bind_done h
    refine (byte first).bind ?_
    cases ended : last b with
    | some value =>
      simp only [ended] at h ⊢
      exact pure value h
    | none =>
      simp only [ended] at h ⊢
      obtain ⟨inner, behind, others, h⟩ := bind_done h
      have := byte_done first
      exact (ih (data.length - middle) (by omega) others rfl).bind (pure _ h)

lemma uleb : Local uleb := of_unrolls uleb_unrolls

lemma sleb : Local sleb := of_unrolls sleb_unrolls

lemma unsigned (width : Nat) : Local (unsigned width) := (bytes width).bind fun _ => pure _

lemma string (count : Nat) : Local (string count) := (bytes count).bind fun _ => pure _

lemma name : Local name := uleb.bind string

lemma times {r : Reader ReadFault α} (h : Local r) (count : Nat) : Local (times count r) := by
  induction count with
  | zero => exact pure []
  | succ count ih => exact h.bind fun a => ih.bind fun rest => pure (a :: rest)

end Local

/-- The readers that go on from where a stream stands: bytes, numbers, texts and rows of these. -/
inductive Onward : ∀ {α : Type}, Reader ReadFault α → Prop where
  | byte : Onward byte
  | unsigned (width : Nat) : Onward (unsigned width)
  | bytes (count : Nat) : Onward (bytes count)
  | string (count : Nat) : Onward (string count)
  | uleb : Onward uleb
  | sleb : Onward sleb
  | name : Onward name
  | times {α : Type} {r : Reader ReadFault α} (count : Nat) (each : Onward r) :
    Onward (times count r)

lemma Onward.isLocal {r : Reader ReadFault α} (h : Onward r) : Local r := by
  induction h with
  | byte => exact .byte
  | unsigned width => exact .unsigned width
  | bytes count => exact .bytes count
  | string count => exact .string count
  | uleb => exact .uleb
  | sleb => exact .sleb
  | name => exact .name
  | times count _ ih => exact ih.times count

end Reader

namespace ByteStream

variable {α : Type}

/-- The reads of a stream, with the position where one begins if the stream stands at a position. -/
inductive Reading :
    ∀ {α : Type}, (Nat → Nat) → (ByteStream → Except StreamFault α × ByteStream) → Prop where
  | once {α : Type} {r : Reader ReadFault α} (onward : r.Onward) : Reading id (read r)
  | bytes (count : Nat) : Reading id (bytes count)
  | array {α : Type} {r : Reader ReadFault α} (count : Int) (onward : r.Onward) :
    Reading id (array count r)
  | arrayAt {α : Type} {r : Reader ReadFault α} (address : Nat)
    (inRange : address < Reader.positionBound) (count : Int) (onward : r.Onward) :
    Reading (fun _ => address) (arrayAt address count r)

variable {begins : Nat → Nat} {operation : ByteStream → Except StreamFault α × ByteStream}

lemma read_of_done {r : Reader ReadFault α} {data : Bytes} {start stop : Nat} {a : α}
    (h : r data start = .done a stop) :
    read r ⟨data, start, false⟩ = (.ok a, ⟨data, stop, false⟩) := by
  simp only [read, h, Bool.false_eq_true, if_false]

lemma read_of_failed {r : Reader ReadFault α} {data : Bytes} {start stop : Nat} {fault : ReadFault}
    (h : r data start = .failed fault stop) :
    read r ⟨data, start, false⟩ = (.error (.unreadable fault), ⟨data, stop, false⟩) := by
  simp only [read, h, Bool.false_eq_true, if_false]

lemma read_ok {r : Reader ReadFault α} {data : Bytes} {start : Nat} {a : α} {after : ByteStream}
    (h : read r ⟨data, start, false⟩ = (.ok a, after)) :
    ∃ stop, r data start = .done a stop ∧ after = ⟨data, stop, false⟩ := by
  cases e : r data start with
  | done b stop =>
    rw [read_of_done e] at h
    cases h
    exact ⟨stop, rfl, rfl⟩
  | failed fault stop =>
    rw [read_of_failed e] at h
    cases h

lemma array_eq_read (count : Int) (r : Reader ReadFault α) (data : Bytes) (position : Nat) :
    array count r ⟨data, position, false⟩ =
      read (Reader.times count.toNat r) ⟨data, position, false⟩ := by
  unfold array
  split
  · rename_i none
    rw [Int.toNat_of_nonpos none]
    rfl
  · rfl

lemma arrayAt_eq_read {address : Nat} (inRange : address < Reader.positionBound) (count : Int)
    (r : Reader ReadFault α) (data : Bytes) (position : Nat) :
    arrayAt address count r ⟨data, position, false⟩ =
      read (Reader.times count.toNat r) ⟨data, address, false⟩ := by
  have there : seek address ⟨data, position, false⟩ = (.ok (), ⟨data, address, false⟩) :=
    read_of_done (if_pos (.inr inRange))
  unfold arrayAt
  rw [there]
  exact array_eq_read count r data address

/-- Every read of a stream is one by a local reader from where it begins. -/
lemma Reading.eq_read (reading : Reading begins operation) :
    ∃ r : Reader ReadFault α, r.Local ∧ ∀ data position,
      operation ⟨data, position, false⟩ = read r ⟨data, begins position, false⟩ := by
  cases reading with
  | once onward => exact ⟨_, onward.isLocal, fun _ _ => rfl⟩
  | bytes count => exact ⟨_, .bytes count, fun _ _ => rfl⟩
  | array count onward => exact ⟨_, onward.isLocal.times count.toNat, array_eq_read count _⟩
  | arrayAt address inRange count onward =>
    exact ⟨_, onward.isLocal.times count.toNat, arrayAt_eq_read inRange count _⟩

/-- A read that succeeds goes forward and sees the bytes from where it begins to where it stops: on
any data with the same bytes there, as on the data with more behind it, it gives the same and stops
at the same place, and on data that ends among these bytes it is told so and is left at this end.
The last is said of data of which all positions are in range, as there is no other in memory. -/
theorem reading_local (reading : Reading begins operation) {data : Bytes} {position : Nat} {a : α}
    {after : ByteStream} (success : operation ⟨data, position, false⟩ = (.ok a, after)) :
    ∃ stop, after = ⟨data, stop, false⟩ ∧ begins position ≤ stop ∧
      (∀ other, data.Agrees other (begins position) stop →
        operation ⟨other, position, false⟩ = (.ok a, ⟨other, stop, false⟩)) ∧
      (∀ more, operation ⟨data ++ more, position, false⟩ =
        (.ok a, ⟨data ++ more, stop, false⟩)) ∧
      (data.length < Reader.positionBound → ∀ short : Bytes, begins position ≤ short.length →
        short.length < stop → data.Agrees short (begins position) short.length →
        ∃ wanted got, operation ⟨short, position, false⟩ =
          (.error (.unreadable (.endOfData short.length wanted got)),
            ⟨short, short.length, false⟩)) := by
  obtain ⟨r, isLocal, same⟩ := reading.eq_read
  rw [same] at success
  obtain ⟨stop, read, rfl⟩ := read_ok success
  have reads := isLocal read
  refine ⟨stop, rfl, reads.forward, fun other agrees => ?_, fun more => ?_, ?_⟩
  · rw [same]
    exact read_of_done (reads.alike agrees)
  · rw [same]
    exact read_of_done (reads.alike (Bytes.agrees_append reads.inside more))
  · intro inRange short reached ends agrees
    obtain ⟨wanted, got, failed⟩ := reads.cut inRange reached ends agrees
    refine ⟨wanted, got, ?_⟩
    rw [same]
    exact read_of_failed failed

/-- Two texts between two bytes that belong to neither; the length of the second is padded. -/
def twoNames : Bytes := [0xff, 0x02, 0x68, 0x69, 0x81, 0x00, 0x21, 0x07]

/-- Read as a row, the texts do not depend on the bytes around them, and where the length of the
second is cut off the row ends. -/
theorem reading_local_twoNames :
    array 2 Reader.name ⟨twoNames, 1, false⟩ = (.ok ["hi", "!"], ⟨twoNames, 7, false⟩) ∧
      array 2 Reader.name ⟨[0x00, 0x02, 0x68, 0x69, 0x81, 0x00, 0x21], 1, false⟩ =
        (.ok ["hi", "!"], ⟨[0x00, 0x02, 0x68, 0x69, 0x81, 0x00, 0x21], 7, false⟩) ∧
      ∃ wanted got, array 2 Reader.name ⟨twoNames.take 5, 1, false⟩ =
        (.error (.unreadable (.endOfData 5 wanted got)), ⟨twoNames.take 5, 5, false⟩) := by
  have success : array 2 Reader.name ⟨twoNames, 1, false⟩ =
      (.ok ["hi", "!"], ⟨twoNames, 7, false⟩) := by
    decide +kernel
  obtain ⟨stop, after, _, alike, _, cut⟩ := reading_local (.array 2 .name) success
  obtain rfl : 7 = stop := congrArg ByteStream.position after
  exact ⟨success, alike _ (by decide), cut (by decide) _ (by decide) (by decide) (by decide)⟩

end ByteStream

end WasmSourceMap
