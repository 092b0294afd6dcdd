import WasmSourceMap.Proofs.Reader.Extension

/-!
# Reading the front of some data

The first bytes of some data are read as the data is, as far as they reach: a read that succeeds on
the data gives the same on the first `n` bytes of it, or fails there (`Shortened`). How it can fail
is a property of faults that holds if it holds for the parts that a reader is put together with. For
the smallest parts it is the end of the data, and never a position out of range, as long as the data
itself is not so long that it has such positions (`Short`).
-/

namespace WasmSourceMap.Reader

variable {ε ε' α β : Type}

/-- What is read of the data is read of its first `n` bytes, or the read of these fails with a fault
of some property. -/
def Shortened (P : ε → Prop) (data : Bytes) (n : Nat) (r : Reader ε α) : Prop :=
  ∀ ⦃position a next⦄, r data position = .done a next →
    r (data.take n) position = .done a next ∨
      ∃ fault last, r (data.take n) position = .failed fault last ∧ P fault

/-- No read goes on after one that failed. -/
lemma bind_of_failed {r : Reader ε α} {f : α → Reader ε β} {data : Bytes} {position next : Nat}
    {fault : ε} (h : r data position = .failed fault next) :
    (r >>= f) data position = .failed fault next := by
  simp only [bind, h]

lemma mapFault_of_failed {f : ε → ε'} {r : Reader ε α} {data : Bytes} {position next : Nat}
    {fault : ε} (h : r data position = .failed fault next) :
    mapFault f r data position = .failed (f fault) next := by
  simp only [mapFault, h]

/-- Data of which all positions are in range is not refused for a position. -/
def Short (data : Bytes) (fault : ReadFault) : Prop :=
  data.length < positionBound → fault ≠ .outOfRange

lemma short_endOfData (data : Bytes) (offset : Nat) (wanted : Int) (got : Nat) :
    Short data (.endOfData offset wanted got) := nofun

namespace Shortened

variable {P : ε → Prop} {data : Bytes} {n : Nat}

lemma pure (a : α) : Shortened P data n (pure a : Reader ε α) := fun _ _ _ h => .inl h

lemma fail (fault : ε) : Shortened P data n (fail fault : Reader ε α) := nofun

lemma position : Shortened P data n (position : Reader ε Nat) := fun _ _ _ h => .inl h

lemma check (condition : Bool) (fault : ε) : Shortened P data n (check condition fault) := by
  unfold Reader.check
  split
  · exact pure ()
  · exact fail fault

lemma bind {r : Reader ε α} {f : α → Reader ε β} (hr : Shortened P data n r)
    (hf : ∀ a, Shortened P data n (f a)) : Shortened P data n (r >>= f) := by
  intro position b next h
  obtain ⟨a, middle, h₁, h₂⟩ := bind_done h
  obtain same | ⟨fault, last, failed, known⟩ := hr h₁
  · rw [bind_of_done same]
    exact hf a h₂
  · exact .inr ⟨fault, last, bind_of_failed failed, known⟩

/-- A demand on the length that the data meets may be the fault of its front. -/
lemma demand {least : Nat} {fault : ε} (known : P fault) {f : Unit → Reader ε α}
    (hf : Shortened P data n (f ())) :
    Shortened P data n (length >>= fun k => Reader.check (least ≤ k) fault >>= f) := by
  intro position a next h
  obtain ⟨_, h⟩ := demand_done h
  by_cases enough : least ≤ (data.take n).length
  · rw [demand_of_le fault enough]
    exact hf h
  · refine .inr ⟨fault, position, ?_, known⟩
    show (Reader.check (decide (least ≤ (data.take n).length)) fault >>= f) _ position = _
    rw [decide_eq_false enough]
    rfl

lemma mapFault {Q : ε' → Prop} {f : ε → ε'} {r : Reader ε α}
    (h : Shortened (fun fault => Q (f fault)) data n r) : Shortened Q data n (r.mapFault f) := by
  intro position a next read
  obtain same | ⟨fault, last, failed, known⟩ := h (mapFault_done read)
  · exact .inl (mapFault_of_done same)
  · exact .inr ⟨f fault, last, mapFault_of_failed failed, known⟩

lemma times {r : Reader ε α} (h : Shortened P data n r) (count : Nat) :
    Shortened P data n (times count r) := by
  induction count with
  | zero => exact pure []
  | succ count ih => exact h.bind fun a => ih.bind fun rest => pure (a :: rest)

/-- A position behind the front can still be gone to. -/
lemma seek (target : Nat) : Shortened (Short data) data n (seek target) := by
  intro position u next h
  unfold Reader.seek at h ⊢
  split at h
  · rename_i reached
    by_cases here : target ≤ (data.take n).length ∨ target < positionBound
    · rw [if_pos here]
      exact .inl h
    · rw [if_neg here]
      refine .inr ⟨_, _, rfl, fun inRange => ?_⟩
      omega
  · cases h

lemma byte : Shortened (Short data) data n byte := by
  intro position b next h
  unfold Reader.byte at h ⊢
  by_cases inside : position < n
  · rw [List.getElem?_take_of_lt inside]
    exact .inl h
  · rw [List.getElem?_take_eq_none (by omega)]
    exact .inr ⟨_, _, rfl, short_endOfData data position 1 0⟩

lemma bytes (count : Nat) : Shortened (Short data) data n (bytes count) := by
  intro position taken next h
  unfold Reader.bytes at h ⊢
  dsimp only at h ⊢
  split at h
  · rename_i enough
    have fits : count ≤ data.length := by
      rw [List.length_take, List.length_drop] at enough
      omega
    split
    · rename_i still
      have same : ((data.take n).drop position).take count = (data.drop position).take count := by
        rw [List.length_take, List.length_drop, List.length_take] at still
        rw [List.drop_take, List.take_take]
        congr 1
        omega
      rw [same]
      exact .inl h
    · split
      · exact .inr ⟨_, _, rfl, short_endOfData data _ count _⟩
      · exact .inr ⟨_, _, rfl, fun inRange => by omega⟩
  · split at h <;> cases h

lemma uleb : Shortened (Short data) data n uleb := by
  intro position m next h
  change ulebAt data position = _ at h
  show ulebAt (data.take n) position = _ ∨ ∃ fault last, ulebAt (data.take n) position = _ ∧ _
  -- Byte by byte: the cut may lie behind any of them.
  fun_induction ulebAt data position generalizing m next with
  | case1 => cases h
  | case2 position b middle e last =>
    obtain same | ⟨fault, final, failed, known⟩ := byte e
    · rw [ulebAt, same]
      exact .inl ((if_pos last).trans h)
    · rw [ulebAt, failed]
      exact .inr ⟨fault, final, rfl, known⟩
  | case3 position b middle e goesOn k stop inner ih =>
    obtain same | ⟨fault, final, failed, known⟩ := byte e
    · rw [ulebAt, same]
      dsimp only
      rw [if_neg goesOn]
      obtain here | ⟨fault, final, failed, known⟩ := ih inner
      · rw [here]
        exact .inl h
      · rw [failed]
        exact .inr ⟨fault, final, rfl, known⟩
    · rw [ulebAt, failed]
      exact .inr ⟨fault, final, rfl, known⟩
  | case4 => cases h

lemma sleb : Shortened (Short data) data n sleb := by
  intro position z next h
  change slebAt data position = _ at h
  show slebAt (data.take n) position = _ ∨ ∃ fault last, slebAt (data.take n) position = _ ∧ _
  fun_induction slebAt data position generalizing z next with
  | case1 => cases h
  | case2 position b middle e last =>
    obtain same | ⟨fault, final, failed, known⟩ := byte e
    · rw [slebAt, same]
      exact .inl ((if_pos last).trans h)
    · rw [slebAt, failed]
      exact .inr ⟨fault, final, rfl, known⟩
  | case3 position b middle e positive last =>
    obtain same | ⟨fault, final, failed, known⟩ := byte e
    · rw [slebAt, same]
      dsimp only
      rw [if_neg positive]
      exact .inl ((if_pos last).trans h)
    · rw [slebAt, failed]
      exact .inr ⟨fault, final, rfl, known⟩
  | case4 position b middle e positive goesOn y stop inner ih =>
    obtain same | ⟨fault, final, failed, known⟩ := byte e
    · rw [slebAt, same]
      dsimp only
      rw [if_neg positive, if_neg goesOn]
      obtain here | ⟨fault, final, failed, known⟩ := ih inner
      · rw [here]
        exact .inl h
      · rw [failed]
        exact .inr ⟨fault, final, rfl, known⟩
    · rw [slebAt, failed]
      exact .inr ⟨fault, final, rfl, known⟩
  | case5 => cases h

lemma unsigned (width : Nat) : Shortened (Short data) data n (unsigned width) :=
  (bytes width).bind fun _ => pure _

lemma name : Shortened (Short data) data n name :=
  uleb.bind fun count => (bytes count).bind fun _ => pure _

end Shortened

end WasmSourceMap.Reader
