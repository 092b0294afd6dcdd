import WasmSourceMap.Reader

/-!
# Progress of readers

Where a reader can stop. Readers that stay inside the data (`Within`) and those that also move on
(`Consumes`) pass through `bind`: what begins with a reader that consumes and goes on inside the
data consumes as a whole. The lemmas that end in `done` take a read that succeeded apart.
-/

namespace WasmSourceMap.Reader

variable {ε ε' α β : Type}

/-- A bind that succeeds is two reads that succeed. -/
theorem bind_done {r : Reader ε α} {f : α → Reader ε β} {data : Bytes} {position next : Nat} {b : β}
    (h : (r >>= f) data position = .done b next) :
    ∃ a middle, r data position = .done a middle ∧ f a data middle = .done b next := by
  cases e : r data position with
  | done a middle =>
    simp only [bind, e] at h
    exact ⟨a, middle, rfl, h⟩
  | failed fault middle =>
    simp only [bind, e] at h
    cases h

/-- A pure value is read without moving. -/
theorem pure_done {data : Bytes} {position next : Nat} {a b : α}
    (h : (pure a : Reader ε α) data position = .done b next) : a = b ∧ position = next := by
  change Outcome.done a position = _ at h
  simpa using h

/-- A reader that succeeds behind a function on faults succeeds without it. -/
theorem mapFault_done {f : ε → ε'} {r : Reader ε α} {data : Bytes} {position next : Nat} {a : α}
    (h : mapFault f r data position = .done a next) : r data position = .done a next := by
  unfold mapFault at h
  split at h
  · simp_all
  · cases h

/-- The reader never goes back, and does not leave the data if it starts inside. -/
def Within (r : Reader ε α) : Prop :=
  ∀ ⦃data position a next⦄, r data position = .done a next →
    position ≤ next ∧ (position ≤ data.length → next ≤ data.length)

theorem Consumes.advances {r : Reader ε α} (h : Consumes r) : Advances r :=
  fun _ _ _ _ e => (h e).1

theorem Consumes.within {r : Reader ε α} (h : Consumes r) : Within r :=
  fun _ _ _ _ e => ⟨Nat.le_of_lt (h e).1, fun _ => (h e).2⟩

theorem Within.pure (a : α) : Within (pure a : Reader ε α) := by
  intro data position b next h
  have := (pure_done h).2
  exact ⟨by omega, by omega⟩

theorem Within.fail (fault : ε) : Within (fail fault : Reader ε α) := nofun

theorem Within.check (condition : Bool) (fault : ε) : Within (check condition fault) := by
  unfold Reader.check
  split
  · exact .pure ()
  · exact .fail fault

theorem Within.bind {r : Reader ε α} {f : α → Reader ε β} (hr : Within r)
    (hf : ∀ a, Within (f a)) : Within (r >>= f) := by
  intro data position b next h
  obtain ⟨a, middle, h₁, h₂⟩ := bind_done h
  have := hr h₁
  have := hf a h₂
  exact ⟨by omega, by omega⟩

theorem Consumes.bind {r : Reader ε α} {f : α → Reader ε β} (hr : Consumes r)
    (hf : ∀ a, Within (f a)) : Consumes (r >>= f) := by
  intro data position b next h
  obtain ⟨a, middle, h₁, h₂⟩ := bind_done h
  have := hr h₁
  have := hf a h₂
  exact ⟨by omega, by omega⟩

theorem Within.mapFault {r : Reader ε α} (h : Within r) (f : ε → ε') : Within (r.mapFault f) :=
  fun _ _ _ _ e => h (mapFault_done e)

theorem Consumes.mapFault {r : Reader ε α} (h : Consumes r) (f : ε → ε') :
    Consumes (r.mapFault f) :=
  fun _ _ _ _ e => h (mapFault_done e)

theorem Consumes.byte : Consumes byte := by
  intro data position b next h
  have := byte_done h
  omega

theorem Consumes.uleb : Consumes uleb := by
  intro data position n next h
  change ulebAt data position = _ at h
  fun_induction ulebAt data position generalizing n next with
  | case1 => cases h
  | case2 position b middle e hb =>
    have := byte_done e
    simp only [Outcome.done.injEq] at h
    omega
  | case3 position b middle e hb m last hm ih =>
    have := byte_done e
    simp only [Outcome.done.injEq] at h
    have := ih hm
    omega
  | case4 => cases h

theorem Consumes.sleb : Consumes sleb := by
  intro data position z next h
  change slebAt data position = _ at h
  fun_induction slebAt data position generalizing z next with
  | case1 => cases h
  | case2 position b middle e hb =>
    have := byte_done e
    simp only [Outcome.done.injEq] at h
    omega
  | case3 position b middle e hb hb' =>
    have := byte_done e
    simp only [Outcome.done.injEq] at h
    omega
  | case4 position b middle e hb hb' m last hm ih =>
    have := byte_done e
    simp only [Outcome.done.injEq] at h
    have := ih hm
    omega
  | case5 => cases h

theorem Within.bytes (count : Nat) : Within (bytes count) := by
  intro data position a next h
  unfold Reader.bytes at h
  dsimp only at h
  split at h
  · rename_i e
    simp only [List.length_take, List.length_drop] at e
    simp only [Outcome.done.injEq] at h
    exact ⟨by omega, by omega⟩
  · split at h <;> cases h

theorem Consumes.zeroTerminated : Consumes zeroTerminated := by
  intro data position a next h
  unfold Reader.zeroTerminated at h
  dsimp only at h
  split at h
  · rename_i e
    simp only [List.length_drop] at e
    simp only [Outcome.done.injEq] at h
    omega
  · cases h

/-- The seek goes where it is told. -/
theorem seek_done {target : Nat} {data : Bytes} {position next : Nat} {u : Unit}
    (h : seek target data position = .done u next) : next = target := by
  unfold seek at h
  split at h
  · simp only [Outcome.done.injEq] at h
    exact h.2.symm
  · cases h

/-- The position is where the reader stands. -/
theorem position_done {data : Bytes} {position next a : Nat}
    (h : (Reader.position : Reader ε Nat) data position = .done a next) :
    a = position ∧ next = position := by
  simp only [Reader.position, Outcome.done.injEq] at h
  omega

theorem Advances.byte : Advances byte := Consumes.byte.advances

theorem Advances.uleb : Advances uleb := Consumes.uleb.advances

end WasmSourceMap.Reader
