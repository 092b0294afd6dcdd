import Mathlib.Tactic.Lemma
import WasmSourceMap.Reader.Progress

/-!
# Reading in front of more bytes

A reader is `Stable` if what it reads does not change when more bytes follow the data: it may be
refused less, but a read that succeeded stays the same. Stable readers are closed under everything
that readers are put together with, the length of the data excepted, which may only be demanded. A
reader is `Anywhere` if, besides, its place in the data is its own, wherever it begins.

A run of reads up to a position goes on where it stopped if the position moves further off
(`repeatUntilAt_further`).
-/

namespace WasmSourceMap.Reader

variable {ε ε' α β : Type}

/-- What is read stays the same if more bytes follow the data. -/
def Stable (r : Reader ε α) : Prop :=
  ∀ ⦃data position a next⦄, r data position = .done a next →
    ∀ more, r (data ++ more) position = .done a next

/-- What is read stays the same wherever the reader begins and if more bytes follow the data. -/
def Anywhere (r : Reader ε α) : Prop :=
  ∀ ⦃data position a next⦄, r data position = .done a next →
    ∀ more start, ∃ stop, r (data ++ more) start = .done a stop

/-- A read goes on after a read that succeeded. -/
lemma bind_of_done {r : Reader ε α} {f : α → Reader ε β} {data : Bytes} {position next : Nat} {a : α}
    (h : r data position = .done a next) : (r >>= f) data position = f a data next := by
  simp only [bind, h]

lemma mapFault_of_done {f : ε → ε'} {r : Reader ε α} {data : Bytes} {position next : Nat} {a : α}
    (h : r data position = .done a next) : mapFault f r data position = .done a next := by
  simp only [mapFault, h]

lemma run_of_done {r : Reader ε α} {data : Bytes} {position next : Nat} {a : α}
    (h : r data position = .done a next) : r.run data position = .ok a := by
  simp only [run, h]

lemma run_ok {r : Reader ε α} {data : Bytes} {position : Nat} {a : α}
    (h : r.run data position = .ok a) : ∃ next, r data position = .done a next := by
  unfold run at h
  split at h
  · rename_i b next found
    cases h
    exact ⟨next, found⟩
  · cases h

lemma check_done {condition : Bool} {fault : ε} {data : Bytes} {position next : Nat} {u : Unit}
    (h : check condition fault data position = .done u next) :
    condition = true ∧ next = position := by
  unfold check at h
  split at h
  · rename_i holds
    exact ⟨holds, (pure_done h).2.symm⟩
  · cases h

lemma check_of_true {condition : Bool} (h : condition = true) (fault : ε) (data : Bytes)
    (position : Nat) : check condition fault data position = .done () position := by
  rw [check, if_pos h]
  rfl

/-- A reader that begins with a demand on the length of the data. -/
lemma demand_done {least : Nat} {fault : ε} {f : Unit → Reader ε α} {data : Bytes}
    {position next : Nat} {a : α}
    (h : (length >>= fun n => check (least ≤ n) fault >>= f) data position = .done a next) :
    least ≤ data.length ∧ f () data position = .done a next := by
  change (check (least ≤ data.length) fault >>= f) data position = _ at h
  obtain ⟨u, middle, met, rest⟩ := bind_done h
  obtain ⟨enough, rfl⟩ := check_done met
  exact ⟨of_decide_eq_true enough, rest⟩

lemma demand_of_le {least : Nat} (fault : ε) {f : Unit → Reader ε α} {data : Bytes}
    (enough : least ≤ data.length) (position : Nat) :
    (length >>= fun n => check (least ≤ n) fault >>= f) data position = f () data position := by
  show (check (least ≤ data.length) fault >>= f) data position = _
  exact bind_of_done (check_of_true (decide_eq_true enough) fault data position)

namespace Stable

lemma pure (a : α) : Stable (pure a : Reader ε α) := fun _ _ _ _ h _ => h

lemma fail (fault : ε) : Stable (fail fault : Reader ε α) := nofun

lemma position : Stable (position : Reader ε Nat) := fun _ _ _ _ h _ => h

lemma check (condition : Bool) (fault : ε) : Stable (check condition fault) := by
  unfold Reader.check
  split
  · exact pure ()
  · exact fail fault

lemma bind {r : Reader ε α} {f : α → Reader ε β} (hr : Stable r) (hf : ∀ a, Stable (f a)) :
    Stable (r >>= f) := by
  intro data position b next h more
  obtain ⟨a, middle, h₁, h₂⟩ := bind_done h
  rw [bind_of_done (hr h₁ more)]
  exact hf a h₂ more

/-- A demand on the length is met all the more if more bytes follow. -/
lemma demand (least : Nat) (fault : ε) {f : Unit → Reader ε α} (hf : ∀ u, Stable (f u)) :
    Stable (length >>= fun n => Reader.check (least ≤ n) fault >>= f) := by
  intro data position a next h more
  obtain ⟨enough, h⟩ := demand_done h
  rw [demand_of_le fault (by rw [List.length_append]; omega)]
  exact hf () h more

lemma mapFault {r : Reader ε α} (h : Stable r) (f : ε → ε') : Stable (r.mapFault f) :=
  fun _ _ _ _ e more => mapFault_of_done (h (mapFault_done e) more)

lemma seek (target : Nat) : Stable (seek target) := by
  intro data position u next h more
  unfold Reader.seek at h ⊢
  split at h
  · rename_i reached
    rw [if_pos (by rw [List.length_append]; omega)]
    exact h
  · cases h

lemma byte : Stable byte := by
  intro data position b next h more
  have inside := (byte_done h).1
  unfold Reader.byte at h ⊢
  rw [List.getElem?_append_left inside]
  exact h

lemma bytes (count : Nat) : Stable (bytes count) := by
  intro data position taken next h more
  unfold Reader.bytes at h ⊢
  dsimp only at h ⊢
  split at h
  · rename_i enough
    have same : ((data ++ more).drop position).take count = (data.drop position).take count := by
      rw [List.length_take, List.length_drop] at enough
      rcases Nat.eq_zero_or_pos count with rfl | some
      · rw [List.take_zero, List.take_zero]
      · rw [List.drop_append_of_le_length (by omega), List.take_append_of_le_length]
        rw [List.length_drop]
        omega
    rw [same, if_pos enough]
    exact h
  · split at h <;> cases h

lemma uleb : Stable uleb := by
  intro data position n next h more
  change ulebAt data position = _ at h
  show ulebAt (data ++ more) position = _
  fun_induction ulebAt data position generalizing n next with
  | case1 => cases h
  | case2 position b middle e last =>
    rw [ulebAt, byte e more]
    exact (if_pos last).trans h
  | case3 position b middle e goesOn m stop inner ih =>
    rw [ulebAt, byte e more]
    dsimp only
    rw [if_neg goesOn, ih inner]
    exact h
  | case4 => cases h

lemma sleb : Stable sleb := by
  intro data position z next h more
  change slebAt data position = _ at h
  show slebAt (data ++ more) position = _
  fun_induction slebAt data position generalizing z next with
  | case1 => cases h
  | case2 position b middle e last =>
    rw [slebAt, byte e more]
    exact (if_pos last).trans h
  | case3 position b middle e positive last =>
    rw [slebAt, byte e more]
    dsimp only
    rw [if_neg positive, if_pos last]
    exact h
  | case4 position b middle e positive goesOn m stop inner ih =>
    rw [slebAt, byte e more]
    dsimp only
    rw [if_neg positive, if_neg goesOn, ih inner]
    exact h
  | case5 => cases h

lemma unsigned (width : Nat) : Stable (unsigned width) := (bytes width).bind fun _ => pure _

lemma string (count : Nat) : Stable (string count) := (bytes count).bind fun _ => pure _

lemma name : Stable name := uleb.bind string

lemma times {r : Reader ε α} (h : Stable r) (count : Nat) : Stable (times count r) := by
  induction count with
  | zero => exact pure []
  | succ count ih => exact h.bind fun a => ih.bind fun rest => pure (a :: rest)

end Stable

section

variable {r : Reader ε α} {advances : Advances r} {stop : Nat} {data : Bytes} {position last : Nat}
  {items : List α}

lemma le_of_repeatUntilAt (h : repeatUntilAt stop r advances data position = .done items last) :
    stop ≤ last := by
  fun_induction repeatUntilAt stop r advances data position generalizing items last with
  | case1 => cases h
  | case2 position before a next e rest end_ inner ih =>
    cases h
    exact ih inner
  | case3 => cases h
  | case4 position after =>
    cases h
    omega

/-- A run of reads that stop before a bound stops before the bound. -/
lemma repeatUntilAt_le {bound : Nat}
    (inside : ∀ p a q, r data p = .done a q → q ≤ bound) (start : position ≤ bound)
    (h : repeatUntilAt stop r advances data position = .done items last) : last ≤ bound := by
  fun_induction repeatUntilAt stop r advances data position generalizing items last with
  | case1 => cases h
  | case2 position before a next e rest end_ inner ih =>
    cases h
    exact ih (inside _ _ _ e) inner
  | case3 => cases h
  | case4 position after =>
    cases h
    exact start

/-- Each item of a run was read somewhere. -/
lemma read_of_mem_repeatUntilAt
    (h : repeatUntilAt stop r advances data position = .done items last) {a : α} (m : a ∈ items) :
    ∃ p q, r data p = .done a q := by
  fun_induction repeatUntilAt stop r advances data position generalizing items last with
  | case1 => cases h
  | case2 position before first next e rest end_ inner ih =>
    cases h
    rcases List.mem_cons.1 m with rfl | m
    · exact ⟨position, next, e⟩
    · exact ih inner m
  | case3 => cases h
  | case4 position after =>
    cases h
    cases m

/-- A run up to a position that lies further off goes on where the run stopped. -/
lemma repeatUntilAt_further (stable : Stable r) {further : Nat} (le : stop ≤ further)
    (h : repeatUntilAt stop r advances data position = .done items last) {more : Bytes}
    {rest : List α} {final : Nat}
    (later : repeatUntilAt further r advances (data ++ more) last = .done rest final) :
    repeatUntilAt further r advances (data ++ more) position = .done (items ++ rest) final := by
  fun_induction repeatUntilAt stop r advances data position generalizing items last with
  | case1 => cases h
  | case2 position before first next e others end_ inner ih =>
    -- What lies before the nearer end lies before the further one, so this item is read there too.
    cases h
    rw [repeatUntilAt, if_pos (by omega), stable e more]
    dsimp only
    rw [ih inner later]
    rfl
  | case3 => cases h
  | case4 position after =>
    cases h
    exact later

lemma repeatUntilAt_of_le (advances : Advances r) (data : Bytes) (h : stop ≤ position) :
    repeatUntilAt stop r advances data position = .done [] position := by
  rw [repeatUntilAt, if_neg (by omega)]

lemma Stable.repeatUntil (h : Stable r) (stop : Nat) (advances : Advances r) :
    Stable (repeatUntil stop r advances) := by
  intro data position items last e more
  -- The run itself, followed by one that begins where it ended and so reads nothing.
  have ends := repeatUntilAt_of_le advances (data ++ more) (le_of_repeatUntilAt e)
  have all := repeatUntilAt_further h (Nat.le_refl stop) e ends
  rw [List.append_nil] at all
  exact all

end

namespace Anywhere

lemma pure (a : α) : Anywhere (pure a : Reader ε α) := by
  intro data position b next h more start
  obtain ⟨rfl, _⟩ := pure_done h
  exact ⟨start, rfl⟩

lemma bind {r : Reader ε α} {f : α → Reader ε β} (hr : Anywhere r) (hf : ∀ a, Anywhere (f a)) :
    Anywhere (r >>= f) := by
  intro data position b next h more start
  obtain ⟨a, middle, h₁, h₂⟩ := bind_done h
  obtain ⟨stop, e⟩ := hr h₁ more start
  rw [bind_of_done e]
  exact hf a h₂ more stop

/-- A reader that first goes to a place of its own. -/
lemma seek_bind {f : Unit → Reader ε α} (fault : ReadFault → ε) (target : Nat)
    (hf : ∀ u, Stable (f u)) : Anywhere ((seek target).mapFault fault >>= f) := by
  intro data position a next h more start
  obtain ⟨u, middle, h₁, h₂⟩ := bind_done h
  have there : seek target (data ++ more) start = .done u middle := by
    have reached := Stable.seek target (mapFault_done h₁) more
    unfold Reader.seek at reached ⊢
    split at reached
    · rename_i possible
      rw [if_pos possible]
      exact reached
    · cases reached
  exact ⟨next, (bind_of_done (mapFault_of_done there)).trans (hf u h₂ more)⟩

end Anywhere

end WasmSourceMap.Reader
