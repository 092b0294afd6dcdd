import WasmSourceMap.Proofs.Reader.Extension

/-!
# What readers answer

A property of faults that holds for the parts of a reader holds for the reader (`FailsIn`), and so
does a property of the values that its last part reads (`Gives`). So what a reader can answer is
found out by going through its parts.
-/

namespace WasmSourceMap.Reader

variable {ε ε' α β : Type}

/-- A read that begins at a position fails with a fault of some property, if it fails. -/
def FailsIn (P : ε → Prop) (data : Bytes) (position : Nat) (r : Reader ε α) : Prop :=
  ∀ ⦃fault next⦄, r data position = .failed fault next → P fault

/-- One of two reads fails when both together do. -/
lemma bind_failed {r : Reader ε α} {f : α → Reader ε β} {data : Bytes} {position next : Nat}
    {fault : ε} (h : (r >>= f) data position = .failed fault next) :
    r data position = .failed fault next ∨
      ∃ a middle, r data position = .done a middle ∧ f a data middle = .failed fault next := by
  cases first : r data position with
  | done a middle =>
    rw [bind_of_done first] at h
    exact .inr ⟨a, middle, rfl, h⟩
  | failed own middle =>
    simp only [bind, first] at h
    cases h
    exact .inl rfl

namespace FailsIn

variable {P : ε → Prop} {data : Bytes} {position : Nat}

lemma pure (a : α) : FailsIn P data position (pure a : Reader ε α) := nofun

lemma here : FailsIn P data position (Reader.position : Reader ε Nat) := nofun

lemma fail {fault : ε} (h : P fault) : FailsIn P data position (fail fault : Reader ε α) := by
  intro own next failed
  cases failed
  exact h

lemma check (condition : Bool) {fault : ε} (h : P fault) :
    FailsIn P data position (check condition fault) := by
  unfold Reader.check
  split
  · exact pure ()
  · exact fail h

lemma bind {r : Reader ε α} {f : α → Reader ε β} (hr : FailsIn P data position r)
    (hf : ∀ a next, r data position = .done a next → FailsIn P data next (f a)) :
    FailsIn P data position (r >>= f) := by
  intro fault next failed
  obtain first | ⟨a, middle, first, second⟩ := bind_failed failed
  · exact hr first
  · exact hf a middle first second

lemma mapFault {Q : ε' → Prop} {f : ε → ε'} {r : Reader ε α}
    (h : FailsIn (fun fault => Q (f fault)) data position r) :
    FailsIn Q data position (r.mapFault f) := by
  intro fault next failed
  unfold Reader.mapFault at failed
  split at failed
  · cases failed
  · rename_i own last first
    cases failed
    exact h first

/-- A demand on the length of the data that is not met is the fault. -/
lemma demand {least : Nat} {fault : ε} (h : P fault) {f : Unit → Reader ε α}
    (hf : least ≤ data.length → FailsIn P data position (f ())) :
    FailsIn P data position (length >>= fun n => Reader.check (least ≤ n) fault >>= f) := by
  by_cases enough : least ≤ data.length
  · intro own next failed
    rw [demand_of_le fault enough] at failed
    exact hf enough failed
  · have refused : (length >>= fun n => Reader.check (least ≤ n) fault >>= f) data position =
        .failed fault position := by
      show (Reader.check (decide (least ≤ data.length)) fault >>= f) data position = _
      rw [decide_eq_false enough]
      rfl
    intro own next failed
    rw [refused] at failed
    cases failed
    exact h

lemma times {r : Reader ε α} (h : ∀ p, FailsIn P data p r) (count : Nat) :
    FailsIn P data position (times count r) := by
  induction count generalizing position with
  | zero => exact pure []
  | succ count ih =>
    exact bind (h position) fun a next _ => bind ih fun rest last _ => pure (a :: rest)

lemma repeatUntil {r : Reader ε α} (h : ∀ p, FailsIn P data p r) (stop : Nat)
    (advances : Advances r) : FailsIn P data position (repeatUntil stop r advances) := by
  intro fault last failed
  change repeatUntilAt stop r advances data position = _ at failed
  fun_induction repeatUntilAt stop r advances data position generalizing fault last with
  | case1 position before own next first =>
    cases failed
    exact h position first
  | case2 => cases failed
  | case3 position before a next first own end_ inner ih =>
    cases failed
    exact ih inner
  | case4 => cases failed

lemma collect {r : Reader ε (Option α)} (h : ∀ p, FailsIn P data p r) (consumes : Consumes r) :
    FailsIn P data position (collect r consumes) := by
  intro fault last failed
  change collectAt r consumes data position = _ at failed
  fun_induction collectAt r consumes data position generalizing fault last with
  | case1 position own next first =>
    cases failed
    exact h position first
  | case2 => cases failed
  | case3 => cases failed
  | case4 position a next first own end_ inner ih =>
    cases failed
    exact ih inner

lemma ofExcept {x : Except ε α} (h : ∀ fault, x = .error fault → P fault) :
    FailsIn P data position (ofExcept x) := by
  cases x with
  | ok a => exact pure a
  | error fault => exact fail (h fault rfl)

lemma mono {Q : ε → Prop} {r : Reader ε α} (h : FailsIn P data position r)
    (weaker : ∀ fault, P fault → Q fault) : FailsIn Q data position r :=
  fun fault _ failed => weaker fault (h failed)

/-- The fault of a run is that of the read. -/
lemma run_error {r : Reader ε α} (h : FailsIn P data position r) {fault : ε}
    (failed : r.run data position = .error fault) : P fault := by
  unfold run at failed
  split at failed
  · cases failed
  · rename_i own next first
    cases failed
    exact h first

end FailsIn

/-- Every value that is read has a property. -/
def Gives (Q : α → Prop) (r : Reader ε α) : Prop :=
  ∀ ⦃data position a next⦄, r data position = .done a next → Q a

namespace Gives

variable {Q : α → Prop}

lemma pure {a : α} (h : Q a) : Gives Q (pure a : Reader ε α) := by
  intro data position b next read
  rwa [← (pure_done read).1]

lemma fail {fault : ε} : Gives Q (fail fault : Reader ε α) := nofun

lemma bind {r : Reader ε β} {f : β → Reader ε α} (h : ∀ b, Gives Q (f b)) :
    Gives Q (r >>= f) := by
  intro data position a next read
  obtain ⟨b, middle, _, last⟩ := bind_done read
  exact h b last

/-- What the values of the first reader have can be made use of. -/
lemma bind_of {P : β → Prop} {r : Reader ε β} {f : β → Reader ε α} (hr : Gives P r)
    (h : ∀ b, P b → Gives Q (f b)) : Gives Q (r >>= f) := by
  intro data position a next read
  obtain ⟨b, middle, first, last⟩ := bind_done read
  exact h b (hr first) last

lemma collect {r : Reader ε (Option α)} (h : Gives (∀ a ∈ ·, Q a) r) (consumes : Consumes r) :
    Gives (∀ a ∈ ·, Q a) (collect r consumes) := by
  intro data position items next read
  change collectAt r consumes data position = _ at read
  fun_induction collectAt r consumes data position generalizing items next with
  | case1 => cases read
  | case2 =>
    cases read
    exact List.forall_mem_nil _
  | case3 position a middle first rest last inner ih =>
    cases read
    exact List.forall_mem_cons.2 ⟨h first a rfl, ih inner⟩
  | case4 => cases read

end Gives

end WasmSourceMap.Reader
