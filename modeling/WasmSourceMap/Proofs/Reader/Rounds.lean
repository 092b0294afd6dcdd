import WasmSourceMap.Proofs.Reader.Locality

/-!
# How often a reader is repeated

A loop over a reader goes through rounds, each of which begins where the one before it stopped,
until the loop is through or a round is refused (`Loops`). All loops of readers are such: those with
a count (`times_loops`), those up to a position (`repeatUntil_loops`), and the numbers, which are
loops over bytes (`Unrolls.loops`).

A reader that takes some bytes in every round (`Takes`) has no more rounds than the bytes that are
left allow, whatever count or position the loop is told (`Loops.le`). What is taken adds up along
`bind`. So a count that is kept is no more than the bytes behind it (`count_le_of_times`).
-/

namespace WasmSourceMap

namespace Outcome

variable {ε α : Type}

/-- The outcome of a loop with one item more in front. -/
def cons (a : α) : Outcome ε (List α) → Outcome ε (List α)
  | .done items position => .done (a :: items) position
  | .failed fault position => .failed fault position

/-- How and where an outcome ends, without the value. -/
def ending : Outcome ε α → Outcome ε Unit
  | .done _ position => .done () position
  | .failed fault position => .failed fault position

lemma ending_cons (a : α) (outcome : Outcome ε (List α)) :
    (outcome.cons a).ending = outcome.ending := by
  cases outcome <;> rfl

end Outcome

namespace Reader

variable {ε ε' α β : Type}

/-- The outcome of a loop over a reader from a position on, with the number of its rounds; a round
that is refused is not counted. -/
inductive Loops (r : Reader ε α) (data : Bytes) : Nat → Nat → Outcome ε (List α) → Prop where
  | through (position : Nat) : Loops r data position 0 (.done [] position)
  | refused {position last : Nat} {fault : ε} (failed : r data position = .failed fault last) :
    Loops r data position 0 (.failed fault last)
  | again {position next rounds : Nat} {a : α} {outcome : Outcome ε (List α)}
    (first : r data position = .done a next) (later : Loops r data next rounds outcome) :
    Loops r data position (rounds + 1) (outcome.cons a)

/-- A read that succeeds takes at least so many bytes of the data; a reader that takes none does not
go back. -/
def Takes (least : Nat) (r : Reader ε α) : Prop :=
  ∀ ⦃data position a next⦄, r data position = .done a next →
    position + least ≤ next ∧ (least ≠ 0 → position + least ≤ data.length)

namespace Takes

variable {least more : Nat}

lemma of_consumes {r : Reader ε α} (h : Consumes r) : Takes 1 r := by
  intro data position a next read
  have := h read
  omega

lemma of_within {r : Reader ε α} (h : Within r) : Takes 0 r :=
  fun _ _ _ _ read => ⟨(h read).1, fun some_ => absurd rfl some_⟩

lemma bind {r : Reader ε α} {f : α → Reader ε β} (hr : Takes least r)
    (hf : ∀ a, Takes more (f a)) : Takes (least + more) (r >>= f) := by
  intro data position b next read
  obtain ⟨a, middle, first, second⟩ := bind_done read
  have := hr first
  have := hf a second
  omega

lemma bind_within {r : Reader ε α} {f : α → Reader ε β} (hr : Takes least r)
    (hf : ∀ a, Within (f a)) : Takes least (r >>= f) :=
  hr.bind fun a => of_within (hf a)

lemma mapFault {r : Reader ε α} (h : Takes least r) (f : ε → ε') : Takes least (r.mapFault f) :=
  fun _ _ _ _ read => h (mapFault_done read)

lemma byte : Takes 1 byte := of_consumes .byte

lemma uleb : Takes 1 uleb := of_consumes .uleb

lemma name : Takes 1 name := uleb.bind_within fun count =>
  .bind (.bytes count) fun _ => .pure _

end Takes

section

variable {r : Reader ε α} {data : Bytes} {position rounds : Nat} {outcome : Outcome ε (List α)}

/-- A loop has one round for each item. -/
lemma Loops.length (h : Loops r data position rounds outcome) {items : List α} {last : Nat}
    (done : outcome = .done items last) : items.length = rounds := by
  induction h generalizing items last with
  | through =>
    cases done
    rfl
  | refused => cases done
  | @again _ _ _ _ inner _ _ ih =>
    cases inner with
    | done rest end_ =>
      cases done
      exact congrArg (· + 1) (ih rfl)
    | failed => cases done

/-- Each item of a loop was read behind the place where the loop begins. -/
lemma Loops.read_of_mem {least : Nat} (takes : Takes least r)
    (h : Loops r data position rounds outcome) {items : List α} {last : Nat}
    (done : outcome = .done items last) {a : α} (mem : a ∈ items) :
    ∃ p q, position ≤ p ∧ r data p = .done a q := by
  induction h generalizing items last with
  | through =>
    cases done
    cases mem
  | refused => cases done
  | @again start next _ _ inner first _ ih =>
    cases inner with
    | done rest end_ =>
      cases done
      rcases List.mem_cons.1 mem with rfl | later
      · exact ⟨start, next, Nat.le_refl _, first⟩
      · obtain ⟨p, q, behind, read⟩ := ih rfl later
        have := takes first
        exact ⟨p, q, by omega, read⟩
    | failed => cases done

/-- The rounds of a loop take no more bytes than there are. -/
lemma Loops.le {least : Nat} (takes : Takes least r) (h : Loops r data position rounds outcome) :
    rounds * least ≤ data.length - position := by
  induction h with
  | through => rw [Nat.zero_mul]; exact Nat.zero_le _
  | refused => rw [Nat.zero_mul]; exact Nat.zero_le _
  | again first _ ih =>
    have := takes first
    rw [Nat.succ_mul]
    rcases Nat.eq_zero_or_pos least with rfl | some_
    · rw [Nat.mul_zero]
      exact Nat.zero_le _
    · omega

end

section

variable (r : Reader ε α) (data : Bytes)

/-- Reading a number of times is a loop, which may end before the count does. -/
lemma times_loops (count position : Nat) :
    ∃ rounds, Loops r data position rounds (times count r data position) := by
  induction count generalizing position with
  | zero => exact ⟨0, .through position⟩
  | succ count ih =>
    show ∃ rounds, Loops r data position rounds ((r >>= _) data position)
    cases first : r data position with
    | failed fault last =>
      rw [bind_of_failed first]
      exact ⟨0, .refused first⟩
    | done a next =>
      obtain ⟨rounds, later⟩ := ih next
      have same : (times count r >>= fun rest => pure (a :: rest)) data next =
          (times count r data next).cons a := by
        simp only [bind]
        cases times count r data next <;> rfl
      rw [bind_of_done first, same]
      exact ⟨rounds + 1, .again first later⟩

/-- Reading up to a position is a loop. -/
lemma repeatUntil_loops (stop : Nat) (advances : Advances r) (position : Nat) :
    ∃ rounds, Loops r data position rounds (repeatUntil stop r advances data position) := by
  show ∃ rounds, Loops r data position rounds (repeatUntilAt stop r advances data position)
  fun_induction repeatUntilAt stop r advances data position with
  | case1 position before fault next failed => exact ⟨0, .refused failed⟩
  | case2 position before a next first items last inner ih =>
    obtain ⟨rounds, later⟩ := ih
    rw [inner] at later
    exact ⟨rounds + 1, .again first later⟩
  | case3 position before a next first fault last inner ih =>
    obtain ⟨rounds, later⟩ := ih
    rw [inner] at later
    exact ⟨rounds + 1, .again first later⟩
  | case4 position after => exact ⟨0, .through position⟩

end

/-- As many items are read as the count says. -/
lemma length_of_times {r : Reader ε α} {data : Bytes} {count position last : Nat} {items : List α}
    (h : times count r data position = .done items last) : items.length = count := by
  induction count generalizing position items last with
  | zero =>
    obtain ⟨rfl, _⟩ := pure_done h
    rfl
  | succ count ih =>
    obtain ⟨a, middle, _, h⟩ := bind_done h
    obtain ⟨rest, behind, others, h⟩ := bind_done h
    obtain ⟨rfl, _⟩ := pure_done h
    exact congrArg (· + 1) (ih others)

/-- A count that is kept is no more than the bytes from its own place on. -/
lemma count_le_of_times {r : Reader ε α} {least : Nat} (takes : Takes (least + 1) r) {data : Bytes}
    {position middle last count : Nat} {items : List α}
    (counted : uleb data position = .done count middle)
    (h : times count r data middle = .done items last) : count ≤ data.length - position := by
  obtain ⟨rounds, loops⟩ := times_loops r data count middle
  have each := loops.length h
  have room := loops.le takes
  rw [← each, length_of_times h] at room
  have behind := (Consumes.uleb counted).1
  have single : count ≤ count * (least + 1) := Nat.le_mul_of_pos_right _ (Nat.succ_pos least)
  omega

/-- A number is a loop over its bytes, and ends as the loop does. -/
lemma Unrolls.loops {r : Reader ReadFault α} {last : UInt8 → Option α} {more : UInt8 → α → α}
    (unrolls : Unrolls r last more) (data : Bytes) (position : Nat) :
    ∃ rounds bytes, Loops byte data position rounds bytes ∧
      (r data position).ending = bytes.ending := by
  induction left : data.length - position using Nat.strongRecOn generalizing position with
  | ind left ih =>
    have here := congrFun (congrFun unrolls data) position
    cases first : byte data position with
    | failed fault stop =>
      rw [bind_of_failed first] at here
      exact ⟨0, .failed fault stop, .refused first, congrArg Outcome.ending here⟩
    | done b next =>
      rw [bind_of_done first] at here
      cases ended : last b with
      | some value =>
        simp only [ended] at here
        exact ⟨1, .done [b] next, .again first (.through next), congrArg Outcome.ending here⟩
      | none =>
        simp only [ended] at here
        have := byte_done first
        obtain ⟨rounds, bytes, later, same⟩ := ih (data.length - next) (by omega) next rfl
        refine ⟨rounds + 1, bytes.cons b, .again first later, ?_⟩
        rw [here, Outcome.ending_cons, ← same]
        simp only [bind]
        cases r data next <;> rfl

end Reader

end WasmSourceMap
