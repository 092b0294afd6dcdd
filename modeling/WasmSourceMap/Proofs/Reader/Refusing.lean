import WasmSourceMap.Proofs.Reader.Shortening
import WasmSourceMap.Proofs.Reader.Written

/-!
# Refusing what is written

A reader refuses some bytes if it fails on them wherever they stand, whatever stands before and
behind them (`Refuses`). Bytes that are written one after the other are refused if the reader of the
first refuses them, or if it reads them and the reader of the others refuses those. Items in a row
are refused if one of them is refused and those in front of it are read (`Refuses.times`).
-/

namespace WasmSourceMap.Reader

variable {ε ε' α β γ : Type}

lemma bind_assoc (r : Reader ε α) (f : α → Reader ε β) (g : β → Reader ε γ) :
    r >>= f >>= g = r >>= fun a => f a >>= g := by
  funext data position
  simp only [bind]
  cases r data position <;> rfl

lemma run_of_failed {r : Reader ε α} {data : Bytes} {position next : Nat} {fault : ε}
    (h : r data position = .failed fault next) : r.run data position = .error fault := by
  simp only [run, h]

/-- Bytes that begin at `start` are refused with a fault, whatever stands before and behind them. -/
def Refuses (r : Reader ε α) (start : Nat) (bytes : Bytes) (fault : ε) : Prop :=
  ∀ ⦃data rest⦄, start ≤ data.length → data.drop start = bytes ++ rest →
    ∃ next, r data start = .failed fault next

variable {start : Nat} {front back written : Bytes} {fault : ε}

namespace Refuses

lemma fail (fault : ε) : (fail fault : Reader ε α).Refuses start written fault :=
  fun _ _ _ _ => ⟨start, rfl⟩

lemma check {condition : Bool} (h : condition = false) (fault : ε) :
    (check condition fault).Refuses start [] fault := by
  intro data rest _ _
  rw [Reader.check, h]
  exact ⟨start, rfl⟩

/-- What is refused at its front is refused. -/
lemma bind {r : Reader ε α} (h : r.Refuses start front fault) (f : α → Reader ε β) (back : Bytes) :
    (r >>= f).Refuses start (front ++ back) fault := by
  intro data rest inside here
  rw [List.append_assoc] at here
  obtain ⟨next, failed⟩ := h inside here
  exact ⟨next, bind_of_failed failed⟩

end Refuses

/-- What is refused behind something that is read is refused. -/
lemma Reads.bind_refuses {r : Reader ε α} {f : α → Reader ε β} {a : α} (hr : r.Reads start front a)
    (hf : (f a).Refuses (start + front.length) back fault) :
    (r >>= f).Refuses start (front ++ back) fault := by
  intro data rest inside here
  rw [List.append_assoc] at here
  rw [bind_of_done (hr inside here)]
  exact hf (add_le_of_drop inside here) (drop_add here)

/-- What is read and then refused without another read is refused. -/
lemma Reads.done_refuses {r : Reader ε α} {f : α → Reader ε β} {a : α}
    (hr : r.Reads start written a) (hf : (f a).Refuses (start + written.length) [] fault) :
    (r >>= f).Refuses start written fault := by
  have both := hr.bind_refuses hf
  rwa [List.append_nil] at both

/-- Items in a row are refused if one of them is, and those that are not are read. -/
lemma Refuses.times {r : Reader ε β} {write : α → Bytes} {place : Nat → α → β} {fits : α → Prop}
    (reads : ∀ start a, fits a → r.Reads start (write a) (place start a))
    (refuses : ∀ start a, ¬fits a → r.Refuses start (write a) fault) {items : List α}
    (misfit : ∃ a ∈ items, ¬fits a) (start : Nat) :
    (Reader.times items.length r).Refuses start (items.flatMap write) fault := by
  induction items generalizing start with
  | nil =>
    obtain ⟨a, mem, _⟩ := misfit
    cases mem
  | cons a rest ih =>
    by_cases here : fits a
    · -- The first item is read, so the misfit comes later.
      have later : ∃ b ∈ rest, ¬fits b := by
        obtain ⟨b, mem, misfit⟩ := misfit
        cases mem with
        | head => exact absurd here misfit
        | tail _ mem => exact ⟨b, mem, misfit⟩
      have others := (ih later (start + (write a).length)).bind
        (fun rest => (Pure.pure (place start a :: rest) : Reader ε (List β))) []
      rw [List.append_nil] at others
      exact (reads start a here).bind_refuses others
    · exact (refuses start a here).bind _ (rest.flatMap write)

end WasmSourceMap.Reader
