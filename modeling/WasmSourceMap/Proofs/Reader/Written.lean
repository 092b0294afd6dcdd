import Mathlib.Data.List.Forall2
import WasmSourceMap.Proofs.Leb128
import WasmSourceMap.Proofs.Reader.Extension

/-!
# Reading what is written

A reader reads some bytes as a value if it does so wherever they stand, whatever stands before and
behind them, and stops behind them (`Reads`). Bytes that are written one after the other are read by
the readers of their parts one after the other (`Reads.bind`), and items in a row by as many reads
of one item (`Reads.times`) or by reads up to the end of the row (`Reads.repeatUntil`). What is read
of an item may depend on the place where it begins, and `layOut` goes along these places.
-/

namespace WasmSourceMap.Reader

variable {ε ε' α β : Type}

section

variable {data front rest : Bytes} {position : Nat}

lemma drop_add (h : data.drop position = front ++ rest) :
    data.drop (position + front.length) = rest := by
  rw [← List.drop_drop, h, List.drop_left]

/-- What stands at a position inside the data ends inside the data. -/
lemma add_le_of_drop (inside : position ≤ data.length) (h : data.drop position = front ++ rest) :
    position + front.length ≤ data.length := by
  have length := congrArg List.length h
  rw [List.length_drop, List.length_append] at length
  omega

lemma bytes_of_drop (h : data.drop position = front ++ rest) :
    bytes front.length data position = .done front (position + front.length) := by
  unfold bytes
  rw [h, List.take_left]
  exact if_pos rfl

lemma uleb_of_drop {n : Nat} (h : data.drop position = front ++ rest)
    (counts : Leb128.decode front = .ok (n, front.length)) :
    uleb data position = .done n (position + front.length) :=
  uleb_of_decode (h ▸ Leb128.decode_append counts rest)

end

lemma seek_of_le {data : Bytes} {target : Nat} (h : target ≤ data.length) (position : Nat) :
    seek target data position = .done () target := by
  unfold seek
  exact if_pos (.inl h)

/-- Bytes that begin at `start` are read as a value, whatever stands before and behind them. -/
def Reads (r : Reader ε α) (start : Nat) (bytes : Bytes) (a : α) : Prop :=
  ∀ ⦃data rest⦄, start ≤ data.length → data.drop start = bytes ++ rest →
    r data start = .done a (start + bytes.length)

/-- Items in a row from `start` on, each with the place where its bytes begin. -/
def layOut (write : α → Bytes) (place : Nat → α → β) : Nat → List α → List β
  | _, [] => []
  | start, a :: rest => place start a :: layOut write place (start + (write a).length) rest

section

variable {write : α → Bytes}

/-- The items that do not depend on their places. -/
lemma layOut_const (f : α → β) (start : Nat) (items : List α) :
    layOut write (fun _ a => f a) start items = items.map f := by
  induction items generalizing start with
  | nil => rfl
  | cons a rest ih => exact congrArg (f a :: ·) (ih _)

@[simp]
lemma length_layOut (place : Nat → α → β) (start : Nat) (items : List α) :
    (layOut write place start items).length = items.length := by
  induction items generalizing start with
  | nil => rfl
  | cons a rest ih => exact congrArg (· + 1) (ih _)

/-- An item is placed behind the bytes of those before it. -/
lemma getElem?_layOut (place : Nat → α → β) (start : Nat) (items : List α) (i : Nat) :
    (layOut write place start items)[i]? =
      items[i]?.map (place (start + ((items.take i).flatMap write).length)) := by
  induction items generalizing start i with
  | nil => rfl
  | cons a rest ih =>
    cases i with
    | zero => rfl
    | succ i =>
      rw [layOut, List.getElem?_cons_succ, List.getElem?_cons_succ, ih, List.take_succ_cons,
        List.flatMap_cons, List.length_append, Nat.add_assoc]

lemma exists_of_mem_layOut {place : Nat → α → β} {start : Nat} {items : List α} {b : β}
    (h : b ∈ layOut write place start items) : ∃ p, ∃ a ∈ items, b = place p a := by
  induction items generalizing start with
  | nil => cases h
  | cons a rest ih =>
    cases h with
    | head => exact ⟨start, a, List.mem_cons_self, rfl⟩
    | tail _ later =>
      obtain ⟨p, x, mem, same⟩ := ih later
      exact ⟨p, x, List.mem_cons_of_mem a mem, same⟩

lemma layOut_append (place : Nat → α → β) (start : Nat) (items more : List α) :
    layOut write place start (items ++ more) = layOut write place start items ++
      layOut write place (start + (items.flatMap write).length) more := by
  induction items generalizing start with
  | nil => rfl
  | cons a rest ih =>
    rw [List.cons_append, layOut, ih, List.flatMap_cons, List.length_append, Nat.add_assoc]
    rfl

lemma map_layOut {γ : Type} (f : β → γ) (place : Nat → α → β) (start : Nat) (items : List α) :
    (layOut write place start items).map f = layOut write (fun start a => f (place start a)) start
      items := by
  induction items generalizing start with
  | nil => rfl
  | cons a rest ih => exact congrArg (f (place start a) :: ·) (ih _)

lemma layOut_map {γ : Type} (f : γ → α) (place : Nat → α → β) (start : Nat) (items : List γ) :
    layOut write place start (items.map f) =
      layOut (fun c => write (f c)) (fun start c => place start (f c)) start items := by
  induction items generalizing start with
  | nil => rfl
  | cons c rest ih => exact congrArg (place start (f c) :: ·) (ih _)

/-- Where some bytes hold items in a row, each item is seen with its place. -/
lemma forall₂_layOut {R : α → β → Prop} {place : Nat → α → β} {data rest : Bytes} {start : Nat}
    {items : List α} (inside : start ≤ data.length)
    (here : data.drop start = items.flatMap write ++ rest)
    (h : ∀ position, ∀ a ∈ items, ∀ rest, position ≤ data.length →
      data.drop position = write a ++ rest → R a (place position a)) :
    List.Forall₂ R items (layOut write place start items) := by
  induction items generalizing start with
  | nil => exact .nil
  | cons a others ih =>
    rw [List.flatMap_cons, List.append_assoc] at here
    refine .cons (h start a List.mem_cons_self _ inside here) ?_
    refine ih (add_le_of_drop inside here) (drop_add here) fun position b mem => ?_
    exact h position b (List.mem_cons_of_mem a mem)

end

namespace Reads

variable {start : Nat} {front back written : Bytes}

lemma pure (a : α) : (pure a : Reader ε α).Reads start [] a := fun _ _ _ _ => rfl

lemma position : (position : Reader ε Nat).Reads start [] start := fun _ _ _ _ => rfl

lemma check {condition : Bool} (h : condition = true) (fault : ε) :
    (check condition fault).Reads start [] () := fun data _ _ _ => check_of_true h fault data start

/-- What is written behind something is read behind it. -/
lemma bind {r : Reader ε α} {f : α → Reader ε β} {a : α} {b : β} (hr : r.Reads start front a)
    (hf : (f a).Reads (start + front.length) back b) : (r >>= f).Reads start (front ++ back) b := by
  intro data rest inside here
  rw [List.append_assoc] at here
  have next := hf (add_le_of_drop inside here) (drop_add here)
  rw [bind_of_done (hr inside here), next, List.length_append, Nat.add_assoc]

/-- A read that takes no bytes. -/
lemma bind_empty {r : Reader ε α} {f : α → Reader ε β} {a : α} {b : β} (hr : r.Reads start [] a)
    (hf : (f a).Reads start written b) : (r >>= f).Reads start written b := by
  have both : (r >>= f).Reads start ([] ++ written) b := bind hr hf
  exact both

/-- A read that is followed by one that takes no bytes. -/
lemma bind_done {r : Reader ε α} {f : α → Reader ε β} {a : α} {b : β} (hr : r.Reads start written a)
    (hf : (f a).Reads (start + written.length) [] b) : (r >>= f).Reads start written b := by
  have both := bind hr hf
  rwa [List.append_nil] at both

lemma bind_pure {r : Reader ε α} {a : α} (hr : r.Reads start written a) (f : α → β) :
    (r >>= fun a => Pure.pure (f a)).Reads start written (f a) := bind_done hr (pure (f a))

/-- A demand on the length is met by the bytes themselves. -/
lemma demand {least : Nat} {fault : ε} {f : Unit → Reader ε α} {a : α}
    (enough : least ≤ start + written.length) (hf : (f ()).Reads start written a) :
    (length >>= fun n => Reader.check (least ≤ n) fault >>= f).Reads start written a := by
  intro data rest inside here
  rw [demand_of_le fault (Nat.le_trans enough (add_le_of_drop inside here))]
  exact hf inside here

lemma mapFault {f : ε → ε'} {r : Reader ε α} {a : α} (h : r.Reads start written a) :
    (r.mapFault f).Reads start written a := fun _ _ inside here => mapFault_of_done (h inside here)

lemma byte (b : UInt8) : byte.Reads start [b] b := fun _ _ _ here => byte_of_drop here

lemma bytes (content : Bytes) : (bytes content.length).Reads start content content :=
  fun _ _ _ here => bytes_of_drop here

/-- Bytes of which the length is known can be skipped. -/
lemma skip (content : Bytes) : (seek (start + content.length)).Reads start content () :=
  fun _ _ inside here => seek_of_le (add_le_of_drop inside here) start

/-- Items in a row are read one by one. -/
lemma times_of_mem {r : Reader ε β} {write : α → Bytes} {place : Nat → α → β} (items : List α)
    (h : ∀ start, ∀ a ∈ items, r.Reads start (write a) (place start a)) (start : Nat) :
    (times items.length r).Reads start (items.flatMap write) (layOut write place start items) := by
  induction items generalizing start with
  | nil => exact pure []
  | cons a rest ih =>
    refine bind (h start a List.mem_cons_self) (bind_pure (ih ?_ _) _)
    exact fun start b mem => h start b (List.mem_cons_of_mem a mem)

lemma times {r : Reader ε β} {write : α → Bytes} {place : Nat → α → β}
    (h : ∀ start a, r.Reads start (write a) (place start a)) (start : Nat) (items : List α) :
    (times items.length r).Reads start (items.flatMap write) (layOut write place start items) :=
  times_of_mem items (fun start a _ => h start a) start

/-- Items in a row are read up to the end of the row. -/
lemma repeatUntil {r : Reader ε β} {write : α → Bytes} {place : Nat → α → β}
    (h : ∀ start a, r.Reads start (write a) (place start a)) (advances : Advances r) (start : Nat)
    (items : List α) :
    (repeatUntil (start + (items.flatMap write).length) r advances).Reads start
      (items.flatMap write) (layOut write place start items) := by
  intro data rest inside here
  show repeatUntilAt _ r advances data start = _
  induction items generalizing start with
  | nil => exact repeatUntilAt_of_le advances data (Nat.le_refl start)
  | cons a others ih =>
    rw [List.flatMap_cons, List.append_assoc] at here
    have first := h start a inside here
    have later := ih (start + (write a).length) (add_le_of_drop inside here) (drop_add here)
    have ends : start + ((a :: others).flatMap write).length =
        start + (write a).length + (others.flatMap write).length := by
      rw [List.flatMap_cons, List.length_append, Nat.add_assoc]
    rw [ends, repeatUntilAt, first,
      if_pos (Nat.lt_of_lt_of_le (advances first) (Nat.le_add_right _ _))]
    dsimp only
    rw [later]
    rfl

end Reads

end WasmSourceMap.Reader
