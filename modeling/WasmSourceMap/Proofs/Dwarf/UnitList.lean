import WasmSourceMap.Dwarf.LineTable
import WasmSourceMap.Proofs.Reader.Answers

/-!
# The list of units

Each unit of the list begins behind the one before it, so that a unit is known by its offset. The
list ends early at a header that cannot be decoded, or at one with an address size that has no
meaning.
-/

namespace WasmSourceMap.Dwarf

open Reader (FailsIn)

namespace UnitHeader

/-- A header knows where it was read. -/
lemma offset_of_read {info : Bytes} {offset next : Nat} {u : UnitHeader}
    (h : read info offset = .done u next) : u.offset = offset := by
  obtain ⟨start, _, here, h⟩ := Reader.bind_done h
  obtain ⟨_, _, _, h⟩ := Reader.bind_done h
  obtain ⟨_, _, _, h⟩ := Reader.bind_done h
  obtain ⟨_, _, _, h⟩ := Reader.bind_done h
  obtain ⟨_, _, _, h⟩ := Reader.bind_done h
  obtain ⟨_, _, _, h⟩ := Reader.bind_done h
  obtain ⟨_, _, _, h⟩ := Reader.bind_done h
  rw [← (Reader.pure_done h).1]
  exact (Reader.position_done here).1

lemma le_offset_of_listFrom {info : Bytes} {offset : Nat} {u : UnitHeader}
    (h : u ∈ (listFrom info offset).1) : offset ≤ u.offset := by
  fun_induction listFrom info offset with
  | case1 => cases h
  | case2 offset inside header next read rest ih =>
    rcases List.mem_cons.1 h with rfl | later
    · exact Nat.le_of_eq (offset_of_read read).symm
    · have := ih later
      omega
  | case3 => cases h

/-- No two units of a list begin at the same place. -/
lemma pairwise_listFrom (info : Bytes) (offset : Nat) :
    (listFrom info offset).1.Pairwise fun u w => w.offset ≠ u.offset := by
  fun_induction listFrom info offset with
  | case1 => exact .nil
  | case2 offset inside header next read rest ih =>
    refine .cons (fun w later => ?_) ih
    have := le_offset_of_listFrom later
    have := offset_of_read read
    have := header.size_pos
    omega
  | case3 => exact .nil

/-- The faults that a header can have. -/
def IsRefusal (fault : Fault) : Prop := fault = .undecodable ∨ fault = .badAddressSize

section

variable {data : Bytes} {position : Nat}

/-- A number of a few bytes can only end early. -/
lemma unsigned_refusal {width : Nat} (small : width < Reader.positionBound) :
    FailsIn IsRefusal data position ((Reader.unsigned width).mapFault .ofRead) := by
  refine .mapFault (.bind (fun fault next failed => ?_) fun _ _ _ => .pure _)
  unfold Reader.bytes at failed
  dsimp only at failed
  rw [if_pos small] at failed
  split at failed <;> cases failed
  exact .inl rfl

lemma readInitialLength_refusal : FailsIn IsRefusal data position readInitialLength := by
  refine .bind (unsigned_refusal (by decide)) fun first _ _ => ?_
  split
  · exact .pure _
  · split
    · exact .bind (unsigned_refusal (by decide)) fun _ _ _ => .pure _
    · exact .fail (.inl rfl)

lemma readTypeFields_refusal {offsetWidth : Nat} (small : offsetWidth < Reader.positionBound)
    (unitType : Nat) : FailsIn IsRefusal data position (readTypeFields offsetWidth unitType) := by
  unfold readTypeFields
  split
  · exact .pure _
  · exact .pure _
  · exact .bind (unsigned_refusal (by decide)) fun _ _ _ => .pure _
  · exact .bind (unsigned_refusal (by decide)) fun _ _ _ => .pure _
  · exact .bind (unsigned_refusal (by decide)) fun _ _ _ =>
      .bind (unsigned_refusal small) fun _ _ _ => .pure _
  · exact .bind (unsigned_refusal (by decide)) fun _ _ _ =>
      .bind (unsigned_refusal small) fun _ _ _ => .pure _
  · exact .fail (.inl rfl)

lemma readFields_refusal {offsetWidth : Nat} (small : offsetWidth < Reader.positionBound)
    (version : Nat) : FailsIn IsRefusal data position (readFields offsetWidth version) := by
  unfold readFields
  split
  · refine .bind (unsigned_refusal small) fun _ _ _ => ?_
    exact .bind (unsigned_refusal (by decide)) fun _ _ _ => .pure _
  · refine .bind (unsigned_refusal (by decide)) fun unitType _ _ => ?_
    refine .bind (unsigned_refusal (by decide)) fun _ _ _ => ?_
    refine .bind (unsigned_refusal small) fun _ _ _ => ?_
    exact .bind (readTypeFields_refusal small unitType) fun _ _ _ => .pure _

lemma read_refusal : FailsIn IsRefusal data position read := by
  refine .bind .here fun _ _ _ => ?_
  refine .bind readInitialLength_refusal fun ⟨wide, length⟩ _ _ => ?_
  refine .bind (unsigned_refusal (by decide)) fun version _ _ => ?_
  refine .bind (readFields_refusal (by cases wide <;> decide) version) fun fields _ _ => ?_
  refine .bind (.ofExcept fun fault refused => ?_) fun _ _ _ => ?_
  · unfold checkAddressSize at refused
    split at refused <;> cases refused
    exact .inr rfl
  · refine .bind (.check _ (.inl rfl)) fun _ _ _ => ?_
    exact .bind .here fun _ _ _ => .pure _

lemma refusal_of_listFrom {info : Bytes} {offset : Nat} {fault : Fault}
    (h : (listFrom info offset).2 = some fault) : IsRefusal fault := by
  fun_induction listFrom info offset with
  | case1 offset inside own next failed =>
    cases h
    exact read_refusal failed
  | case2 offset inside header next read rest ih => exact ih h
  | case3 => cases h

end

end UnitHeader

/-- The fault that ends the list of the units. -/
lemma View.refusal_of_units {v : View} {fault : Fault} (h : v.units.2 = some fault) :
    UnitHeader.IsRefusal fault := by
  unfold units at h
  cases inInfo : v.sections.get? .info with
  | none =>
    rw [inInfo] at h
    cases h
  | some found =>
    rw [inInfo] at h
    exact UnitHeader.refusal_of_listFrom h

lemma View.pairwise_units (v : View) : v.units.1.Pairwise fun u w => w.offset ≠ u.offset := by
  unfold units
  cases v.sections.get? .info with
  | none => exact .nil
  | some found => exact UnitHeader.pairwise_listFrom found.data 0

end WasmSourceMap.Dwarf
