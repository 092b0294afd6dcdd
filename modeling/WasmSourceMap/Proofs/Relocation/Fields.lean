import WasmSourceMap.Bytes.Lemmas
import WasmSourceMap.Proofs.Results
import WasmSourceMap.Relocation.Resolve

/-!
# What the fields of a relocation map do to the bytes

A field that is written replaces the bytes it covers by the digits of its value and leaves the
others (`writeField_bytes`). So after all fields of a map a byte is that of the last field that
covers it, and as it was if none does (`writeFields_bytes`). The fields of a map are its relocations
in their order (`resolve_fields`).
-/

namespace WasmSourceMap.Relocation

namespace Field

/-- Whether a field covers a place of the section. -/
def Covers (f : Field) (place : Nat) : Prop :=
  f.offset ≤ place ∧ (place : Int) < f.offset + f.width

/-- The byte of a field at a place that it covers. -/
def byteAt (f : Field) (place : Nat) : UInt8 :=
  UInt8.ofNat (f.value / 256 ^ (place - f.offset.toNat) % 256)

end Field

namespace Map

variable {name : String} {data written : Bytes} {f : Field}

/-- A field is written inside the data only. -/
lemma writeField_ok (h : writeField name data f = .ok written) (behind : 0 ≤ f.offset) :
    ∃ start width : Nat, f.offset = start ∧ f.width = width ∧ start + width ≤ data.length ∧
      written = data.splice start (start + width : Nat) (Bytes.ofNatLE width f.value) := by
  obtain ⟨start, here⟩ := Int.eq_ofNat_of_zero_le behind
  unfold writeField at h
  split at h
  · cases h
  · rename_i inside
    split at h
    · rename_i width same
      cases h
      rw [same, here] at inside
      refine ⟨start, width, here, same, ?_, ?_⟩
      · have : ((start : Int) + width) ≤ data.length := Int.not_lt.1 inside
        omega
      · rw [here]
        rfl
    · cases h

/-- A field that is written leaves its digits in the bytes it covers, and the others as they were.
-/
lemma writeField_bytes (h : writeField name data f = .ok written) (behind : 0 ≤ f.offset) :
    written.length = data.length ∧
      (∀ i, f.Covers i → written[i]? = some (f.byteAt i)) ∧
      ∀ i, ¬ f.Covers i → written[i]? = data[i]? := by
  obtain ⟨start, width, here, same, inside, rfl⟩ := writeField_ok h behind
  have size := Bytes.length_ofNatLE width f.value
  refine ⟨Bytes.length_splice size inside, ?_, ?_⟩
  · intro i covered
    obtain ⟨behindStart, before⟩ := covered
    rw [here] at behindStart before
    rw [same] at before
    rw [Bytes.getElem?_splice_of_mem size inside (by omega) (by omega),
      Bytes.getElem?_ofNatLE f.value (by omega)]
    unfold Field.byteAt
    rw [here, Int.toNat_natCast]
  · intro i spared
    apply Bytes.getElem?_splice_of_not_mem size inside
    unfold Field.Covers at spared
    rw [here, same] at spared
    omega

variable {fields : List Field}

/-- Fields that are written one after the other keep the length, and a byte is that of the last
field that covers it. -/
lemma writeFields_bytes (h : fields.foldlM (writeField name) data = .ok written)
    (behind : ∀ f ∈ fields, 0 ≤ f.offset) :
    written.length = data.length ∧
      (∀ before f after i, fields = before ++ f :: after → f.Covers i →
        (∀ later ∈ after, ¬ later.Covers i) → written[i]? = some (f.byteAt i)) ∧
      ∀ i, (∀ f ∈ fields, ¬ f.Covers i) → written[i]? = data[i]? := by
  induction fields generalizing data with
  | nil =>
    cases h
    refine ⟨rfl, ?_, fun _ _ => rfl⟩
    intro before f after i split
    cases before <;> cases split
  | cons first rest ih =>
    rw [List.foldlM_cons] at h
    obtain ⟨between, one, others⟩ := Except.bind_ok h
    obtain ⟨head, tail⟩ := List.forall_mem_cons.1 behind
    obtain ⟨sameLength, inFirst, notFirst⟩ := writeField_bytes one head
    obtain ⟨length, covered, spared⟩ := ih others tail
    refine ⟨length.trans sameLength, ?_, ?_⟩
    · intro before f after i split here none
      cases before with
      | nil =>
        cases split
        rw [spared i none, inFirst i here]
      | cons _ before =>
        cases split
        exact covered before f after i rfl here none
    · intro i none
      obtain ⟨notHere, notLater⟩ := List.forall_mem_cons.1 none
      rw [spared i notLater, notFirst i notHere]

end Map

/-- The field of a relocation: the address of its symbol plus the addend, modulo the bound. -/
def FieldOf (addresses : List Int) (entry : Container.Relocation) (f : Field) : Prop :=
  ∃ width address, entry.kind = .absolute width ∧
    symbolAddress? addresses entry.symbol = some address ∧
    f = ⟨entry.offset, ((address + entry.addend) % Map.valueBound).toNat, width⟩

variable {name : String} {addresses : List Int}

lemma resolveEntry_ok {m m' : Map} {entry : Container.Relocation}
    (h : resolveEntry addresses m entry = .ok m') :
    ∃ f, FieldOf addresses entry f ∧ m' = { m with fields := m.fields ++ [f] } := by
  unfold resolveEntry at h
  cases kind : entry.kind with
  | other =>
    rw [kind] at h
    cases h
  | absolute width =>
    rw [kind] at h
    dsimp only at h
    cases known : symbolAddress? addresses entry.symbol with
    | none =>
      rw [known] at h
      cases h
    | some address =>
      rw [known] at h
      dsimp only at h
      unfold Map.insert at h
      split at h
      · cases h
      · cases h
        exact ⟨_, ⟨width, address, kind, known, rfl⟩, rfl⟩

/-- The fields of a map are those of its relocations, in their order. -/
lemma resolve_fields {entries : List Container.Relocation} {m : Map}
    (h : resolve name entries addresses = .ok m) :
    List.Forall₂ (FieldOf addresses) entries m.fields := by
  suffices run : ∀ first, entries.foldlM (resolveEntry addresses) first = .ok m →
      ∃ added, m.fields = first.fields ++ added ∧ List.Forall₂ (FieldOf addresses) entries added by
    obtain ⟨added, same, all⟩ := run _ h
    rw [same]
    exact all
  clear h
  induction entries with
  | nil =>
    intro first h
    cases h
    exact ⟨[], (List.append_nil _).symm, .nil⟩
  | cons entry rest ih =>
    intro first h
    rw [List.foldlM_cons] at h
    obtain ⟨second, one, others⟩ := Except.bind_ok h
    obtain ⟨f, isField, rfl⟩ := resolveEntry_ok one
    obtain ⟨added, same, all⟩ := ih _ others
    refine ⟨f :: added, ?_, .cons isField all⟩
    rw [same, List.append_assoc]
    rfl

end WasmSourceMap.Relocation
