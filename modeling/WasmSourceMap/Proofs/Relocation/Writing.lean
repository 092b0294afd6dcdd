import WasmSourceMap.Proofs.Relocation.Fields
import WasmSourceMap.Proofs.Relocation.Insertions

/-!
# Writing a relocation map over bytes

The fields of a map are written in their order, and the first one that does not fit into the bytes
is the fault of the whole (`writeFields_of_overrun`); if all fit, all are written
(`writeFields_of_fits`). The bytes that come out depend on the last field that covers each place
(`Overwritten`), which decides them (`Overwritten.unique`): writing them again changes nothing, and
where no two fields overlap the order does not matter and every value can be read back
(`apply_of_build`).
-/

namespace WasmSourceMap.Relocation

namespace Field

/-- Whether a field lies inside so many bytes. -/
def Fits (length : Nat) (f : Field) : Prop := f.offset + f.width ≤ length

instance (length : Nat) (f : Field) : Decidable (f.Fits length) :=
  inferInstanceAs (Decidable (_ ≤ _))

/-- Whether a field begins and ends behind the start of the section. -/
def IsProper (f : Field) : Prop := 0 ≤ f.offset ∧ 0 ≤ f.width

/-- Whether two fields have no place in common. -/
def Disjoint (f g : Field) : Prop := ∀ place, ¬(f.Covers place ∧ g.Covers place)

end Field

/-- What fields make of bytes: each place has the byte of the last field that covers it, and its own
byte if none does. -/
structure Overwritten (fields : List Field) (data written : Bytes) : Prop where
  length_eq : written.length = data.length
  covered : ∀ before f after place, fields = before ++ f :: after → f.Covers place →
    (∀ later ∈ after, ¬later.Covers place) → written[place]? = some (f.byteAt place)
  spared : ∀ place, (∀ f ∈ fields, ¬f.Covers place) → written[place]? = data[place]?

variable {fields : List Field} {data written : Bytes} {name : String}

/-- A place is not covered, or there is a last field that covers it. -/
lemma last_cover (fields : List Field) (place : Nat) : (∀ f ∈ fields, ¬f.Covers place) ∨
    ∃ before f after, fields = before ++ f :: after ∧ f.Covers place ∧
      ∀ later ∈ after, ¬later.Covers place := by
  induction fields with
  | nil => exact .inl nofun
  | cons first rest ih =>
    rcases ih with none | ⟨before, f, after, rfl, here, last⟩
    · by_cases here : first.Covers place
      · exact .inr ⟨[], first, rest, rfl, here, none⟩
      · exact .inl (List.forall_mem_cons.2 ⟨here, none⟩)
    · exact .inr ⟨first :: before, f, after, rfl, here, last⟩

namespace Overwritten

/-- The fields decide the bytes where they are, and the bytes before decide the others. -/
lemma unique {written' : Bytes} (h : Overwritten fields data written)
    (h' : Overwritten fields data written') : written = written' := by
  apply List.ext_getElem?
  intro place
  rcases last_cover fields place with none | ⟨before, f, after, split, here, last⟩
  · rw [h.spared place none, h'.spared place none]
  · rw [h.covered before f after place split here last,
      h'.covered before f after place split here last]

/-- Bytes with the fields written over them already are left as they are. -/
lemma again (h : Overwritten fields data written) : Overwritten fields written written where
  length_eq := rfl
  covered := h.covered
  spared _ _ := rfl

/-- Where no two fields overlap, a field has its bytes whether others are written later or not. -/
lemma covered_of_mem (h : Overwritten fields data written) (apart : fields.Pairwise Field.Disjoint)
    {f : Field} (mem : f ∈ fields) {place : Nat} (here : f.Covers place) :
    written[place]? = some (f.byteAt place) := by
  obtain ⟨before, after, split⟩ := List.append_of_mem mem
  rw [split, List.pairwise_append, List.pairwise_cons] at apart
  refine h.covered before f after place split here fun later inside again => ?_
  exact apart.2.1.1 later inside place ⟨here, again⟩

/-- Where no two fields overlap, their order does not matter. -/
lemma perm (h : Overwritten fields data written) (apart : fields.Pairwise Field.Disjoint)
    {other : List Field} (same : other.Perm fields) : Overwritten other data written where
  length_eq := h.length_eq
  covered before f after place split here _ := by
    have mem : f ∈ other := split ▸ List.mem_append_right before List.mem_cons_self
    exact h.covered_of_mem apart (same.mem_iff.1 mem) here
  spared place none := h.spared place fun f mem => none f (same.mem_iff.2 mem)

/-- Where no two fields overlap, the number that is read at a field is its value, as far as the
width goes. -/
lemma toNatLE_eq (h : Overwritten fields data written) (apart : fields.Pairwise Field.Disjoint)
    {start width value : Nat} (mem : ⟨start, value, width⟩ ∈ fields) :
    Bytes.toNatLE ((written.drop start).take width) = value % 256 ^ width := by
  rw [← Bytes.toNatLE_ofNatLE]
  congr 1
  apply List.ext_getElem?
  intro i
  by_cases inside : i < width
  · have here : Field.Covers ⟨start, value, width⟩ (start + i) := by
      constructor <;> dsimp only <;> omega
    rw [List.getElem?_take_of_lt inside, List.getElem?_drop, h.covered_of_mem apart mem here,
      Bytes.getElem?_ofNatLE value inside, Field.byteAt, Int.toNat_natCast, Nat.add_sub_cancel_left]
  · have ends := Bytes.length_ofNatLE width value
    rw [List.getElem?_take_eq_none (by omega), List.getElem?_eq_none (by omega)]

end Overwritten

namespace Map

/-- A field that fits is written. -/
lemma writeField_of_fits (name : String) {f : Field} (proper : f.IsProper)
    (fits : f.Fits data.length) :
    ∃ written, writeField name data f = .ok written ∧ written.length = data.length := by
  obtain ⟨width, same⟩ := Int.eq_ofNat_of_zero_le proper.2
  have written : writeField name data f = .ok
      (data.splice f.offset (f.offset + width) (Bytes.ofNatLE width f.value)) := by
    unfold writeField
    rw [if_neg (Int.not_lt.2 fits), same]
  exact ⟨_, written, (writeField_bytes written proper.1).1⟩

/-- Fields that all fit are all written. -/
lemma writeFields_of_fits (name : String) (proper : ∀ f ∈ fields, f.IsProper)
    (fits : ∀ f ∈ fields, f.Fits data.length) :
    ∃ written, fields.foldlM (writeField name) data = .ok written ∧
      written.length = data.length := by
  induction fields generalizing data with
  | nil => exact ⟨data, rfl, rfl⟩
  | cons f rest ih =>
    obtain ⟨headProper, tailProper⟩ := List.forall_mem_cons.1 proper
    obtain ⟨headFits, tailFits⟩ := List.forall_mem_cons.1 fits
    obtain ⟨between, one, length⟩ := writeField_of_fits name headProper headFits
    rw [← length] at tailFits ⊢
    rw [List.foldlM_cons, one]
    exact ih tailProper tailFits

/-- The first field that does not fit is the fault. -/
lemma writeFields_of_overrun {before after : List Field} {f : Field}
    (proper : ∀ g ∈ before, g.IsProper) (fits : ∀ g ∈ before, g.Fits data.length)
    (overrun : ¬f.Fits data.length) :
    (before ++ f :: after).foldlM (writeField name) data = .error (.outside name f.offset) := by
  obtain ⟨between, written, length⟩ := writeFields_of_fits name proper fits
  have refused : writeField name between f = .error (.outside name f.offset) := by
    rw [← length] at overrun
    exact if_pos (Int.not_le.1 overrun)
  rw [List.foldlM_append, written, Except.ok_bind, List.foldlM_cons, refused]
  rfl

lemma overwritten_of_apply {m : Map} (h : m.apply data = .ok written)
    (proper : ∀ f ∈ m.fields, f.IsProper) : Overwritten m.fields data written := by
  obtain ⟨length, covered, spared⟩ := writeFields_bytes h fun f mem => (proper f mem).1
  exact ⟨length, covered, spared⟩

end Map

/-- All insertions lie inside so many bytes, or there is a first one that does not. -/
lemma first_overrun (insertions : List Insertion) (length : Nat) :
    (∀ i ∈ insertions, i.field.Fits length) ∨ ∃ before i after, insertions = before ++ i :: after ∧
      (∀ j ∈ before, j.field.Fits length) ∧ ¬i.field.Fits length := by
  cases found : insertions.find? fun i => !decide (i.field.Fits length) with
  | none =>
    refine .inl fun i mem => ?_
    simpa using List.find?_eq_none.1 found i mem
  | some i =>
    obtain ⟨overrun, before, after, split, fits⟩ := List.find?_eq_some_iff_append.1 found
    refine .inr ⟨before, i, after, split, fun j mem => ?_, ?_⟩
    · simpa using fits j mem
    · simpa using overrun

section

variable {insertions before after : List Insertion} {i : Insertion} {m : Map}

lemma apply_of_fits (built : build name insertions = .ok m)
    (proper : ∀ i ∈ insertions, i.field.IsProper)
    (fits : ∀ i ∈ insertions, i.field.Fits data.length) :
    ∃ written, m.apply data = .ok written ∧
      Overwritten (insertions.map Insertion.field) data written := by
  obtain ⟨_, rfl⟩ := build_ok_iff.1 built
  have properFields := List.forall_mem_map.2 proper
  obtain ⟨written, applied, _⟩ :=
    Map.writeFields_of_fits name properFields (List.forall_mem_map.2 fits)
  exact ⟨written, applied, Map.overwritten_of_apply (m := ⟨name, _⟩) applied properFields⟩

lemma apply_of_overrun (built : build name (before ++ i :: after) = .ok m)
    (proper : ∀ j ∈ before ++ i :: after, j.field.IsProper)
    (fits : ∀ j ∈ before, j.field.Fits data.length) (overrun : ¬i.field.Fits data.length) :
    m.apply data = .error (.outside name i.offset) := by
  obtain ⟨_, rfl⟩ := build_ok_iff.1 built
  unfold Map.apply
  rw [List.map_append, List.map_cons]
  apply Map.writeFields_of_overrun _ (List.forall_mem_map.2 fits) overrun
  exact List.forall_mem_map.2 (List.forall_mem_append.1 proper).1

/-- A map is written unless some insertion does not lie inside the bytes. -/
lemma apply_error_iff (built : build name insertions = .ok m)
    (proper : ∀ i ∈ insertions, i.field.IsProper) :
    (∃ fault, m.apply data = .error fault) ↔ ∃ i ∈ insertions, ¬i.field.Fits data.length := by
  rcases first_overrun insertions data.length with fits | ⟨before, i, after, rfl, fits, overrun⟩
  · obtain ⟨written, applied, _⟩ := apply_of_fits built proper fits
    rw [applied]
    exact ⟨nofun, fun ⟨i, mem, overrun⟩ => absurd (fits i mem) overrun⟩
  · rw [apply_of_overrun built proper fits overrun]
    have mem : i ∈ before ++ i :: after := List.mem_append_right before List.mem_cons_self
    exact ⟨fun _ => ⟨i, mem, overrun⟩, fun _ => ⟨_, rfl⟩⟩

/-- The fault is that of the first insertion that does not lie inside the bytes. -/
lemma apply_eq_error_iff (built : build name insertions = .ok m)
    (proper : ∀ i ∈ insertions, i.field.IsProper) (fault : Fault) :
    m.apply data = .error fault ↔ ∃ before i after, insertions = before ++ i :: after ∧
      (∀ j ∈ before, j.field.Fits data.length) ∧ ¬i.field.Fits data.length ∧
      fault = .outside name i.offset := by
  constructor
  · intro h
    rcases first_overrun insertions data.length with fits | ⟨before, i, after, rfl, fits, overrun⟩
    · obtain ⟨written, applied, _⟩ := apply_of_fits built proper fits
      cases applied.symm.trans h
    · rw [apply_of_overrun built proper fits overrun] at h
      exact ⟨before, i, after, rfl, fits, overrun, (Except.error.inj h).symm⟩
  · rintro ⟨before, i, after, rfl, fits, overrun, rfl⟩
    exact apply_of_overrun built proper fits overrun

lemma fits_of_apply (built : build name insertions = .ok m)
    (proper : ∀ i ∈ insertions, i.field.IsProper) (h : m.apply data = .ok written) :
    ∀ i ∈ insertions, i.field.Fits data.length := by
  intro i mem
  by_contra overrun
  obtain ⟨fault, failed⟩ := (apply_error_iff built proper).2 ⟨i, mem, overrun⟩
  cases h.symm.trans failed

/-- Writing the same fields once more changes nothing. -/
lemma apply_again (built : build name insertions = .ok m)
    (proper : ∀ i ∈ insertions, i.field.IsProper) (h : m.apply data = .ok written)
    (overwritten : Overwritten (insertions.map Insertion.field) data written) :
    m.apply written = .ok written := by
  have fits := fits_of_apply built proper h
  rw [← overwritten.length_eq] at fits
  obtain ⟨twice, applied, same⟩ := apply_of_fits built proper fits
  rw [applied, same.unique overwritten.again]

/-- Where no two fields overlap, the order of the insertions decides at most which fault is told. -/
lemma apply_perm {order : List Insertion} {other : Map} (built : build name insertions = .ok m)
    (proper : ∀ i ∈ insertions, i.field.IsProper)
    (apart : (insertions.map Insertion.field).Pairwise Field.Disjoint)
    (same : order.Perm insertions) (otherBuilt : build name order = .ok other) :
    (other.apply data).toOption = (m.apply data).toOption := by
  have otherProper : ∀ i ∈ order, i.field.IsProper := fun i mem => proper i (same.mem_iff.1 mem)
  cases applied : m.apply data with
  | ok written =>
    have fits := fits_of_apply built proper applied
    obtain ⟨_, applied', overwritten⟩ := apply_of_fits built proper fits
    cases applied.symm.trans applied'
    have otherFits : ∀ i ∈ order, i.field.Fits data.length :=
      fun i mem => fits i (same.mem_iff.1 mem)
    obtain ⟨written', otherApplied, overwritten'⟩ := apply_of_fits otherBuilt otherProper otherFits
    rw [otherApplied, overwritten'.unique (overwritten.perm apart (same.map _))]
  | error fault =>
    obtain ⟨i, mem, overrun⟩ := (apply_error_iff built proper).1 ⟨fault, applied⟩
    obtain ⟨fault', failed⟩ :=
      (apply_error_iff otherBuilt otherProper).2 ⟨i, same.mem_iff.2 mem, overrun⟩
    rw [failed]
    rfl

/-- Where no two fields overlap, what is read at an insertion is what the map says there, as far as
the width goes. -/
lemma toNatLE_eq_relocate (built : build name insertions = .ok m)
    (overwritten : Overwritten (insertions.map Insertion.field) data written)
    (apart : (insertions.map Insertion.field).Pairwise Field.Disjoint) (mem : i ∈ insertions)
    (proper : i.field.IsProper) (raw : Int) :
    (Bytes.toNatLE ((written.drop i.offset.toNat).take i.width.toNat) : Int) =
      m.relocate i.offset raw % 2 ^ (8 * i.width.toNat) := by
  obtain ⟨start, (here : i.offset = start)⟩ := Int.eq_ofNat_of_zero_le proper.1
  obtain ⟨width, (size : i.width = width)⟩ := Int.eq_ofNat_of_zero_le proper.2
  have inside : ⟨start, (i.value % 2 ^ 64).toNat, width⟩ ∈ insertions.map Insertion.field := by
    rw [← here, ← size]
    exact List.mem_map_of_mem mem
  have known : m.relocate i.offset raw = (i.value % 2 ^ 64).toNat := by
    unfold Map.relocate
    rw [get?_of_build built mem]
  have range : 256 ^ width = 2 ^ (8 * width) := by
    rw [Nat.pow_mul]
  rw [known, here, size, Int.toNat_natCast, Int.toNat_natCast, overwritten.toNatLE_eq apart inside,
    range]
  exact_mod_cast rfl

/-- A map with fields that begin behind the start of the section is written if and only if all of
them lie inside the bytes, and else the first that does not is the fault. Each byte that comes out
is one of the last insertion that covers it, or as it was. -/
theorem apply_of_build (built : build name insertions = .ok m)
    (proper : ∀ i ∈ insertions, 0 ≤ i.offset ∧ 0 ≤ i.width) (data : Bytes) :
    ((∃ fault, m.apply data = .error fault) ↔
      ∃ i ∈ insertions, ¬i.offset + i.width ≤ data.length) ∧
    (∀ fault, m.apply data = .error fault ↔
      ∃ (before : List Insertion) (i : Insertion) (after : List Insertion),
        insertions = before ++ i :: after ∧ (∀ j ∈ before, j.offset + j.width ≤ data.length) ∧
        ¬i.offset + i.width ≤ data.length ∧ fault = .outside name i.offset) ∧
    (∀ written, m.apply data = .ok written →
      Overwritten (insertions.map Insertion.field) data written ∧
      m.apply written = .ok written ∧
      ((insertions.map Insertion.field).Pairwise Field.Disjoint → ∀ i ∈ insertions, ∀ raw,
        (Bytes.toNatLE ((written.drop i.offset.toNat).take i.width.toNat) : Int) =
          m.relocate i.offset raw % 2 ^ (8 * i.width.toNat))) ∧
    ((insertions.map Insertion.field).Pairwise Field.Disjoint → ∀ order : List Insertion,
      order.Perm insertions → ∃ other, build name order = .ok other ∧
        (other.apply data).toOption = (m.apply data).toOption) := by
  refine ⟨apply_error_iff built proper, apply_eq_error_iff built proper, ?_, ?_⟩
  · intro written applied
    obtain ⟨_, applied', overwritten⟩ :=
      apply_of_fits built proper (fits_of_apply built proper applied)
    cases applied.symm.trans applied'
    refine ⟨overwritten, apply_again built proper applied overwritten, fun apart i mem => ?_⟩
    exact toNatLE_eq_relocate built overwritten apart mem (proper i mem)
  · intro apart order same
    obtain ⟨distinct, _⟩ := build_ok_iff.1 built
    have otherBuilt : build name order = .ok ⟨name, order.map Insertion.field⟩ :=
      build_ok_iff.2 ⟨(same.map Insertion.offset).nodup_iff.2 distinct, rfl⟩
    exact ⟨_, otherBuilt, apply_perm built proper apart same otherBuilt⟩

end

/-- Two fields of which the second covers the end of the first. -/
def overlapping : List Insertion := [⟨0, 0x100000001, 4⟩, ⟨2, -2, 4⟩]

/-- The second field wins where both are, and in five bytes there is no room for it. -/
theorem apply_of_build_overlapping :
    (∀ i ∈ overlapping, 0 ≤ i.offset ∧ 0 ≤ i.width) ∧
    ∃ m, build ".debug_line" overlapping = .ok m ∧
      m.apply (List.replicate 8 0) = .ok [0x01, 0x00, 0xfe, 0xff, 0xff, 0xff, 0x00, 0x00] ∧
      m.apply [0x01, 0x00, 0xfe, 0xff, 0xff, 0xff, 0x00, 0x00] =
        .ok [0x01, 0x00, 0xfe, 0xff, 0xff, 0xff, 0x00, 0x00] ∧
      m.apply (List.replicate 5 0) = .error (.outside ".debug_line" 2) := by
  have proper : ∀ i ∈ overlapping, 0 ≤ i.offset ∧ 0 ≤ i.width := by decide
  have built : build ".debug_line" overlapping =
      .ok ⟨".debug_line", overlapping.map Insertion.field⟩ := rfl
  obtain ⟨_, _, written, _⟩ := apply_of_build built proper (List.replicate 8 0)
  obtain ⟨_, refused, _⟩ := apply_of_build built proper (List.replicate 5 0)
  have applied : Map.apply ⟨".debug_line", overlapping.map Insertion.field⟩ (List.replicate 8 0) =
      .ok [0x01, 0x00, 0xfe, 0xff, 0xff, 0xff, 0x00, 0x00] := by decide +kernel
  refine ⟨proper, _, built, applied, (written _ applied).2.1, ?_⟩
  refine (refused _).2 ⟨[⟨0, 0x100000001, 4⟩], ⟨2, -2, 4⟩, [], rfl, ?_, ?_, rfl⟩
  · decide
  · decide

end WasmSourceMap.Relocation
