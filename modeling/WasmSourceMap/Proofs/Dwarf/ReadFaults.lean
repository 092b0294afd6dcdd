import WasmSourceMap.Proofs.Dwarf.Recall
import WasmSourceMap.Proofs.Reader.Answers
import WasmSourceMap.Proofs.Results

/-!
# Why debug information cannot be read

Reading a unit or a line table fails because data cannot be decoded or leads out of range, because a
section is missing that a value refers to (`FromData`), or because a value is not of the kind it has
to be. The last happens to offsets of a unit (`FromAttributes`) and to entries of a header of
version 5 or later (`FromHeader`), which say themselves how they are laid out. The lemmas follow the
readers.
-/

namespace WasmSourceMap.Dwarf

open Reader (FailsIn)

/-- The sections that values refer to, other than the addresses: without these a reference cannot be
decoded. -/
def SectionKind.referenced : List SectionKind :=
  [.abbreviations, .str, .strOffsets, .lineStr, .loclists, .rnglists]

/-- The attributes whose values are offsets into sections. -/
def AttributeName.offsets : List Nat :=
  [lineTable, stringOffsetsBase, addressBase, rangeListsBase, locationListsBase]

/-- One of these attributes has a value that is not a number. -/
def Attributes.Misfit (attributes : Attributes) : Prop :=
  ∃ name ∈ AttributeName.offsets, ∃ value,
    attributes.get? name = some value ∧ value.toInt? = none

/-- The version of the line table at a position. -/
def readVersion : Reader Fault Nat := do
  let _length ← readInitialLength
  Reader.unsigned 2

/-- The line table at a position is of version 5 or later. -/
def NewAt (data : Bytes) (position : Nat) : Prop :=
  ∃ version, readVersion.run data position = .ok version ∧ 5 ≤ version

namespace View

/-- A section that values refer to is missing, in the module or in the supplementary file. -/
def LacksSection (v : View) : Prop :=
  (∃ kind ∈ SectionKind.referenced, v.sections.get? kind = none) ∨
    ∃ other, v.supplementary = some other ∧ other.get? .str = none

/-- The faults that all kinds of data can have. -/
def FromData (v : View) (fault : Fault) : Prop :=
  fault = .undecodable ∨ fault = .outOfRange ∨ fault = .missingSection ∧ v.LacksSection

/-- The faults that the attributes of a unit can have. -/
def FromAttributes (v : View) (attributes : Attributes) (fault : Fault) : Prop :=
  v.FromData fault ∨ fault = .wrongKind ∧ attributes.Misfit

/-- The faults that the header of a line table can have, some of them only if it is new. -/
def FromHeader (v : View) (new : Prop) (fault : Fault) : Prop :=
  v.FromData fault ∨ new ∧ (fault = .wrongKind ∨ fault = .missingField)

variable {v : View} {data : Bytes} {position : Nat} {fault : Fault} {α : Type}

lemma fromData_ofRead (fault : ReadFault) : v.FromData (.ofRead fault) := by
  cases fault with
  | endOfData => exact .inl rfl
  | outOfRange => exact .inr (.inl rfl)

lemma lift_fromData (r : Reader ReadFault α) :
    FailsIn v.FromData data position (r.mapFault .ofRead) :=
  .mapFault fun fault _ _ => fromData_ofRead fault

lemma require_fromData {s : Sections} {kind : SectionKind}
    (lacks : s.get? kind = none → v.LacksSection) (h : s.require kind = .error fault) :
    v.FromData fault := by
  unfold Sections.require at h
  split at h
  · cases h
  · rename_i missing
    cases h
    exact .inr (.inr ⟨rfl, lacks missing⟩)

lemma lacksSection_of_referenced {kind : SectionKind} (referenced : kind ∈ SectionKind.referenced)
    (missing : v.sections.get? kind = none) : v.LacksSection :=
  .inl ⟨kind, referenced, missing⟩

lemma seekTo_fromData (target : Int) : FailsIn v.FromData data position (seekTo target) := by
  unfold seekTo
  split
  · exact lift_fromData _
  · split
    · exact .fail (.inl rfl)
    · exact .fail (.inr (.inl rfl))

lemma stringAt_fromData {offset : Int} (h : stringAt data offset = .error fault) :
    v.FromData fault := by
  unfold stringAt at h
  split at h
  · rename_i own next failed
    cases h
    exact seekTo_fromData offset failed
  · split at h <;> cases h

lemma stringIn_fromData {s : Sections} {kind : SectionKind} {offset : Int}
    (lacks : s.get? kind = none → v.LacksSection) (h : stringIn s kind offset = .error fault) :
    v.FromData fault := by
  rcases Except.bind_error h with missing | ⟨data, _, h⟩
  · exact require_fromData lacks missing
  · rcases Except.bind_error h with outside | ⟨text, _, h⟩
    · exact stringAt_fromData outside
    · cases h

lemma supplementaryString_fromData {offset : Int}
    (h : v.supplementaryString offset = .error fault) : v.FromData fault := by
  unfold supplementaryString at h
  split at h
  · rename_i other given
    exact stringIn_fromData (fun absent => .inr ⟨other, given, absent⟩) h
  · cases h

lemma known_fromData {code : Nat} (h : Form.known code = .error fault) : v.FromData fault := by
  unfold Form.known at h
  split at h <;> cases h
  exact .inl rfl

lemma readNumber_fromData (width : Option Nat) :
    FailsIn v.FromData data position (readNumber width) := by
  unfold readNumber
  split <;> exact lift_fromData _

lemma readForm_fromData (l : Layout) (form : Form) :
    FailsIn v.FromData data position (form.readRaw l) := by
  cases form with
  | flagPresent => exact .pure _
  | implicitConstant => exact .fail (.inl rfl)
  | block width =>
    refine .bind (readNumber_fromData width) fun length _ _ => ?_
    exact .bind (.times (fun _ => lift_fromData _) length) fun _ _ _ => .pure _
  | stringIndex width => exact .bind (readNumber_fromData width) fun _ _ _ => .pure _
  | addressIndex width => exact .bind (readNumber_fromData width) fun _ _ _ => .pure _
  | _ => exact .bind (lift_fromData _) fun _ _ _ => .pure _

lemma readIndirectAt_fromData (l : Layout) :
    FailsIn v.FromData data position (readIndirectAt l) := by
  intro fault last failed
  fun_induction readIndirectAt l data position generalizing fault last with
  | case1 position own next first =>
    cases failed
    exact fromData_ofRead own
  | case2 =>
    cases failed
    exact .inl rfl
  | case3 position code next first further ih => exact ih failed
  | case4 => cases failed
  | case5 position code next first form known direct own end_ inner =>
    cases failed
    exact readForm_fromData l form inner

lemma readRaw_fromData (l : Layout) (spec : AttributeSpec) :
    FailsIn v.FromData data position (readRaw l spec) := by
  unfold readRaw
  refine .bind (.ofExcept fun _ => known_fromData) fun form _ _ => ?_
  cases form with
  | implicitConstant => exact .pure _
  | indirect => exact readIndirectAt_fromData l
  | _ => exact .bind (readForm_fromData l _) fun _ _ _ => .pure _

lemma interpret_fromData {form : Form} {raw : Value} (h : v.interpret form raw = .error fault) :
    v.FromData fault := by
  unfold interpret at h
  split at h
  · exact stringIn_fromData (lacksSection_of_referenced (by decide)) h
  · exact stringIn_fromData (lacksSection_of_referenced (by decide)) h
  · exact supplementaryString_fromData h
  · cases h
  · cases h
  · cases h

lemma readAttributes_fromData (l : Layout) (specs : List AttributeSpec) (attributes : Attributes) :
    FailsIn v.FromData data position (v.readAttributes l specs attributes) := by
  induction specs generalizing attributes position with
  | nil => exact .pure attributes
  | cons spec rest ih =>
    refine .bind (.bind (readRaw_fromData l spec) fun ⟨form, raw⟩ _ _ => ?_) fun a _ _ => ih _
    exact .bind (.ofExcept fun _ => interpret_fromData) fun _ _ _ => .pure _

lemma readAbbreviation_fromData : FailsIn v.FromData data position Abbreviation.read := by
  have one : ∀ p, FailsIn v.FromData data p AttributeSpec.read := by
    intro p
    refine .bind (lift_fromData _) fun _ _ _ => ?_
    refine .bind (lift_fromData _) fun form _ _ => ?_
    refine .bind ?_ fun _ _ _ => .pure _
    unfold AttributeSpec.readConstant
    split
    · exact lift_fromData _
    · exact .pure _
  refine .bind (lift_fromData _) fun code _ _ => ?_
  split
  · exact .pure _
  · refine .bind (.bind (lift_fromData _) fun _ _ _ => ?_) fun _ _ _ => .pure _
    refine .bind (lift_fromData _) fun _ _ _ => ?_
    refine .bind (.check _ (.inl rfl)) fun _ _ _ => ?_
    exact .bind (.collect one _) fun _ _ _ => .pure _

lemma abbreviationFor_fromData {u : UnitHeader} {code : Nat}
    (h : v.abbreviationFor u code = .error fault) : v.FromData fault := by
  rcases Except.bind_error h with missing | ⟨data, _, h⟩
  · exact require_fromData (lacksSection_of_referenced (by decide)) missing
  rcases Except.bind_error h with unread | ⟨table, _, h⟩
  · unfold Abbreviation.table at unread
    split at unread
    · exact FailsIn.run_error (.collect (fun _ => readAbbreviation_fromData) _) unread
    · cases unread
      exact .inl rfl
  · unfold Abbreviation.find at h
    split at h <;> cases h
    exact .inl rfl

lemma readEntry_fromData (u : UnitHeader) :
    FailsIn v.FromData data position (v.readEntry u) := by
  refine .bind (lift_fromData _) fun code _ _ => ?_
  split
  · exact .pure _
  · refine .bind (.ofExcept fun _ => abbreviationFor_fromData) fun abbreviation _ _ => ?_
    exact readAttributes_fromData _ _ _

section

variable {l : Layout} {attributes : Attributes}

lemma base_fromAttributes {name : Nat} (isOffset : name ∈ AttributeName.offsets)
    (h : base attributes name = .error fault) : v.FromAttributes attributes fault := by
  unfold base at h
  split at h
  · cases h
    exact .inl (.inl rfl)
  · rename_i value given
    split at h
    · cases h
    · rename_i other
      cases h
      exact .inr ⟨rfl, name, isOffset, value, given, other⟩

lemma numberAt_fromData {width : Nat} {offset : Int}
    (h : numberAt data width offset = .error fault) : v.FromData fault := by
  have failed := Except.error_of_map h
  exact FailsIn.run_error (.bind (seekTo_fromData offset) fun _ _ _ => lift_fromData _) failed

lemma tableOffset_fromAttributes {kind : SectionKind} {name : Nat} {index : Int}
    (referenced : kind ∈ SectionKind.referenced) (isOffset : name ∈ AttributeName.offsets)
    (h : v.tableOffset l attributes kind name index = .error fault) :
    v.FromAttributes attributes fault := by
  rcases Except.bind_error h with missing | ⟨data, _, h⟩
  · exact .inl (require_fromData (lacksSection_of_referenced referenced) missing)
  rcases Except.bind_error h with absent | ⟨start, _, h⟩
  · exact base_fromAttributes isOffset absent
  rcases Except.bind_error h with outside | ⟨offset, _, h⟩
  · exact .inl (numberAt_fromData outside)
  · cases h

lemma addressAt_fromAttributes {index : Int}
    (h : v.addressAt l attributes index = .error fault) : v.FromAttributes attributes fault := by
  unfold addressAt at h
  split at h
  · cases h
    exact .inl (.inl rfl)
  · rcases Except.bind_error h with absent | ⟨start, _, h⟩
    · exact base_fromAttributes (by decide) absent
    rcases Except.bind_error h with outside | ⟨offset, _, h⟩
    · exact .inl (numberAt_fromData outside)
    · cases h

lemma lookUp_fromAttributes {a : Attribute} (h : v.lookUp l attributes a = .error fault) :
    v.FromAttributes attributes fault := by
  unfold lookUp at h
  split at h
  · rcases Except.bind_error h with outside | ⟨⟨start, offset⟩, _, h⟩
    · exact tableOffset_fromAttributes (by decide) (by decide) outside
    · exact .inl (stringIn_fromData (lacksSection_of_referenced (by decide)) h)
  · exact addressAt_fromAttributes h
  · rcases Except.bind_error h with outside | ⟨⟨start, offset⟩, _, h⟩
    · exact tableOffset_fromAttributes (by decide) (by decide) outside
    · cases h
  · rcases Except.bind_error h with outside | ⟨⟨start, offset⟩, _, h⟩
    · exact tableOffset_fromAttributes (by decide) (by decide) outside
    · cases h
  · cases h

/-- A looking up that ends early leaves the attributes as they were when it ended. -/
lemma lookUpFrom_fromAttributes {before rest : Attributes}
    (h : v.lookUpFrom l before rest = (attributes, some fault)) :
    v.FromAttributes attributes fault := by
  induction rest generalizing before with
  | nil => cases h
  | cons a rest ih =>
    unfold lookUpFrom at h
    split at h
    · exact ih h
    · rename_i own failed
      cases h
      exact lookUp_fromAttributes failed

lemma entry_fromData {u : UnitHeader} (listed : u ∈ v.units.1) (h : v.entry u = .error fault) :
    v.FromData fault := by
  rcases Except.bind_error h with missing | ⟨info, _, h⟩
  · -- The section cannot be missing, since a unit was found in it.
    unfold Sections.require at missing
    unfold units at listed
    cases inInfo : v.sections.get? .info with
    | none =>
      rw [inInfo] at listed
      cases listed
    | some found =>
      rw [inInfo] at missing
      cases missing
  · rcases Except.bind_error h with unread | ⟨attributes, _, h⟩
    · exact FailsIn.run_error (readEntry_fromData u) unread
    · cases h

lemma entry_fromAttributes {u : UnitHeader} (h : v.entry u = .ok (attributes, some fault)) :
    v.FromAttributes attributes fault := by
  obtain ⟨info, _, h⟩ := Except.bind_ok h
  obtain ⟨found, _, h⟩ := Except.bind_ok h
  exact lookUpFrom_fromAttributes (Except.ok.inj h)

end

section

variable {l : Layout} {new : Prop}

lemma readInitialLength_fromData : FailsIn v.FromData data position readInitialLength := by
  refine .bind (lift_fromData _) fun first _ _ => ?_
  split
  · exact .pure _
  · split
    · exact .bind (lift_fromData _) fun _ _ _ => .pure _
    · exact .fail (.inl rfl)

lemma readFile_fromData : FailsIn v.FromData data position readFile := by
  refine .bind (lift_fromData _) fun name _ _ => ?_
  unfold readFileFields
  split
  · exact .pure _
  · refine .bind (lift_fromData _) fun _ _ _ => ?_
    refine .bind (lift_fromData _) fun _ _ _ => ?_
    exact .bind (lift_fromData _) fun _ _ _ => .pure _

lemma readTable_fromData : FailsIn v.FromData data position (EntryTable.read l) := by
  have field : ∀ p, FailsIn v.FromData data p EntryField.read := by
    intro p
    refine .bind (lift_fromData _) fun _ _ _ => ?_
    refine .bind (.check _ (.inl rfl)) fun _ _ _ => ?_
    exact .bind (lift_fromData _) fun _ _ _ => .pure _
  have entry : ∀ fields values p,
      FailsIn v.FromData data p (EntryTable.readEntry l fields values) := by
    intro fields
    induction fields with
    | nil => exact fun values p => .pure values
    | cons field rest ih =>
      intro values p
      refine .bind (.ofExcept fun _ => known_fromData) fun form _ _ => ?_
      exact .bind (readForm_fromData l form) fun _ _ _ => ih _ _
  refine .bind (lift_fromData _) fun fieldCount _ _ => ?_
  refine .bind (.times field fieldCount) fun fields _ _ => ?_
  refine .bind (lift_fromData _) fun count _ _ => ?_
  exact .bind (.times (entry fields []) count) fun _ _ _ => .pure _

lemma pathString_fromHeader {s : Sections} {kind : SectionKind} {value : Value}
    (isNew : new) (lacks : s.get? kind = none → v.LacksSection)
    (h : pathString s kind value = .error fault) : v.FromHeader new fault := by
  rcases Except.bind_error h with missing | ⟨data, _, h⟩
  · exact .inl (require_fromData lacks missing)
  · split at h
    · cases h
    · split at h
      · rcases Except.bind_error h with outside | ⟨text, _, h⟩
        · exact .inl (stringAt_fromData outside)
        · cases h
      · cases h
        exact .inr ⟨isNew, .inl rfl⟩

lemma replaceContent_error {content : Nat} {f : Value → Except Fault Value}
    {entries : List FieldValues} (h : replaceContent content f entries = .error fault) :
    ∃ value, f value = .error fault := by
  obtain ⟨values, _, failed⟩ := Except.mapM_error h
  rcases Except.bind_error failed with failed | ⟨_, _, failed⟩
  · exact ⟨_, failed⟩
  · cases failed

lemma resolveField_fromHeader {entries : List FieldValues} {field : EntryField}
    (isNew : new) (h : v.resolveField entries field = .error fault) :
    v.FromHeader new fault := by
  unfold resolveField at h
  split at h
  · obtain ⟨value, failed⟩ := replaceContent_error h
    exact pathString_fromHeader isNew (lacksSection_of_referenced (by decide)) failed
  · obtain ⟨value, failed⟩ := replaceContent_error h
    exact pathString_fromHeader isNew (lacksSection_of_referenced (by decide)) failed
  · split at h
    · rename_i other given
      obtain ⟨value, failed⟩ := replaceContent_error h
      exact pathString_fromHeader isNew (fun absent => .inr ⟨other, given, absent⟩) failed
    · obtain ⟨value, failed⟩ := replaceContent_error h
      cases failed
  · cases h
    exact .inl (.inl rfl)
  · cases h

lemma resolveTable_fromHeader {t : EntryTable} (isNew : new)
    (h : v.resolveTable t = .error fault) : v.FromHeader new fault := by
  unfold resolveTable at h
  generalize t.fields = fields at h
  generalize t.entries = entries at h
  induction fields generalizing entries with
  | nil => cases h
  | cons field rest ih =>
    rw [List.foldlM_cons] at h
    rcases Except.bind_error h with failed | ⟨after, _, h⟩
    · exact resolveField_fromHeader isNew failed
    · exact ih after h

lemma directoryPaths_fromHeader {entries : List FieldValues} (isNew : new)
    (h : directoryPaths entries = .error fault) : v.FromHeader new fault := by
  unfold directoryPaths at h
  split at h
  · cases h
  · rcases Except.bind_error h with failed | ⟨paths, _, h⟩
    · obtain ⟨values, _, failed⟩ := Except.mapM_error failed
      split at failed
      · cases failed
      · cases failed
        exact .inr ⟨isNew, .inr rfl⟩
    · cases h

lemma fromHeader_of_fromData {r : Reader Fault α} (h : FailsIn v.FromData data position r) :
    FailsIn (v.FromHeader new) data position r :=
  h.mono fun _ => .inl

lemma readTables_fromHeader {version : Nat} (late : 5 ≤ version → new) :
    FailsIn (v.FromHeader new) data position (v.readTables l version) := by
  unfold readTables
  split
  · refine fromHeader_of_fromData ?_
    refine .bind (.collect (fun _ => ?_) _) fun directories _ _ => ?_
    · exact .bind (lift_fromData _) fun _ _ _ => .pure _
    · refine .bind (.collect (fun _ => ?_) _) fun files _ _ => .pure _
      exact .bind readFile_fromData fun _ _ _ => .pure _
  · rename_i notOld
    have isNew := late (Nat.le_of_not_lt notOld)
    refine .bind (fromHeader_of_fromData readTable_fromData) fun directoryTable _ _ => ?_
    refine .bind (fromHeader_of_fromData readTable_fromData) fun fileTable _ _ => ?_
    refine .bind (.ofExcept fun _ => resolveTable_fromHeader isNew) fun directories _ _ => ?_
    refine .bind (.ofExcept fun _ => resolveTable_fromHeader isNew) fun files _ _ => ?_
    exact .bind (.ofExcept fun _ => directoryPaths_fromHeader isNew) fun _ _ _ => .pure _

/-- A number in front of a reader. -/
lemma number_fromHeader {β : Type} {r : Reader ReadFault β} {f : β → Reader Fault α}
    (h : ∀ b p, FailsIn (v.FromHeader new) data p (f b)) :
    FailsIn (v.FromHeader new) data position (r.mapFault .ofRead >>= f) :=
  .bind (fromHeader_of_fromData (lift_fromData r)) fun b next _ => h b next

lemma readLineHeader_fromHeader :
    FailsIn (v.FromHeader (NewAt data position)) data position (v.readLineHeader l) := by
  unfold readLineHeader
  refine .bind (fromHeader_of_fromData readInitialLength_fromData)
    fun length afterLength inLength => ?_
  refine .bind (fromHeader_of_fromData (lift_fromData _)) fun version afterVersion inVersion => ?_
  have late : 5 ≤ version → NewAt data position := fun late =>
    ⟨version, Reader.run_of_done ((Reader.bind_of_done inLength).trans inVersion), late⟩
  have tables : ∀ count p (f : Option (List Value) × Option (List LineFile) → LineHeader),
      FailsIn (v.FromHeader (NewAt data position)) data p (do
        let _opcodeLengths ← Reader.times count (Reader.byte.mapFault .ofRead)
        let given ← v.readTables l version
        return f given) := by
    intro count p f
    refine .bind (fromHeader_of_fromData (.times (fun _ => lift_fromData _) count)) fun _ _ _ => ?_
    exact .bind (readTables_fromHeader late) fun _ _ _ => .pure _
  -- What is in between are numbers, and some versions have more of them.
  dsimp only
  repeat' first
    | exact tables _ _ _
    | refine number_fromHeader fun _ _ => ?_
    | refine .bind (.pure 1) fun _ _ _ => ?_
    | split

end

end View

namespace Instruction

variable {v : View} {data : Bytes} {position : Nat}

open View (lift_fromData readFile_fromData)

lemma readExtended_fromData (l : Layout) (length code : Nat) :
    FailsIn v.FromData data position (readExtended l length code) := by
  unfold readExtended
  split
  · exact .pure _
  · exact .bind (lift_fromData _) fun _ _ _ => .pure _
  · exact .bind readFile_fromData fun _ _ _ => .pure _
  · exact .bind (lift_fromData _) fun _ _ _ => .pure _
  · refine .bind (fun fault next failed => ?_) fun _ _ _ => .pure _
    unfold skipRest at failed
    split at failed <;> cases failed
    exact .inr (.inl rfl)

lemma readStandard_fromData (opcode : Nat) :
    FailsIn v.FromData data position (readStandard opcode) := by
  unfold readStandard
  repeat' first
    | exact .pure _
    | exact .fail (.inl rfl)
    | exact .bind (lift_fromData _) fun _ _ _ => .pure _
    | split

lemma read_fromData (h : LineHeader) (l : Layout) :
    FailsIn v.FromData data position (read h l) := by
  refine .bind (lift_fromData _) fun opcode _ _ => ?_
  unfold readBody
  split
  · exact .pure _
  · split
    · refine .bind (lift_fromData _) fun length _ _ => ?_
      exact .bind (lift_fromData _) fun code _ _ => readExtended_fromData l length _
    · exact readStandard_fromData _

end Instruction

end WasmSourceMap.Dwarf
