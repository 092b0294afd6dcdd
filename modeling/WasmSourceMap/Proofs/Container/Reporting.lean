import WasmSourceMap.Proofs.Container.Layout
import WasmSourceMap.Proofs.Reader.Answers

/-!
# Which faults a module can have

Every fault of a module but one says that the module is malformed. The exception comes from a number
so large that no position lies behind it, and arises where such a number is a length: the length of
a name, of a function body, of a data segment or of a subsection. A property of faults that holds
for the parts of a reader holds for the reader (`Reader.FailsIn`), and so it is found out for each
reader of the container and at last for the whole module that every fault has one of these two
causes.

A seek to the end of a section, or to the payload of one that was read before, cannot fail, since
sections end inside the data.
-/

namespace WasmSourceMap

namespace Reader

/-- The data holds a number that leads from its end to where no position is. -/
def HoldsHugeNumber (data : Bytes) : Prop :=
  ∃ start n next, uleb data start = .done n next ∧ positionBound ≤ next + n

/-- Only such a number makes a position be out of range. -/
def Explained (data : Bytes) (fault : ReadFault) : Prop :=
  fault = .outOfRange → HoldsHugeNumber data

section

variable {data : Bytes} {position : Nat}

lemma byte_explained : FailsIn (Explained data) data position byte := by
  intro fault next failed
  unfold byte at failed
  split at failed
  · cases failed
  · cases failed
    nofun

lemma uleb_explained : FailsIn (Explained data) data position uleb := by
  intro fault next failed
  change ulebAt data position = _ at failed
  fun_induction ulebAt data position generalizing fault next with
  | case1 position own last first =>
    cases failed
    exact byte_explained first
  | case2 => cases failed
  | case3 => cases failed
  | case4 position b middle first goesOn own last inner ih =>
    cases failed
    exact ih inner

lemma sleb_explained : FailsIn (Explained data) data position sleb := by
  intro fault next failed
  change slebAt data position = _ at failed
  fun_induction slebAt data position generalizing fault next with
  | case1 position own last first =>
    cases failed
    exact byte_explained first
  | case2 => cases failed
  | case3 => cases failed
  | case4 => cases failed
  | case5 position b middle first positive goesOn own last inner ih =>
    cases failed
    exact ih inner

/-- So many bytes are refused as out of range only if the number of them is. -/
lemma bytes_explained {count : Nat} (h : positionBound ≤ count → HoldsHugeNumber data) :
    FailsIn (Explained data) data position (bytes count) := by
  intro fault next failed
  unfold bytes at failed
  dsimp only at failed
  split at failed
  · cases failed
  · split at failed
    · cases failed
      nofun
    · rename_i large
      cases failed
      intro _
      exact h (Nat.le_of_not_lt large)

lemma name_explained : FailsIn (Explained data) data position name := by
  refine .bind uleb_explained fun n next number => ?_
  refine .bind (bytes_explained fun large => ?_) fun taken last _ => .pure _
  exact ⟨position, n, next, number, by omega⟩

/-- Inside the data every place can be gone to. -/
lemma seek_inside_explained {target : Nat} (h : target ≤ data.length) :
    FailsIn (Explained data) data position (seek target) := by
  intro fault next failed
  rw [seek_of_le h] at failed
  cases failed

/-- What lies behind a number can be gone to unless the number is too large. -/
lemma seek_behind_explained {start n next : Nat} (number : uleb data start = .done n next) :
    FailsIn (Explained data) data position (seek (next + n)) := by
  intro fault last failed
  unfold seek at failed
  split at failed
  · cases failed
  · rename_i outside
    cases failed
    intro _
    exact ⟨start, n, next, number, by omega⟩

end

end Reader

namespace Container

open Reader (FailsIn HoldsHugeNumber)

variable {data : Bytes} {position : Nat}

/-- The fault says that the module is malformed, or that a position is out of range on account of a
number in the data. -/
def Fault.Explained (data : Bytes) (fault : Fault) : Prop :=
  fault.isMalformed = true ∨ fault = .unreadable .outOfRange ∧ HoldsHugeNumber data

/-- All faults of a reader that begins at a position are explained. -/
abbrev Accountable (data : Bytes) (position : Nat) {α : Type} (r : Reader Fault α) : Prop :=
  FailsIn (Fault.Explained data) data position r

end Container

namespace Reader.FailsIn

open Container (Fault Accountable)

variable {α : Type} {data : Bytes} {position : Nat}

lemma lift {r : Reader ReadFault α} (h : FailsIn (Explained data) data position r) :
    Accountable data position (r.mapFault .unreadable) := by
  refine mapFault fun fault next failed => ?_
  cases fault with
  | endOfData => exact .inl rfl
  | outOfRange => exact .inr ⟨rfl, h failed rfl⟩

lemma byte : Accountable data position (Reader.byte.mapFault .unreadable) := lift byte_explained

lemma uleb : Accountable data position (Reader.uleb.mapFault .unreadable) := lift uleb_explained

lemma sleb : Accountable data position (Reader.sleb.mapFault .unreadable) := lift sleb_explained

lemma name : Accountable data position (Reader.name.mapFault .unreadable) := lift name_explained

lemma seek {target : Nat} (h : target ≤ data.length) :
    Accountable data position ((Reader.seek target).mapFault .unreadable) :=
  lift (seek_inside_explained h)

/-- A length and the position behind it, followed by a reader that may go on behind what has this
length. -/
lemma sized {f : Nat → Nat → Reader Fault α}
    (h : ∀ n start, (∀ p, Accountable data p ((Reader.seek (start + n)).mapFault .unreadable)) →
      Accountable data start (f n start)) :
    Accountable data position
      (Reader.uleb.mapFault .unreadable >>= fun n => Reader.position >>= fun start => f n start) := by
  refine bind uleb fun n next number => ?_
  refine bind here fun start last same => ?_
  obtain ⟨rfl, rfl⟩ := position_done same
  exact h n _ fun p => lift (seek_behind_explained (mapFault_done number))

end Reader.FailsIn

namespace Container

open Reader (HoldsHugeNumber)

variable {data : Bytes} {position : Nat}

namespace Section

lemma readHeader_accountable : Accountable data position readHeader := by
  refine .bind .here fun _ _ _ => ?_
  refine .bind .byte fun _ _ _ => ?_
  refine .bind .uleb fun _ _ _ => ?_
  exact .bind .here fun _ _ _ => .pure _

lemma readName_accountable (s : Section) : Accountable data position (readName s) := by
  unfold readName
  split
  · refine .bind .name fun _ _ _ => ?_
    refine .bind .here fun _ _ _ => ?_
    exact .bind (.check _ (.inl rfl)) fun _ _ _ => .pure _
  · exact .pure s

lemma read_accountable : Accountable data position read := by
  refine .bind readHeader_accountable fun header _ _ => ?_
  refine .demand (.inl rfl) fun inside => ?_
  refine .bind (readName_accountable header) fun _ _ _ => ?_
  exact .bind (.seek inside) fun _ _ _ => .pure _

end Section

namespace Contents

lemma readLimits_accountable : Accountable data position readLimits := by
  refine .bind .uleb fun flags _ _ => ?_
  refine .bind .uleb fun _ _ _ => ?_
  split
  · exact .bind .uleb fun _ _ _ => .pure _
  · exact .pure _

lemma readImportDescription_accountable (kind : Nat) :
    Accountable data position (readImportDescription kind) := by
  unfold readImportDescription
  split
  · exact .bind .uleb fun _ _ _ => .pure _
  · exact .bind .byte fun _ _ _ => .bind readLimits_accountable fun _ _ _ => .pure _
  · exact .bind readLimits_accountable fun _ _ _ => .pure _
  · exact .bind .byte fun _ _ _ => .bind .byte fun _ _ _ => .pure _
  · exact .bind .byte fun _ _ _ => .bind .uleb fun _ _ _ => .pure _
  · exact .fail (.inl rfl)

lemma readImports_accountable : Accountable data position readImports := by
  have one : ∀ p, Accountable data p readImport := by
    intro p
    refine .bind .name fun _ _ _ => ?_
    refine .bind .name fun _ _ _ => ?_
    exact .bind .byte fun _ _ _ => readImportDescription_accountable _
  refine .bind .uleb fun count _ _ => ?_
  exact .bind (.times one count) fun _ _ _ => .pure _

lemma readFunctionOffsets_accountable (base : Nat) :
    Accountable data position (readFunctionOffsets base) := by
  have one : ∀ p, Accountable data p (readFunctionOffset base) := by
    intro p
    refine .bind .here fun _ _ _ => ?_
    refine .sized fun size body behind => ?_
    exact .bind (behind body) fun _ _ _ => .pure _
  exact .bind .uleb fun count _ _ => .times one count

lemma readOffsetExpression_accountable : Accountable data position readOffsetExpression := by
  have operand : ∀ opcode p, Accountable data p (readOperand opcode) := by
    intro opcode p
    unfold readOperand
    split
    · exact .sleb
    split
    · exact .bind .uleb fun _ _ _ => .pure _
    · exact .pure _
  refine .bind .byte fun opcode _ _ => ?_
  refine .bind (operand _ _) fun _ _ _ => ?_
  refine .bind .byte fun _ _ _ => ?_
  exact .bind (.check _ (.inl rfl)) fun _ _ _ => .pure _

lemma readPlacement_accountable (flags : Nat) :
    Accountable data position (readPlacement flags) := by
  unfold readPlacement
  split
  · exact .pure _
  split
  · exact .bind .uleb fun _ _ _ => .bind readOffsetExpression_accountable fun _ _ _ => .pure _
  · exact .bind (.pure _) fun _ _ _ => .bind readOffsetExpression_accountable fun _ _ _ => .pure _

lemma readSegments_accountable : Accountable data position readSegments := by
  have one : ∀ p, Accountable data p readSegment := by
    intro p
    refine .bind .uleb fun flags _ _ => ?_
    refine .bind (readPlacement_accountable flags) fun placement _ _ => ?_
    refine .sized fun size start behind => ?_
    exact .bind (behind start) fun _ _ _ => .pure _
  exact .bind .uleb fun count _ _ => .times one count

lemma readBody_accountable (s : Section) : Accountable data position (readBody s) := by
  unfold readBody
  split
  · exact .bind readImports_accountable fun _ _ _ => .pure _
  split
  · exact .bind (readFunctionOffsets_accountable _) fun _ _ _ => .pure _
  split
  · exact .bind readSegments_accountable fun _ _ _ => .pure _
  · exact .pure _

lemma readSection_accountable : Accountable data position readSection := by
  refine .bind Section.read_accountable fun s _ read => ?_
  have inside := Section.read_inside read
  have start : s.offset ≤ data.length := Nat.le_trans (Nat.le_add_right _ _) inside
  refine .bind (.seek start) fun _ _ _ => ?_
  refine .bind (readBody_accountable s) fun _ _ _ => ?_
  exact .bind (.seek inside) fun _ _ _ => .pure _

end Contents

namespace Symbol

lemma readBody_accountable (s : Symbol) : Accountable data position (readBody s) := by
  have place : ∀ (t : Symbol) p, Accountable data p (readDataPlace t) := by
    intro t p
    unfold readDataPlace
    split
    · exact .pure _
    · refine .bind .uleb fun _ _ _ => ?_
      exact .bind .uleb fun _ _ _ => .bind .uleb fun _ _ _ => .pure _
  have ownName : ∀ (t : Symbol) p, Accountable data p (readOwnName t) := by
    intro t p
    unfold readOwnName
    split
    · exact .bind .name fun _ _ _ => .pure _
    · exact .pure _
  unfold readBody
  split
  · exact .bind .name fun _ _ _ => place _ _
  · exact .bind .uleb fun _ _ _ => .pure _
  · exact .bind .uleb fun _ _ _ => ownName _ _

lemma read_accountable : Accountable data position read :=
  .bind .byte fun _ _ _ => .bind .uleb fun _ _ _ => readBody_accountable _

end Symbol

lemma readSymbolTable_accountable (kind : Nat) :
    Accountable data position (readSymbolTable kind) := by
  unfold readSymbolTable
  split
  · refine .bind .uleb fun count _ _ => ?_
    exact .bind (.times (fun _ => Symbol.read_accountable) count) fun _ _ _ => .pure _
  · exact .pure _

lemma readSubsection_accountable : Accountable data position readSubsection := by
  refine .bind .byte fun kind _ _ => ?_
  refine .sized fun size start behind => ?_
  refine .bind (readSymbolTable_accountable _) fun _ next _ => ?_
  exact .bind (behind next) fun _ _ _ => .pure _

lemma readLinking_accountable {s : Section} (inside : s.dataOffset ≤ data.length) :
    Accountable data position (readLinking s) := by
  refine .bind (.seek inside) fun _ _ _ => ?_
  refine .bind .uleb fun version _ _ => ?_
  refine .bind (.check _ (.inl rfl)) fun _ _ _ => ?_
  exact .bind (.repeatUntil (fun _ => readSubsection_accountable) _ _) fun _ _ _ => .pure _

namespace RelocationSection

lemma readEntries_accountable (sections : List Section) (s : Section) (target : Nat) :
    Accountable data position (readEntries sections s target) := by
  have addend : ∀ code p, Accountable data p (Relocation.readAddend code) := by
    intro code p
    unfold Relocation.readAddend
    split
    · exact .sleb
    · exact .pure _
  have one : ∀ nameSize p, Accountable data p (Relocation.read s.name nameSize) := by
    intro nameSize p
    refine .bind .byte fun code _ _ => ?_
    refine .bind .uleb fun place _ _ => ?_
    refine .bind .uleb fun symbol _ _ => ?_
    refine .bind (addend _ _) fun _ _ _ => ?_
    exact .bind (.check _ (.inl rfl)) fun _ _ _ => .pure _
  unfold readEntries
  split
  · exact .fail (.inl rfl)
  · exact .bind .uleb fun count _ _ => .times (one _) count

lemma readAll_accountable (sections : List Section) {wanted : List Section}
    (inside : ∀ s ∈ wanted, s.dataOffset ≤ data.length) :
    Accountable data position (readAll sections wanted) := by
  induction wanted generalizing position with
  | nil => exact .pure []
  | cons s rest ih =>
    obtain ⟨here, others⟩ := List.forall_mem_cons.1 inside
    have first : Accountable data position (read sections s) := by
      refine .bind (.seek here) fun _ _ _ => ?_
      refine .bind .uleb fun target _ _ => ?_
      exact .bind (readEntries_accountable sections s target) fun _ _ _ => .pure _
    exact .bind first fun _ _ _ => .bind (ih others) fun _ _ _ => .pure _

end RelocationSection

namespace Module

lemma readPreamble_accountable : Accountable data position readPreamble := by
  have four : ∀ p, Accountable data p ((Reader.unsigned 4).mapFault .unreadable) := by
    intro p
    refine .lift (.bind (Reader.bytes_explained fun large => ?_) fun _ _ _ => .pure _)
    exact absurd large (by decide)
  refine .demand (.inl rfl) fun _ => ?_
  refine .bind (four _) fun _ _ _ => ?_
  refine .bind (.check _ (.inl rfl)) fun _ _ _ => ?_
  refine .bind (four _) fun _ _ _ => ?_
  exact .check _ (.inl rfl)

/-- The payload of a section that was read begins inside the data. -/
lemma dataOffset_le_of_readSections {parts : List (Section × Contents)} {next : Nat}
    (h : readSections data position = .done parts next) :
    ∀ s ∈ parts.map Prod.fst, s.dataOffset ≤ data.length := by
  intro s mem
  obtain ⟨r, inside, rfl⟩ := List.mem_map.1 mem
  obtain ⟨p, q, read⟩ := Reader.read_of_mem_repeatUntilAt h inside
  obtain ⟨_, here⟩ := Contents.readSection_section read
  have ordered := (Section.read_ordered here).1
  exact Nat.le_trans ordered.dataOffset_le_stop (Section.read_inside here)

lemma readSymbols_accountable {sections : List Section}
    (inside : ∀ s ∈ sections, s.dataOffset ≤ data.length) :
    Accountable data position (readSymbols sections) := by
  unfold readSymbols
  split
  · rename_i s found
    exact readLinking_accountable (inside s (List.mem_of_find?_eq_some found))
  · exact .pure []

lemma read_accountable : Accountable data position read := by
  have all : Accountable data position (do
      readPreamble
      let parts ← readSections
      let sections := parts.map Prod.fst
      let symbols ← readSymbols sections
      let relocations ←
        RelocationSection.readAll sections (sections.filter RelocationSection.isRelocation)
      let contents := Contents.concat (parts.map Prod.snd)
      return ({ data, sections, contents, symbols, relocations } : Module)) := by
    refine .bind readPreamble_accountable fun _ _ _ => ?_
    refine .bind (.repeatUntil (fun _ => Contents.readSection_accountable) _ _) fun parts _ read => ?_
    have inside := dataOffset_le_of_readSections read
    have inFiltered : ∀ s ∈ (parts.map Prod.fst).filter RelocationSection.isRelocation,
        s.dataOffset ≤ data.length := fun s mem => inside s (List.mem_filter.1 mem).1
    refine .bind (readSymbols_accountable inside) fun _ _ _ => ?_
    exact .bind (RelocationSection.readAll_accountable _ inFiltered) fun _ _ _ => .pure _
  exact all

/-- Bytes are a module, or the fault says that they are malformed, or a position is out of range
because the bytes hold a number that leads there. -/
theorem parse_ok_or_isMalformed_or_huge (data : Bytes) :
    (∃ m, parse data = .ok m) ∨
    (∃ fault, parse data = .error fault ∧ fault.isMalformed = true) ∨
    parse data = .error (.unreadable .outOfRange) ∧ HoldsHugeNumber data := by
  cases outcome : read data 0 with
  | done m next => exact .inl ⟨m, Reader.run_of_done outcome⟩
  | failed fault next =>
    have failed : parse data = .error fault := by
      unfold parse Reader.run
      rw [outcome]
    obtain malformed | ⟨rfl, huge⟩ := read_accountable outcome
    · exact .inr (.inl ⟨fault, failed, malformed⟩)
    · exact .inr (.inr ⟨failed, huge⟩)

/-- A custom section whose name would have 2 ^ 63 bytes. -/
def hugeName : Bytes :=
  [0x00, 0x61, 0x73, 0x6d, 0x01, 0x00, 0x00, 0x00,
    0x00, 0x0a, 0x80, 0x80, 0x80, 0x80, 0x80, 0x80, 0x80, 0x80, 0x80, 0x01]

/-- They are refused with a fault that does not say that they are malformed. -/
theorem parse_hugeName :
    parse hugeName = .error (.unreadable .outOfRange) ∧
      Fault.isMalformed (.unreadable .outOfRange) = false := by
  have refused : (parse hugeName).map (fun _ => ()) = .error (.unreadable .outOfRange) := by
    decide +kernel
  refine ⟨?_, rfl⟩
  cases outcome : parse hugeName with
  | ok m =>
    rw [outcome] at refused
    cases refused
  | error fault =>
    rw [outcome] at refused
    cases refused
    rfl

end Module

end Container

end WasmSourceMap
