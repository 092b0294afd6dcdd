import WasmSourceMap.Proofs.Container.Layout
import WasmSourceMap.Proofs.Reader.Shortening

/-!
# Modules that are cut short

The first bytes of a module are a module only where a section ends, or right behind the preamble.
Cut anywhere else they are refused, and the fault says that the bytes end too early. Sections in
front of the cut may be read beyond their ends, even beyond the cut; each of them is read as in the
whole module or refused (`Contents.readSection_shortened`), and the section that is cut does not fit
into what is left.
-/

namespace WasmSourceMap.Container

open Reader (Shortened Short)

/-- The fault says that the bytes end before the module does. -/
inductive Fault.TellsEnd : Fault → Prop where
  | tooShort : TellsEnd .tooShort
  | sectionOverrun (id headerOffset : Nat) : TellsEnd (.sectionOverrun id headerOffset)
  | endOfData (offset : Nat) (wanted : Int) (got : Nat) :
    TellsEnd (.unreadable (.endOfData offset wanted got))

lemma Fault.TellsEnd.isMalformed {fault : Fault} (h : fault.TellsEnd) :
    fault.isMalformed = true := by
  cases h <;> rfl

/-- The fault says so unless the data is so long that it has positions out of range. -/
def Fault.Short (data : Bytes) (fault : Fault) : Prop :=
  data.length < Reader.positionBound → fault.TellsEnd

/-- What is read of the data is read of its first `n` bytes unless these end too early. -/
abbrev Truncates (data : Bytes) (n : Nat) {α : Type} (r : Reader Fault α) : Prop :=
  Shortened (Fault.Short data) data n r

end WasmSourceMap.Container

namespace WasmSourceMap.Reader.Shortened

open Container (Fault Truncates)

variable {α : Type} {data : Bytes} {n : Nat}

lemma lift {r : Reader ReadFault α} (h : Shortened (Short data) data n r) :
    Truncates data n (r.mapFault .unreadable) := by
  refine mapFault fun position a next read => ?_
  obtain same | ⟨fault, last, failed, known⟩ := h read
  · exact .inl same
  · refine .inr ⟨fault, last, failed, fun inRange => ?_⟩
    cases fault with
    | endOfData offset wanted got => exact .endOfData offset wanted got
    | outOfRange => exact absurd rfl (known inRange)

end WasmSourceMap.Reader.Shortened

namespace WasmSourceMap.Container

open Reader (Shortened)

variable {data : Bytes} {n : Nat}

namespace Section

lemma readHeader_shortened : Truncates data n readHeader :=
  .bind .position fun _ => .bind (.lift .byte) fun _ => .bind (.lift .uleb) fun _ =>
    .bind .position fun _ => .pure _

lemma readName_shortened (s : Section) : Truncates data n (readName s) := by
  unfold readName
  split
  · exact .bind (.lift .name) fun _ => .bind .position fun _ => .bind (.check _ _) fun _ => .pure _
  · exact .pure s

/-- A section that ends behind the cut is refused. -/
lemma read_shortened : Truncates data n read :=
  .bind readHeader_shortened fun header => .demand (fun _ => .sectionOverrun _ _) <|
    .bind (readName_shortened header) fun _ => .bind (.lift (.seek _)) fun _ => .pure _

end Section

namespace Contents

lemma readLimits_shortened : Truncates data n readLimits := by
  refine .bind (.lift .uleb) fun flags => .bind (.lift .uleb) fun _ => ?_
  split
  · exact .bind (.lift .uleb) fun _ => .pure _
  · exact .pure _

lemma readImportDescription_shortened (kind : Nat) :
    Truncates data n (readImportDescription kind) := by
  unfold readImportDescription
  split
  · exact .bind (.lift .uleb) fun _ => .pure _
  · exact .bind (.lift .byte) fun _ => .bind readLimits_shortened fun _ => .pure _
  · exact .bind readLimits_shortened fun _ => .pure _
  · exact .bind (.lift .byte) fun _ => .bind (.lift .byte) fun _ => .pure _
  · exact .bind (.lift .byte) fun _ => .bind (.lift .uleb) fun _ => .pure _
  · exact .fail _

lemma readImports_shortened : Truncates data n readImports := by
  have one : Truncates data n readImport :=
    .bind (.lift .name) fun _ => .bind (.lift .name) fun _ => .bind (.lift .byte) fun _ =>
      readImportDescription_shortened _
  exact .bind (.lift .uleb) fun count => .bind (one.times count) fun _ => .pure _

lemma readFunctionOffsets_shortened (base : Nat) : Truncates data n (readFunctionOffsets base) := by
  have one : Truncates data n (readFunctionOffset base) :=
    .bind .position fun _ => .bind (.lift .uleb) fun _ => .bind .position fun _ =>
      .bind (.lift (.seek _)) fun _ => .pure _
  exact .bind (.lift .uleb) fun count => one.times count

lemma readOffsetExpression_shortened : Truncates data n readOffsetExpression := by
  have operand : ∀ opcode, Truncates data n (readOperand opcode) := by
    intro opcode
    unfold readOperand
    split
    · exact .lift .sleb
    split
    · exact .bind (.lift .uleb) fun _ => .pure _
    · exact .pure _
  exact .bind (.lift .byte) fun opcode => .bind (operand _) fun _ => .bind (.lift .byte) fun _ =>
    .bind (.check _ _) fun _ => .pure _

lemma readPlacement_shortened (flags : Nat) : Truncates data n (readPlacement flags) := by
  unfold readPlacement
  split
  · exact .pure _
  split
  · exact .bind (.lift .uleb) fun _ => .bind readOffsetExpression_shortened fun _ => .pure _
  · exact .bind (.pure _) fun _ => .bind readOffsetExpression_shortened fun _ => .pure _

lemma readSegments_shortened : Truncates data n readSegments := by
  have one : Truncates data n readSegment :=
    .bind (.lift .uleb) fun flags => .bind (readPlacement_shortened flags) fun _ =>
      .bind (.lift .uleb) fun _ => .bind .position fun _ => .bind (.lift (.seek _)) fun _ => .pure _
  exact .bind (.lift .uleb) fun count => one.times count

lemma readBody_shortened (s : Section) : Truncates data n (readBody s) := by
  unfold readBody
  split
  · exact .bind readImports_shortened fun _ => .pure _
  split
  · exact .bind (readFunctionOffsets_shortened _) fun _ => .pure _
  split
  · exact .bind readSegments_shortened fun _ => .pure _
  · exact .pure _

lemma readSection_shortened : Truncates data n readSection :=
  .bind Section.read_shortened fun s => .bind (.lift (.seek _)) fun _ =>
    .bind (readBody_shortened s) fun _ => .bind (.lift (.seek _)) fun _ => .pure _

/-- A run of sections is refused at the latest where the section that is cut begins. -/
lemma repeatUntilAt_take {position last : Nat} {parts : List (Section × Contents)}
    (h : Reader.repeatUntilAt data.length readSection readSection_advances data position =
      .done parts last)
    (before : position < n) (cut : n < data.length) (notEnd : ∀ r ∈ parts, r.1.stop ≠ n) :
    ∃ fault final, Reader.repeatUntilAt n readSection readSection_advances (data.take n) position =
      .failed fault final ∧ fault.Short data := by
  fun_induction Reader.repeatUntilAt data.length readSection readSection_advances data position
    generalizing parts last with
  | case1 => cases h
  | case2 position more r next read rest end_ inner ih =>
    cases h
    obtain ⟨otherEnd, notLater⟩ := List.forall_mem_cons.1 notEnd
    rw [Reader.repeatUntilAt, if_pos before]
    obtain same | ⟨fault, final, failed, known⟩ := readSection_shortened (n := n) read
    · -- The section fits into what is left, so it ends before the cut and the run goes on.
      have ends := (readSection_done read).1
      have inside := readSection_inside same
      rw [List.length_take] at inside
      obtain ⟨fault, final, failed, known⟩ := ih inner (by omega) notLater
      rw [same]
      dsimp only
      rw [failed]
      exact ⟨fault, final, rfl, known⟩
    · rw [failed]
      exact ⟨fault, final, rfl, known⟩
  | case3 => cases h
  | case4 position after => omega

end Contents

namespace Module

variable {m : Module}

lemma readPreamble_shortened : Truncates data n readPreamble :=
  .demand (fun _ => .tooShort) <| .bind (.lift (.unsigned 4)) fun _ => .bind (.check _ _) fun _ =>
    .bind (.lift (.unsigned 4)) fun _ => .check _ _

/-- The first bytes of a module are refused unless they end behind the preamble or where a section
does. The fault says that they end too early; only a module with positions out of range, which no
memory holds, could be refused for one of these. -/
theorem parse_take (parsed : parse data = .ok m) (cut : n < data.length) (notStart : n ≠ 8)
    (notEnd : ∀ s ∈ m.sections, s.stop ≠ n) :
    ∃ fault, parse (data.take n) = .error fault ∧
      (data.length < Reader.positionBound → fault.isMalformed = true ∧ fault.TellsEnd) := by
  obtain ⟨parts, p₁, p₂, p₃, p₄, h₁, h₂, _, _, _, sections, _⟩ := parse_ok parsed
  have refused : ∃ fault final, read (data.take n) 0 = .failed fault final ∧ fault.Short data := by
    obtain preamble | ⟨fault, final, failed, known⟩ := readPreamble_shortened (n := n) h₁
    · have start := readPreamble_done preamble
      have inside := readPreamble_inside preamble
      rw [List.length_take] at inside
      have notEnd' : ∀ r ∈ parts, r.1.stop ≠ n := by
        intro r mem
        exact notEnd r.1 (sections ▸ List.mem_map_of_mem mem)
      obtain ⟨fault, final, failed, known⟩ :=
        Contents.repeatUntilAt_take h₂ (by omega) cut notEnd'
      have run : readSections (data.take n) p₁ = .failed fault final := by
        show Reader.repeatUntilAt (data.take n).length _ _ _ _ = _
        rw [List.length_take_of_le (Nat.le_of_lt cut)]
        exact failed
      refine ⟨fault, final, ?_, known⟩
      exact (Reader.bind_of_done preamble).trans (Reader.bind_of_failed run)
    · exact ⟨fault, final, Reader.bind_of_failed failed, known⟩
  obtain ⟨fault, final, failed, known⟩ := refused
  refine ⟨fault, ?_, fun inRange => ⟨(known inRange).isMalformed, known inRange⟩⟩
  unfold parse Reader.run
  rw [failed]

/-- An import section of one byte, which says that there is one import, and two custom sections,
from which this import is read: the first is its names, the second its kind and its type. -/
def readAhead : Bytes :=
  [0x00, 0x61, 0x73, 0x6d, 0x01, 0x00, 0x00, 0x00,
    0x02, 0x01, 0x01,
    0x00, 0x04, 0x01, 0x61, 0x62, 0x63,
    0x00, 0x02, 0x00, 0xff]

/-- Cut inside the first custom section it is refused, by the import section in front of it. -/
theorem parse_take_readAhead :
    ∃ m, parse readAhead = .ok m ∧ 16 < readAhead.length ∧ (∀ s ∈ m.sections, s.stop ≠ 16) ∧
      ∃ fault, parse (readAhead.take 16) = .error fault ∧ fault.TellsEnd := by
  have accepted : (parse readAhead >>= fun m => pure (m.sections.map Section.stop)) =
      .ok [11, 17, 21] := by
    decide +kernel
  obtain ⟨m, parsed, facts⟩ := Except.bind_ok accepted
  have stops : m.sections.map Section.stop = [11, 17, 21] := Except.ok.inj facts
  have notEnd : ∀ s ∈ m.sections, s.stop ≠ 16 := by
    intro s mem same
    have among : 16 ∈ m.sections.map Section.stop := same ▸ List.mem_map_of_mem mem
    rw [stops] at among
    revert among
    decide
  have cut : 16 < readAhead.length := by decide
  obtain ⟨fault, refused, known⟩ := parse_take parsed cut (by decide) notEnd
  exact ⟨m, parsed, cut, notEnd, fault, refused, (known (by decide)).2⟩

end Module

end WasmSourceMap.Container
