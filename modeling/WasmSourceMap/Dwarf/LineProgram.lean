import WasmSourceMap.Dwarf.LineHeader

/-!
# Line programs

A line program is a run of instructions for a machine with a few registers; some instructions emit a
row, which ties an address to a source position. `Instruction.read` reads one instruction and
`Registers.execute` carries it out; numbers are unbounded.
-/

namespace WasmSourceMap.Dwarf

/-- A row of a line table. -/
structure Row where
  address : Nat
  file : Nat
  line : Int
  column : Nat
  endSequence : Bool
deriving DecidableEq, Repr

/-- An instruction of a line program. -/
inductive Instruction where
  | special (adjusted : Nat)
  | endSequence
  | setAddress (address : Nat)
  | defineFile (file : LineFile)
  | emitRow
  | advanceAddress (amount : Nat)
  | advanceLine (amount : Int)
  | setFile (file : Nat)
  | setColumn (column : Nat)
  | advanceByConstant
  | advanceFixed (amount : Nat)
  | noEffect
deriving DecidableEq, Repr

/-- Move the position on by one less than a length; a length of zero goes back one byte. -/
def skipRest (length : Nat) : Reader Fault Unit := fun _ position =>
  if position + length - 1 < Reader.positionBound then .done () (position + length - 1)
  else .failed .outOfRange position

namespace Instruction

/-- What follows the length of an extended instruction, by its code. -/
def readExtended (l : Layout) (length : Nat) : Nat → Reader Fault Instruction
  | 1 => pure .endSequence
  | 2 => do return .setAddress (← Reader.unsigned l.addressWidth)
  | 3 => do return .defineFile (← readFile)
  | 4 => do
    let _discriminator ← Reader.uleb
    return .noEffect
  | _ => do
    skipRest length
    return .noEffect

/-- What follows the opcode of a standard instruction. -/
def readStandard : Nat → Reader Fault Instruction
  | 1 => pure .emitRow
  | 2 => do return .advanceAddress (← Reader.uleb)
  | 3 => do return .advanceLine (← Reader.sleb)
  | 4 => do return .setFile (← Reader.uleb)
  | 5 => do return .setColumn (← Reader.uleb)
  | 6 | 7 | 10 | 11 => pure .noEffect
  | 8 => pure .advanceByConstant
  | 9 => do return .advanceFixed (← Reader.unsigned 2)
  | 12 => do
    let _instructionSet ← Reader.uleb
    return .noEffect
  | _ => Reader.fail .undecodable

/-- What follows the opcode. An opcode from the base on is a special instruction. -/
def readBody (h : LineHeader) (l : Layout) (opcode : Nat) : Reader Fault Instruction :=
  if h.opcodeBase ≤ opcode then pure (.special (opcode - h.opcodeBase))
  else if opcode = 0 then do
    let length ← Reader.uleb
    let code ← Reader.byte
    readExtended l length code.toNat
  else readStandard opcode

def read (h : LineHeader) (l : Layout) : Reader Fault Instruction := do
  let opcode ← Reader.byte
  readBody h l opcode.toNat

/-- The width of a number is what reading it moves. -/
theorem unsigned_within (width : Nat) : Reader.Within (Reader.unsigned width) :=
  .bind (.bytes width) fun _ => .pure _

/-- An extended instruction goes back one byte at most. -/
theorem readExtended_done {l : Layout} {length code : Nat} {data : Bytes} {position next : Nat}
    {i : Instruction} (h : readExtended l length code data position = .done i next) :
    position ≤ next + 1 := by
  unfold readExtended at h
  split at h
  · have := (Reader.pure_done h).2
    omega
  · obtain ⟨n, middle, h₁, h₂⟩ := Reader.bind_done h
    have := (unsigned_within _ (Reader.mapFault_done h₁)).1
    have := (Reader.pure_done h₂).2
    omega
  · obtain ⟨file, middle, h₁, h₂⟩ := Reader.bind_done h
    have := (readFile_consumes h₁).1
    have := (Reader.pure_done h₂).2
    omega
  · obtain ⟨n, middle, h₁, h₂⟩ := Reader.bind_done h
    have := (Reader.Consumes.uleb (Reader.mapFault_done h₁)).1
    have := (Reader.pure_done h₂).2
    omega
  · obtain ⟨n, middle, h₁, h₂⟩ := Reader.bind_done h
    have := (Reader.pure_done h₂).2
    unfold skipRest at h₁
    split at h₁
    · simp only [Outcome.done.injEq] at h₁
      omega
    · cases h₁

theorem readStandard_within (opcode : Nat) : Reader.Within (readStandard opcode) := by
  unfold readStandard
  split
  · exact .pure _
  · exact .bind (Reader.Consumes.uleb.mapFault _).within fun _ => .pure _
  · exact .bind (Reader.Consumes.sleb.mapFault _).within fun _ => .pure _
  · exact .bind (Reader.Consumes.uleb.mapFault _).within fun _ => .pure _
  · exact .bind (Reader.Consumes.uleb.mapFault _).within fun _ => .pure _
  · exact .pure _
  · exact .pure _
  · exact .pure _
  · exact .pure _
  · exact .pure _
  · exact .bind ((unsigned_within 2).mapFault _) fun _ => .pure _
  · exact .bind (Reader.Consumes.uleb.mapFault _).within fun _ => .pure _
  · exact .fail _

theorem read_advances (h : LineHeader) (l : Layout) : Reader.Advances (read h l) := by
  intro data position i next e
  obtain ⟨opcode, middle, e₁, e₂⟩ := Reader.bind_done e
  have := (Reader.Consumes.byte (Reader.mapFault_done e₁)).1
  unfold readBody at e₂
  split at e₂
  · have := (Reader.pure_done e₂).2
    omega
  · split at e₂
    · obtain ⟨length, m₁, e₃, e₂⟩ := Reader.bind_done e₂
      obtain ⟨code, m₂, e₄, e₂⟩ := Reader.bind_done e₂
      have := (Reader.Consumes.uleb (Reader.mapFault_done e₃)).1
      have := (Reader.Consumes.byte (Reader.mapFault_done e₄)).1
      have := readExtended_done e₂
      omega
    · have := (readStandard_within _ e₂).1
      omega

end Instruction

/-- The registers of the machine. -/
structure Registers where
  address : Nat := 0
  file : Nat := 1
  line : Int := 1
  column : Nat := 0
  operation : Nat := 0
deriving DecidableEq, Repr

/-- The machine that carries out a line program: its registers and the files, which the program can
add to. -/
structure LineMachine where
  registers : Registers
  files : Option (List LineFile)
deriving DecidableEq, Repr

namespace Registers

def row (r : Registers) (endSequence : Bool) : Row :=
  { address := r.address, file := r.file, line := r.line, column := r.column, endSequence }

/-- A special instruction moves address and line at once. -/
def special (h : LineHeader) (r : Registers) (adjusted : Nat) : Except Fault Registers :=
  if h.lineRange = 0 ∨ h.maximumOperations = 0 then .error .zeroDivisor
  else
    let operation := r.operation + adjusted / h.lineRange
    .ok { r with
      address := r.address + h.minimumInstructionLength * (operation / h.maximumOperations)
      operation := operation % h.maximumOperations
      line := r.line + (h.lineBase + (adjusted % h.lineRange : Nat)) }

/-- The address moves as far as the highest special instruction would move it. -/
def advanceByConstant (h : LineHeader) (r : Registers) : Except Fault Registers :=
  if h.lineRange = 0 then .error .zeroDivisor
  else
    let amount := (255 - h.opcodeBase) / h.lineRange * h.minimumInstructionLength
    .ok { r with address := r.address + amount }

end Registers

namespace LineMachine

/-- The machine with other registers and the row that was emitted. -/
def after (m : LineMachine) (r : Registers) (row : Option Row) : LineMachine × Option Row :=
  ({ m with registers := r }, row)

/-- Carry out an instruction; some emit a row. Files can be added before version 5 only. -/
def execute (h : LineHeader) (m : LineMachine) :
    Instruction → Except Fault (LineMachine × Option Row)
  | .special adjusted => do
    let r ← m.registers.special h adjusted
    return m.after r (some (r.row false))
  | .endSequence => .ok (m.after {} (some (m.registers.row true)))
  | .setAddress address => .ok (m.after { m.registers with address } none)
  | .defineFile file =>
    if h.version < 5 then .ok ({ m with files := m.files.map (· ++ [file]) }, none)
    else .error .missingField
  | .emitRow => .ok (m.after m.registers (some (m.registers.row false)))
  | .advanceAddress amount =>
    let address := m.registers.address + h.minimumInstructionLength * amount
    .ok (m.after { m.registers with address } none)
  | .advanceLine amount =>
    .ok (m.after { m.registers with line := m.registers.line + amount } none)
  | .setFile file => .ok (m.after { m.registers with file } none)
  | .setColumn column => .ok (m.after { m.registers with column } none)
  | .advanceByConstant => do
    return m.after (← m.registers.advanceByConstant h) none
  | .advanceFixed amount =>
    .ok (m.after { m.registers with address := m.registers.address + amount } none)
  | .noEffect => .ok (m, none)

end LineMachine

/-- What a line program leaves: its rows, unless it cannot be decoded to its end, the files with
those it added, and where its reading stopped. -/
structure LineRun where
  rows : Except Fault (List Row)
  files : Option (List LineFile)
  position : Nat

/-- Run the program from a position up to its end; an instruction may go past the end. -/
def LineRun.from (h : LineHeader) (l : Layout) (stop : Nat) (data : Bytes) (position : Nat)
    (m : LineMachine) : LineRun :=
  if position < stop then
    match _e : Instruction.read h l data position with
    | .failed fault next => ⟨.error fault, m.files, next⟩
    | .done i next =>
      match m.execute h i with
      | .error fault => ⟨.error fault, m.files, next⟩
      | .ok (after, row) =>
        let rest := LineRun.from h l stop data next after
        { rest with rows := rest.rows.map (row.toList ++ ·) }
  else ⟨.ok [], m.files, position⟩
termination_by stop - position
decreasing_by have := Instruction.read_advances h l _e; omega

end WasmSourceMap.Dwarf
