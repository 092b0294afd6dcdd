import WasmSourceMap.Container.Contents
import WasmSourceMap.Proofs.Leb128.Numeral

/-!
# Imports, function bodies and data segments as they are written

The written forms of what the sections of a module hold, with every number in any padding, and for
each of them that its reader reads it back: the number of the functions among the imports
(`Import.reads`), the starts of the function bodies (`readFunctionOffsets_reads`) and the data
segments with the places of their bytes (`Segment.reads`).
-/

namespace WasmSourceMap.Container.Written

open Reader (layOut)

/-- The limits of a table or a memory. -/
structure Limits where
  flags : Numeral
  minimum : Numeral
  maximum : Option Numeral
  announced : flags.value % 2 = if maximum.isSome then 1 else 0

namespace Limits

def bytes (l : Limits) : Bytes :=
  l.flags.bytes ++ (l.minimum.bytes ++ (l.maximum.map Numeral.bytes).getD [])

lemma reads (l : Limits) (start : Nat) : Contents.readLimits.Reads start l.bytes () := by
  refine .bind (l.flags.reads start).mapFault (.bind (l.minimum.reads _).mapFault ?_)
  rw [l.announced]
  cases l.maximum with
  | none => exact .pure ()
  | some most => exact .bind_pure (most.reads _).mapFault _

end Limits

/-- What an import stands for: the index of a type, the type of references and limits, limits, the
type of a value and whether it is mutable, an attribute and the index of a type. -/
inductive Description where
  | function (type : Numeral)
  | table (reference : UInt8) (limits : Limits)
  | memory (limits : Limits)
  | global (value mutability : UInt8)
  | tag (attr : UInt8) (type : Numeral)

namespace Description

def kind : Description → UInt8
  | function .. => 0
  | table .. => 1
  | memory .. => 2
  | global .. => 3
  | tag .. => 4

def bytes : Description → Bytes
  | function type => type.bytes
  | table reference limits => reference :: limits.bytes
  | memory limits => limits.bytes
  | global value mutability => [value, mutability]
  | tag attr type => attr :: type.bytes

def isFunction : Description → Bool
  | function .. => true
  | _ => false

lemma reads (d : Description) (start : Nat) :
    (Contents.readImportDescription d.kind.toNat).Reads start d.bytes d.isFunction := by
  cases d with
  | function type => exact .bind_pure (type.reads start).mapFault _
  | table reference limits =>
    exact .bind (Reader.Reads.byte reference).mapFault (.bind_pure (limits.reads _) _)
  | memory limits => exact .bind_pure (limits.reads start) _
  | global value mutability =>
    exact .bind (Reader.Reads.byte value).mapFault (.bind_pure (Reader.Reads.byte _).mapFault _)
  | tag attr type =>
    exact .bind (Reader.Reads.byte attr).mapFault (.bind_pure (type.reads _).mapFault _)

end Description

/-- An import under the names of its module and its field. -/
structure Import where
  moduleName : Block
  fieldName : Block
  description : Description

namespace Import

def bytes (i : Import) : Bytes :=
  i.moduleName.bytes ++ (i.fieldName.bytes ++ (i.description.kind :: i.description.bytes))

def isFunction (i : Import) : Bool := i.description.isFunction

lemma reads (i : Import) (start : Nat) : Contents.readImport.Reads start i.bytes i.isFunction := by
  refine .bind (i.moduleName.reads start).mapFault ?_
  refine .bind (i.fieldName.reads _).mapFault ?_
  exact .bind (Reader.Reads.byte i.description.kind).mapFault (i.description.reads _)

end Import

/-- Only imported functions count. -/
lemma readImports_reads (imports : Counted Import) (start : Nat) :
    Contents.readImports.Reads start (imports.bytes Import.bytes)
      (imports.items.countP Import.isFunction) := by
  have kinds : (imports.items.map Import.isFunction).count true =
      imports.items.countP Import.isFunction := by
    rw [List.count_eq_countP, List.countP_map]
    congr 1
    funext i
    exact beq_true _
  refine .bind (imports.count.reads start).mapFault ?_
  rw [imports.counts, ← kinds, ← Reader.layOut_const Import.isFunction]
  exact .bind_pure (.times (fun start i => i.reads start) _ imports.items) _

/-- The starts of function bodies that follow each other, the first of them at `start`. -/
def bodyStarts (start : Nat) (bodies : List Block) : List Nat :=
  layOut Block.bytes (fun start _ => start) start bodies

/-- A body begins behind those before it. -/
lemma getElem?_bodyStarts (start : Nat) (bodies : List Block) (i : Nat) :
    (bodyStarts start bodies)[i]? =
      bodies[i]?.map fun _ => start + ((bodies.take i).flatMap Block.bytes).length :=
  Reader.getElem?_layOut _ start bodies i

/-- Counted from a place in front of them, function bodies begin so much nearer. -/
lemma layOut_sub (base start : Nat) (bodies : List Block) :
    layOut Block.bytes (fun start _ => start - base) (base + start) bodies =
      bodyStarts start bodies := by
  unfold bodyStarts
  induction bodies generalizing start with
  | nil => rfl
  | cons b rest ih =>
    rw [layOut, layOut, Nat.add_sub_cancel_left, Nat.add_assoc, ih]

/-- The starts are those of the bodies, counted from the number of them on. -/
lemma readFunctionOffsets_reads (bodies : Counted Block) (start : Nat) :
    (Contents.readFunctionOffsets start).Reads start (bodies.bytes Block.bytes)
      (bodyStarts bodies.count.bytes.length bodies.items) := by
  have one : ∀ (p : Nat) (b : Block),
      (Contents.readFunctionOffset start).Reads p b.bytes (p - start) := by
    intro p b
    refine .bind_empty .position (.bind (b.size.reads p).mapFault ?_)
    rw [b.counts]
    exact .bind_empty .position (.bind_pure (Reader.Reads.skip b.content).mapFault _)
  -- The starts that are read count from the content of the section, not from the file.
  rw [← layOut_sub start]
  exact bodies.reads one .unreadable start

/-- The constant instructions that say where a segment is placed. -/
inductive Instruction where
  | i32 (operand : Numeral)
  | i64 (operand : Numeral)
  | globalGet (index : Numeral)

namespace Instruction

def opcode : Instruction → UInt8
  | i32 _ => 0x41
  | i64 _ => 0x42
  | globalGet _ => 0x23

def operand : Instruction → Numeral
  | i32 operand => operand
  | i64 operand => operand
  | globalGet index => index

/-- The place, which is not known for a global. -/
def value : Instruction → Int
  | i32 operand => operand.signed
  | i64 operand => operand.signed
  | globalGet _ => 0

/-- The instruction and the end of the expression. -/
def bytes (i : Instruction) : Bytes := i.opcode :: (i.operand.bytes ++ [0x0B])

lemma reads (i : Instruction) (start : Nat) :
    Contents.readOffsetExpression.Reads start i.bytes i.value := by
  have operand : ∀ p, (Contents.readOperand i.opcode.toNat).Reads p i.operand.bytes i.value := by
    intro p
    cases i with
    | i32 operand => exact (operand.reads_signed p).mapFault
    | i64 operand => exact (operand.reads_signed p).mapFault
    | globalGet index => exact .bind_pure (index.reads p).mapFault _
  refine .bind (Reader.Reads.byte i.opcode).mapFault ?_
  refine .bind (operand _) ?_
  exact .bind_done (Reader.Reads.byte 0x0B).mapFault (.bind_empty (.check rfl _) (.pure _))

end Instruction

/-- Where a segment is placed, if at all. -/
inductive Placement where
  | passive
  | active (offset : Instruction)
  | inMemory (memory : Numeral) (offset : Instruction)

namespace Placement

def code : Placement → Nat
  | passive => 1
  | active _ => 0
  | inMemory .. => 2

def bytes : Placement → Bytes
  | passive => []
  | active offset => offset.bytes
  | inMemory memory offset => memory.bytes ++ offset.bytes

def memoryIndex : Placement → Nat
  | inMemory memory _ => memory.value
  | _ => 0

def offset : Placement → Int
  | passive => 0
  | active offset => offset.value
  | inMemory _ offset => offset.value

lemma reads (p : Placement) (start : Nat) :
    (Contents.readPlacement p.code).Reads start p.bytes (p.memoryIndex, p.offset) := by
  cases p with
  | passive => exact .pure _
  | active offset => exact .bind_empty (.pure 0) (.bind_pure (offset.reads start) _)
  | inMemory memory offset =>
    exact .bind (memory.reads start).mapFault (.bind_pure (offset.reads _) _)

end Placement

/-- A data segment behind the flags that say how it is placed. -/
structure Segment where
  flags : Numeral
  placement : Placement
  block : Block
  announced : flags.value = placement.code

namespace Segment

def bytes (s : Segment) : Bytes := s.flags.bytes ++ (s.placement.bytes ++ s.block.bytes)

/-- The segment if its flags lie at `start`. -/
def placed (start : Nat) (s : Segment) : Container.Segment where
  memoryIndex := s.placement.memoryIndex
  offset := s.placement.offset
  size := s.block.content.length
  dataOffset := start + s.flags.bytes.length + s.placement.bytes.length + s.block.size.bytes.length

lemma reads (s : Segment) (start : Nat) :
    Contents.readSegment.Reads start s.bytes (s.placed start) := by
  refine .bind (s.flags.reads start).mapFault ?_
  rw [s.announced]
  refine .bind (s.placement.reads _) ?_
  refine .bind (s.block.size.reads _).mapFault ?_
  rw [s.block.counts]
  exact .bind_empty .position (.bind_pure (Reader.Reads.skip s.block.content).mapFault _)

end Segment

end WasmSourceMap.Container.Written
