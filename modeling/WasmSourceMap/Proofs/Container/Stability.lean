import WasmSourceMap.Container.Module
import WasmSourceMap.Proofs.Reader.Extension

/-!
# Modules in front of more bytes

No reader of the container looks at what follows the bytes that it reads, with two exceptions that
read the length of the data: a section has to end inside it, which stays true if more bytes follow,
and the sections go on up to its end. So whatever is read from the sections of a module is read in
the same way if something follows the module.
-/

namespace WasmSourceMap.Container

open Reader (Stable Anywhere)

namespace Section

lemma readHeader_stable : Stable readHeader :=
  .bind .position fun _ => .bind (Stable.byte.mapFault _) fun _ =>
    .bind (Stable.uleb.mapFault _) fun _ => .bind .position fun _ => .pure _

lemma readName_stable (s : Section) : Stable (readName s) := by
  unfold readName
  split
  · exact .bind (Stable.name.mapFault _) fun _ => .bind .position fun _ =>
      .bind (.check _ _) fun _ => .pure _
  · exact .pure s

/-- A section that is read ends inside the data. -/
lemma read_inside {data : Bytes} {position next : Nat} {s : Section}
    (h : read data position = .done s next) : s.stop ≤ data.length := by
  obtain ⟨header, p₁, h₁, h⟩ := Reader.bind_done h
  obtain ⟨inside, h⟩ := Reader.demand_done h
  obtain ⟨_, p₂, h₂, h⟩ := Reader.bind_done h
  obtain ⟨_, p₃, _, h⟩ := Reader.bind_done h
  obtain ⟨rfl, _⟩ := Reader.pure_done h
  rw [readName_stop h₂]
  exact inside

/-- A section that ends inside the data still does if more bytes follow. -/
lemma read_stable : Stable read :=
  .bind readHeader_stable fun header => .demand header.stop _ fun _ =>
    .bind (readName_stable header) fun _ => .bind ((Stable.seek _).mapFault _) fun _ => .pure _

end Section

namespace Contents

lemma readLimits_stable : Stable readLimits := by
  refine .bind (Stable.uleb.mapFault _) fun flags => .bind (Stable.uleb.mapFault _) fun _ => ?_
  split
  · exact .bind (Stable.uleb.mapFault _) fun _ => .pure _
  · exact .pure _

lemma readImportDescription_stable (kind : Nat) : Stable (readImportDescription kind) := by
  unfold readImportDescription
  split
  · exact .bind (Stable.uleb.mapFault _) fun _ => .pure _
  · exact .bind (Stable.byte.mapFault _) fun _ => .bind readLimits_stable fun _ => .pure _
  · exact .bind readLimits_stable fun _ => .pure _
  · exact .bind (Stable.byte.mapFault _) fun _ => .bind (Stable.byte.mapFault _) fun _ => .pure _
  · exact .bind (Stable.byte.mapFault _) fun _ => .bind (Stable.uleb.mapFault _) fun _ => .pure _
  · exact .fail _

lemma readImports_stable : Stable readImports := by
  have one : Stable readImport :=
    .bind (Stable.name.mapFault _) fun _ => .bind (Stable.name.mapFault _) fun _ =>
      .bind (Stable.byte.mapFault _) fun _ => readImportDescription_stable _
  exact .bind (Stable.uleb.mapFault _) fun count => .bind (one.times count) fun _ => .pure _

lemma readFunctionOffsets_stable (base : Nat) : Stable (readFunctionOffsets base) := by
  have one : Stable (readFunctionOffset base) :=
    .bind .position fun _ => .bind (Stable.uleb.mapFault _) fun _ => .bind .position fun _ =>
      .bind ((Stable.seek _).mapFault _) fun _ => .pure _
  exact .bind (Stable.uleb.mapFault _) fun count => one.times count

lemma readOperand_stable (opcode : Nat) : Stable (readOperand opcode) := by
  unfold readOperand
  split
  · exact Stable.sleb.mapFault _
  split
  · exact .bind (Stable.uleb.mapFault _) fun _ => .pure _
  · exact .pure _

lemma readOffsetExpression_stable : Stable readOffsetExpression :=
  .bind (Stable.byte.mapFault _) fun _ => .bind (readOperand_stable _) fun _ =>
    .bind (Stable.byte.mapFault _) fun _ => .bind (.check _ _) fun _ => .pure _

lemma readPlacement_stable (flags : Nat) : Stable (readPlacement flags) := by
  unfold readPlacement
  split
  · exact .pure _
  split
  · exact .bind (Stable.uleb.mapFault _) fun _ => .bind readOffsetExpression_stable fun _ => .pure _
  · exact .bind (.pure _) fun _ => .bind readOffsetExpression_stable fun _ => .pure _

lemma readSegments_stable : Stable readSegments := by
  have one : Stable readSegment :=
    .bind (Stable.uleb.mapFault _) fun _ => .bind (readPlacement_stable _) fun _ =>
      .bind (Stable.uleb.mapFault _) fun _ => .bind .position fun _ =>
        .bind ((Stable.seek _).mapFault _) fun _ => .pure _
  exact .bind (Stable.uleb.mapFault _) fun count => one.times count

lemma readBody_stable (s : Section) : Stable (readBody s) := by
  unfold readBody
  split
  · exact .bind readImports_stable fun _ => .pure _
  split
  · exact .bind (readFunctionOffsets_stable _) fun _ => .pure _
  split
  · exact .bind readSegments_stable fun _ => .pure _
  · exact .pure _

lemma readSection_stable : Stable readSection :=
  .bind Section.read_stable fun s => .bind ((Stable.seek _).mapFault _) fun _ =>
    .bind (readBody_stable s) fun _ => .bind ((Stable.seek _).mapFault _) fun _ => .pure _

lemma readSection_inside {data : Bytes} {position next : Nat} {r : Section × Contents}
    (h : readSection data position = .done r next) : r.1.stop ≤ data.length := by
  obtain ⟨s, p₁, h₁, h⟩ := Reader.bind_done h
  obtain ⟨_, p₂, _, h⟩ := Reader.bind_done h
  obtain ⟨contents, p₃, _, h⟩ := Reader.bind_done h
  obtain ⟨_, p₄, _, h⟩ := Reader.bind_done h
  obtain ⟨rfl, _⟩ := Reader.pure_done h
  exact Section.read_inside h₁

end Contents

namespace Symbol

lemma readDataPlace_stable (s : Symbol) : Stable (readDataPlace s) := by
  unfold readDataPlace
  split
  · exact .pure _
  · exact .bind (Stable.uleb.mapFault _) fun _ => .bind (Stable.uleb.mapFault _) fun _ =>
      .bind (Stable.uleb.mapFault _) fun _ => .pure _

lemma readOwnName_stable (s : Symbol) : Stable (readOwnName s) := by
  unfold readOwnName
  split
  · exact .bind (Stable.name.mapFault _) fun _ => .pure _
  · exact .pure _

lemma readBody_stable (s : Symbol) : Stable (readBody s) := by
  unfold readBody
  split
  · exact .bind (Stable.name.mapFault _) fun _ => readDataPlace_stable _
  · exact .bind (Stable.uleb.mapFault _) fun _ => .pure _
  · exact .bind (Stable.uleb.mapFault _) fun _ => readOwnName_stable _

lemma read_stable : Stable read :=
  .bind (Stable.byte.mapFault _) fun _ => .bind (Stable.uleb.mapFault _) fun _ => readBody_stable _

end Symbol

lemma readSymbolTable_stable (kind : Nat) : Stable (readSymbolTable kind) := by
  unfold readSymbolTable
  split
  · exact .bind (Stable.uleb.mapFault _) fun count =>
      .bind (Symbol.read_stable.times count) fun _ => .pure _
  · exact .pure _

lemma readSubsection_stable : Stable readSubsection :=
  .bind (Stable.byte.mapFault _) fun _ => .bind (Stable.uleb.mapFault _) fun _ =>
    .bind .position fun _ => .bind (readSymbolTable_stable _) fun _ =>
      .bind ((Stable.seek _).mapFault _) fun _ => .pure _

lemma readLinking_anywhere (s : Section) : Anywhere (readLinking s) :=
  .seek_bind _ _ fun _ => .bind (Stable.uleb.mapFault _) fun _ => .bind (.check _ _) fun _ =>
    .bind (readSubsection_stable.repeatUntil _ _) fun _ => .pure _

namespace Relocation

lemma readAddend_stable (code : Nat) : Stable (readAddend code) := by
  unfold readAddend
  split
  · exact Stable.sleb.mapFault _
  · exact .pure _

lemma read_stable (sectionName : String) (nameSize : Nat) : Stable (read sectionName nameSize) :=
  .bind (Stable.byte.mapFault _) fun _ => .bind (Stable.uleb.mapFault _) fun _ =>
    .bind (Stable.uleb.mapFault _) fun _ => .bind (readAddend_stable _) fun _ =>
      .bind (.check _ _) fun _ => .pure _

end Relocation

namespace RelocationSection

lemma readEntries_stable (sections : List Section) (s : Section) (target : Nat) :
    Stable (readEntries sections s target) := by
  unfold readEntries
  split
  · exact .fail _
  · exact .bind (Stable.uleb.mapFault _) fun count => (Relocation.read_stable _ _).times count

lemma read_anywhere (sections : List Section) (s : Section) : Anywhere (read sections s) :=
  .seek_bind _ _ fun _ => .bind (Stable.uleb.mapFault _) fun _ =>
    .bind (readEntries_stable sections s _) fun _ => .pure _

lemma readAll_anywhere (sections : List Section) :
    ∀ wanted : List Section, Anywhere (readAll sections wanted)
  | [] => .pure _
  | s :: rest => .bind (read_anywhere sections s) fun _ =>
      .bind (readAll_anywhere sections rest) fun _ => .pure _

end RelocationSection

namespace Module

lemma readPreamble_stable : Stable readPreamble :=
  .demand 8 _ fun _ => .bind ((Stable.unsigned 4).mapFault _) fun _ => .bind (.check _ _) fun _ =>
    .bind ((Stable.unsigned 4).mapFault _) fun _ => .check _ _

/-- The preamble that is read ends inside the data. -/
lemma readPreamble_inside {data : Bytes} {next : Nat} {u : Unit}
    (h : readPreamble data 0 = .done u next) : next ≤ data.length := by
  have four : Reader.Within (Reader.unsigned 4) := .bind (.bytes 4) fun _ => .pure _
  obtain ⟨_, h⟩ := Reader.demand_done h
  have rest : Reader.Within (do
      let first ← Reader.unsigned 4
      Reader.check (first = magic) (.badMagic first)
      let version ← Reader.unsigned 4
      Reader.check (version = containerVersion) (.badVersion version) : Reader Fault Unit) :=
    .bind (four.mapFault _) fun _ => .bind (.check _ _) fun _ => .bind (four.mapFault _) fun _ =>
      .check _ _
  exact (rest h).2 (Nat.zero_le _)

lemma readSymbols_anywhere (sections : List Section) : Anywhere (readSymbols sections) := by
  unfold readSymbols
  split
  · exact readLinking_anywhere _
  · exact .pure _

end Module

end WasmSourceMap.Container
