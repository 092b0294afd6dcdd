import WasmSourceMap.Proofs.Container.Written.Modules

/-!
# Functions and their bodies

Functions are numbered through, first the imported ones and then those with a body. In a module with
one code section (`CodeModule`) the reader passes over every import and every body, whatever their
parts are, so that the functions it knows are the bodies: each offset points at the size field of
its body, and a function symbol has the offset of the body that its index stands for
(`functions_of_write`).
-/

namespace WasmSourceMap.Container

namespace Symbol

variable {contents : Contents} {s : Symbol}

/-- A function symbol that is defined has the offset of its function. -/
lemma address_function (isFunction : s.kind = .function) (defined : s.isUndefined = false)
    {i offset : Nat} (index : s.index = contents.importedFunctions + i)
    (known : contents.functionOffsets[i]? = some offset) : s.address contents = offset := by
  simp [address, defined, isFunction, index, known]

/-- What is no function with a body has no address. -/
lemma address_noFunction (isFunction : s.kind = .function)
    (outside : s.index < contents.importedFunctions ∨
      contents.importedFunctions + contents.functionOffsets.length ≤ s.index) :
    s.address contents = 0 := by
  have unknown : contents.importedFunctions ≤ s.index →
      contents.functionOffsets[s.index - contents.importedFunctions]? = none := by
    intro behind
    apply List.getElem?_eq_none
    omega
  -- An imported function has an index, but none among the functions with a body.
  by_cases behind : contents.importedFunctions ≤ s.index
  · simp [address, isFunction, unknown behind]
  · simp [address, isFunction, behind]

end Symbol

namespace Written

namespace Section

def imports : Section → List Import
  | plain _ (.imports table) _ => table.items
  | _ => []

/-- The starts of the function bodies, counted from the content of the section. -/
def functionOffsets : Section → List Nat
  | plain _ (.code bodies) _ => bodyStarts bodies.count.bytes.length bodies.items
  | _ => []

def isCode : Section → Bool
  | plain _ (.code _) _ => true
  | _ => false

lemma importedFunctions_contents (start : Nat) (s : Section) :
    (s.contents start).importedFunctions = s.imports.countP Import.isFunction := by
  cases s with
  | custom => rfl
  | plain size content => cases content <;> rfl

lemma functionOffsets_contents (start : Nat) (s : Section) :
    (s.contents start).functionOffsets = s.functionOffsets := by
  cases s with
  | custom => rfl
  | plain size content => cases content <;> rfl

lemma functionOffsets_of_not_isCode {s : Section} (h : s.isCode = false) :
    s.functionOffsets = [] := by
  cases s with
  | custom => rfl
  | plain size content =>
    cases content with
    | code => cases h
    | _ => rfl

lemma id_placed_eq (start : Nat) (s : Section) :
    ((s.placed start).id == Container.Section.codeId) = s.isCode := by
  cases s with
  | custom => rfl
  | plain size content =>
    cases content with
    | other id payload unknown =>
      simp only [List.mem_cons, not_or] at unknown
      exact beq_false_of_ne unknown.2.2.1
    | _ => rfl

end Section

/-- The functions that a module imports, and those with a body. -/
lemma functions_contentsAll (sections : List Section) :
    (Contents.concat (contentsAll sections)).importedFunctions =
        (sections.flatMap Section.imports).countP Import.isFunction ∧
      (Contents.concat (contentsAll sections)).functionOffsets =
        sections.flatMap Section.functionOffsets := by
  unfold contentsAll
  generalize 8 = start
  induction sections generalizing start with
  | nil => exact ⟨rfl, rfl⟩
  | cons s rest ih =>
    obtain ⟨imported, offsets⟩ := ih (start + s.bytes.length)
    rw [List.flatMap_cons, List.flatMap_cons, List.countP_append, ← imported, ← offsets,
      ← s.importedFunctions_contents start, ← s.functionOffsets_contents start]
    exact ⟨rfl, rfl⟩

/-- A module with one code section. -/
structure CodeModule where
  before : List Section
  size : Numeral
  bodies : Counted Block
  counts : size.value = (bodies.bytes Block.bytes).length
  after : List Section
  only : ∀ s ∈ before ++ after, s.isCode = false

namespace CodeModule

def code (c : CodeModule) : Section := .plain c.size (.code c.bodies) c.counts

def sections (c : CodeModule) : List Section := c.before ++ c.code :: c.after

/-- The number of imported functions. -/
def imported (c : CodeModule) : Nat := (c.sections.flatMap Section.imports).countP Import.isFunction

/-- What is written in front of a body. -/
def front (c : CodeModule) (i : Nat) : Bytes :=
  write c.before ++ UInt8.ofNat Container.Section.codeId ::
    (c.size.bytes ++ (c.bodies.count.bytes ++ (c.bodies.items.take i).flatMap Block.bytes))

/-- Where the content of the code section begins. -/
def base (c : CodeModule) : Nat := startBehind c.before + 1 + c.size.bytes.length

variable (c : CodeModule)

lemma functionOffsets_sections :
    c.sections.flatMap Section.functionOffsets =
      bodyStarts c.bodies.count.bytes.length c.bodies.items := by
  obtain ⟨before, after⟩ := List.forall_mem_append.1 c.only
  have none : ∀ others : List Section, (∀ s ∈ others, s.isCode = false) →
      others.flatMap Section.functionOffsets = [] := by
    intro others noCode
    apply List.flatMap_eq_nil_iff.2
    intro s mem
    exact Section.functionOffsets_of_not_isCode (noCode s mem)
  rw [sections, List.flatMap_append, List.flatMap_cons, none c.before before, none c.after after]
  exact List.append_nil _

/-- A body is written behind what is in front of it. -/
lemma write_sections {i : Nat} {body : Block} (h : c.bodies.items[i]? = some body) :
    ∃ rest, write c.sections = c.front i ++ (body.bytes ++ rest) := by
  obtain ⟨inside, rfl⟩ := List.getElem?_eq_some_iff.1 h
  have bodies : c.bodies.items.flatMap Block.bytes = (c.bodies.items.take i).flatMap Block.bytes ++
      (c.bodies.items[i].bytes ++ (c.bodies.items.drop (i + 1)).flatMap Block.bytes) := by
    rw [← List.flatMap_cons, ← List.drop_eq_getElem_cons inside, ← List.flatMap_append,
      List.take_append_drop]
  refine ⟨(c.bodies.items.drop (i + 1)).flatMap Block.bytes ++ c.after.flatMap Section.bytes, ?_⟩
  simp [write, sections, code, Section.bytes, Content.bytes, Content.id, Counted.bytes, front,
    bodies]

lemma length_front (i : Nat) :
    (c.front i).length = c.base +
      (c.bodies.count.bytes.length + ((c.bodies.items.take i).flatMap Block.bytes).length) := by
  have start : (write c.before).length = startBehind c.before := List.length_append
  simp only [front, base, List.length_append, List.length_cons, start]
  omega

lemma codeOffset_of_sections {m : Module} (places : m.sections = placedAll c.sections) :
    m.codeOffset = .ok c.base := by
  -- The last code section counts, so none may come behind this one.
  have later : ∀ start, (Reader.layOut Section.bytes Section.placed start c.after).reverse.find?
      (fun s => s.id == Container.Section.codeId) = none := by
    intro start
    apply List.find?_eq_none.2
    intro s mem
    have noCode := (List.forall_mem_append.1 c.only).2
    exact not_of_mem_placed (p := fun s => s.id == Container.Section.codeId) Section.id_placed_eq
      noCode s (List.mem_reverse.1 mem)
  have found : m.sections.reverse.find? (fun s => s.id == Container.Section.codeId) =
      some (c.code.placed (startBehind c.before)) := by
    rw [places, placedAll, sections, Reader.layOut_append, List.reverse_append, Reader.layOut,
      List.reverse_cons, List.append_assoc, List.find?_append, later]
    rfl
  simp only [Module.codeOffset, found]
  rfl

end CodeModule

variable {symbols : List Symbol}

/-- In a module with one code section the functions are the bodies, each at its place in the file,
and a symbol of a function has the offset of the body that its index stands for. -/
theorem functions_of_write (c : CodeModule) (links : Links c.sections symbols) :
    ((∀ s ∈ c.before ++ c.after, s.isRelocation = false) →
      ∃ m, Module.parse (write c.sections) = .ok m) ∧
    ∀ m, Module.parse (write c.sections) = .ok m →
      m.contents.functionOffsets.length = c.bodies.items.length ∧
      (∀ i body, c.bodies.items[i]? = some body → ∃ base offset,
        m.codeOffset = .ok base ∧ m.contents.functionOffsets[i]? = some offset ∧
        (write c.sections).take (base + offset) = c.front i ∧
        body.bytes <+: (write c.sections).drop (base + offset)) ∧
      m.symbols = symbols.map Symbol.symbol ∧
      ∀ s ∈ m.symbols, s.kind = .function → s.isUndefined = false →
        (∀ i offset, s.index = c.imported + i → m.contents.functionOffsets[i]? = some offset →
          s.address m.contents = offset) ∧
        (s.index < c.imported ∨ c.imported + c.bodies.items.length ≤ s.index →
          s.address m.contents = 0) := by
  refine ⟨fun others => parse_write links (noRelocation_insert others rfl), fun m parsed => ?_⟩
  obtain ⟨_, places, contents, table⟩ := of_parse_write links parsed
  have imported : m.contents.importedFunctions = c.imported := by
    rw [contents]
    exact (functions_contentsAll c.sections).1
  have offsets : m.contents.functionOffsets =
      bodyStarts c.bodies.count.bytes.length c.bodies.items := by
    rw [contents, (functions_contentsAll c.sections).2]
    exact c.functionOffsets_sections
  have length : m.contents.functionOffsets.length = c.bodies.items.length := by
    rw [offsets]
    simp [bodyStarts]
  refine ⟨length, ?_, table, ?_⟩
  · intro i body found
    obtain ⟨rest, split⟩ := c.write_sections found
    have start := c.length_front i
    refine ⟨c.base,
      c.bodies.count.bytes.length + ((c.bodies.items.take i).flatMap Block.bytes).length,
      c.codeOffset_of_sections places, ?_, ?_, ?_⟩
    · rw [offsets, getElem?_bodyStarts, found]
      rfl
    · rw [← start, split, List.take_left]
    · rw [← start, split, List.drop_left]
      exact List.prefix_append _ _
  · intro s _ isFunction defined
    rw [← imported, ← length]
    constructor
    · intro i offset index known
      exact Symbol.address_function isFunction defined index known
    · exact Symbol.address_noFunction isFunction

/-- Imports of all kinds under the same names, two of them functions; the number of them is padded.
-/
def mixedImports : Counted Import where
  count := ⟨[0x86, 0x00], 6, rfl⟩
  items :=
    let limits : Limits := ⟨⟨[0x81, 0x00], 1, rfl⟩, .ofNat 1, some (.ofNat 300), rfl⟩
    [.function (.ofNat 200), .table 0x70 limits, .memory limits, .global 0x7F 0x00,
      .tag 0x00 (.ofNat 1), .function ⟨[0x80, 0x80, 0x00], 0, rfl⟩].map
        (Import.mk (.ofBytes [0x65, 0x6E, 0x76]) (.ofBytes []))
  counts := rfl

/-- Two bodies, with their number and the size of the first padded. -/
def paddedBodies : Counted Block where
  count := ⟨[0x82, 0x80, 0x00], 2, rfl⟩
  items := [⟨⟨[0x82, 0x00], 2, rfl⟩, [0x00, 0x0B], rfl⟩, .ofBytes [0x00, 0x01, 0x0B]]
  counts := rfl

/-- Symbols of the second body, of an imported function and of a function that is not there. -/
def functionSymbols : Counted Symbol where
  count := .ofNat 3
  items := [
    ⟨⟨[0x80, 0x00], 0, rfl⟩, .indexed .function (.ofNat 3) (some (.ofBytes [0x66])), rfl⟩,
    ⟨.ofNat 0x50, .indexed .function (.ofNat 0) (some (.ofBytes [0x67])), rfl⟩,
    ⟨.ofNat 0, .indexed .function (.ofNat 4) (some (.ofBytes [0x68])), rfl⟩]
  counts := rfl

def functionLinking : Linking := .ofSubsections [.ofTable functionSymbols]

/-- The imports, the bodies and the symbols in one module. -/
def importsAndBodies : CodeModule where
  before := [.ofContent (.imports mixedImports)]
  size := .ofNat _
  bodies := paddedBodies
  counts := rfl
  after := [.custom (.ofName "linking" functionLinking.bytes)]
  only := by simp [Section.ofContent, Section.isCode]

/-- The symbol of the second body has its offset, which points at its size field. -/
theorem functions_of_write_importsAndBodies :
    ∃ m, Module.parse (write importsAndBodies.sections) = .ok m ∧
      m.contents.functionOffsets.length = 2 ∧
      ∃ s ∈ m.symbols, s.index = 3 ∧ ∃ base offset : Nat, m.codeOffset = .ok base ∧
        s.address m.contents = offset ∧ [0x03, 0x00, 0x01, 0x0B] <+:
          (write importsAndBodies.sections).drop (base + offset) := by
  have split : importsAndBodies.sections = (importsAndBodies.before ++ [importsAndBodies.code]) ++
      .custom (.ofName "linking" functionLinking.bytes) :: [] := rfl
  have first : ∀ s ∈ importsAndBodies.before ++ [importsAndBodies.code],
      s.isNamed "linking" = false := by
    simp [importsAndBodies, CodeModule.code, Section.ofContent, Section.isNamed]
  have links := Links.some functionLinking split first (CustomSection.name_ofName _ _) rfl
  have noRelocation : ∀ s ∈ importsAndBodies.before ++ importsAndBodies.after,
      s.isRelocation = false := by
    have linking := Section.not_isRelocation_of_linking
      (CustomSection.name_ofName "linking" functionLinking.bytes)
    exact List.forall_mem_cons.2 ⟨rfl, List.forall_mem_singleton.2 linking⟩
  have imported : importsAndBodies.imported = 2 := by decide +kernel
  obtain ⟨accepted, known⟩ := functions_of_write importsAndBodies links
  obtain ⟨m, parsed⟩ := accepted noRelocation
  obtain ⟨length, bodies, symbols, addresses⟩ := known m parsed
  obtain ⟨base, offset, atBase, second, _, here⟩ := bodies 1 _ rfl
  have mem : (⟨.function, 0, "f", 3, 0, 0⟩ : Container.Symbol) ∈ m.symbols := by
    rw [symbols]
    decide +kernel
  refine ⟨m, parsed, length, _, mem, rfl, base, offset, atBase, ?_, ?_⟩
  · exact (addresses _ mem rfl rfl).1 1 offset (by rw [imported]) second
  · have size : Leb128.encode 3 = [0x03] := by decide +kernel
    have body : Block.bytes (.ofBytes [0x00, 0x01, 0x0B]) = [0x03, 0x00, 0x01, 0x0B] := by
      simp [Block.ofBytes, Block.bytes, Numeral.ofNat, size]
    rwa [← body]

end Written

end WasmSourceMap.Container
