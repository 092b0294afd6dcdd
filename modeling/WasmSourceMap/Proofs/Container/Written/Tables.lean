import WasmSourceMap.Proofs.Container.Written.Functions

/-!
# Data segments and the symbol table

Which fields a segment or a symbol has depends on its flags and its kind, so one field that is read
wrongly would shift everything behind it. In a module whose linking section has one symbol table
(`LinkedModule`) neither happens: the segments and the symbols are those that were written, in their
order, and each symbol has the address of what it names (`tables_of_write`).
-/

namespace WasmSourceMap.Container

namespace Contents

lemma segments_concat (parts : List Contents) :
    (concat parts).segments = parts.flatMap Contents.segments := by
  induction parts with
  | nil => rfl
  | cons c rest ih => exact congrArg (c.segments ++ ·) ih

end Contents

/-- The address of what a symbol names: a place in a data segment or a function body. Whatever else
it names, and if it is not defined, it has the address zero. -/
inductive Symbol.LiesAt (contents : Contents) (s : Symbol) : Int → Prop where
  | undefined (undefined : s.isUndefined = true) : LiesAt contents s 0
  | data {segment : Segment} (defined : s.isUndefined = false) (isData : s.kind = .data)
      (found : contents.segments[s.index]? = some segment) :
      LiesAt contents s (segment.offset + s.offset)
  | function {i offset : Nat} (defined : s.isUndefined = false) (isFunction : s.kind = .function)
      (index : s.index = contents.importedFunctions + i)
      (found : contents.functionOffsets[i]? = some offset) : LiesAt contents s offset
  | nowhere (defined : s.isUndefined = false)
      (noData : s.kind = .data → contents.segments.length ≤ s.index)
      (noFunction : s.kind = .function → s.index < contents.importedFunctions ∨
        contents.importedFunctions + contents.functionOffsets.length ≤ s.index) :
      LiesAt contents s 0

/-- A symbol lies at its address only. -/
lemma Symbol.LiesAt.address_eq {contents : Contents} {s : Symbol} {a : Int}
    (h : s.LiesAt contents a) : s.address contents = a := by
  cases h with
  | undefined undefined => simp [address, undefined]
  | data defined isData found => simp [address, defined, isData, found]
  | function defined isFunction index found => exact address_function isFunction defined index found
  | nowhere defined noData noFunction =>
    cases kind : s.kind with
    | data =>
      have none : contents.segments[s.index]? = none := List.getElem?_eq_none (noData kind)
      simp [address, defined, kind, none]
    | function => exact address_noFunction kind (noFunction kind)
    | _ => simp [address, defined, kind]

/-- Every symbol lies at its address. -/
lemma Symbol.liesAt_address (contents : Contents) (s : Symbol) :
    s.LiesAt contents (s.address contents) := by
  -- Each of the four ways excludes the others, so it is enough that there is one.
  have exists_liesAt : ∃ a, s.LiesAt contents a := by
    cases defined : s.isUndefined with
    | true => exact ⟨0, .undefined defined⟩
    | false =>
      by_cases noData : s.kind = .data → contents.segments.length ≤ s.index
      · by_cases noFunction : s.kind = .function → s.index < contents.importedFunctions ∨
          contents.importedFunctions + contents.functionOffsets.length ≤ s.index
        · exact ⟨0, .nowhere defined noData noFunction⟩
        · obtain ⟨isFunction, inside⟩ := Classical.not_imp.1 noFunction
          obtain ⟨i, index⟩ := Nat.exists_eq_add_of_le (Nat.le_of_not_lt fun h => inside (.inl h))
          have found : contents.functionOffsets[i]? = some contents.functionOffsets[i] :=
            List.getElem?_eq_getElem (by omega)
          exact ⟨_, .function defined isFunction index found⟩
      · obtain ⟨isData, inside⟩ := Classical.not_imp.1 noData
        have found : contents.segments[s.index]? = some contents.segments[s.index] :=
          List.getElem?_eq_getElem (Nat.lt_of_not_le inside)
        exact ⟨_, .data defined isData found⟩
  obtain ⟨a, lies⟩ := exists_liesAt
  rwa [lies.address_eq]

namespace Written

namespace Segment

/-- A segment of a module shows a written one: where it is placed and which bytes it has. -/
structure ShownBy (data : Bytes) (w : Segment) (s : Container.Segment) : Prop where
  memoryIndex : s.memoryIndex = w.placement.memoryIndex
  offset : s.offset = w.placement.offset
  size : s.size = w.block.content.length
  content : (data.drop s.dataOffset).take s.size = w.block.content

lemma shownBy_placed (w : Segment) {data rest : Bytes} {start : Nat}
    (here : data.drop start = w.bytes ++ rest) : w.ShownBy data (w.placed start) := by
  have split : data.drop start = w.flags.bytes ++
      (w.placement.bytes ++ (w.block.size.bytes ++ (w.block.content ++ rest))) := by
    rw [here]
    simp only [bytes, Block.bytes, List.append_assoc]
  have atContent := Reader.drop_add (Reader.drop_add (Reader.drop_add split))
  refine ⟨rfl, rfl, rfl, ?_⟩
  show (data.drop (start + _ + _ + _)).take w.block.content.length = w.block.content
  rw [atContent, List.take_left]

end Segment

namespace Section

def segments : Section → List Segment
  | plain _ (.data segments) _ => segments.items
  | _ => []

/-- The segments of a section are where they are written. -/
lemma segments_shown (s : Section) {data rest : Bytes} {start : Nat} (inside : start ≤ data.length)
    (here : data.drop start = s.bytes ++ rest) :
    List.Forall₂ (Segment.ShownBy data) s.segments (s.contents start).segments := by
  cases s with
  | custom => exact .nil
  | plain size content counts =>
    cases content with
    | data segments =>
      obtain ⟨insideContent, atContent⟩ := drop_content inside here
      have split : data.drop (start + 1 + size.bytes.length) =
          segments.count.bytes ++ (segments.items.flatMap Segment.bytes ++ rest) := by
        rw [atContent]
        exact List.append_assoc _ _ _
      have insideItems := Reader.add_le_of_drop insideContent split
      apply Reader.forall₂_layOut insideItems (Reader.drop_add split)
      intro position w _ rest _ here
      exact w.shownBy_placed here
    | _ => exact .nil

end Section

/-- The segments of a module are those of its sections. -/
lemma segments_contentsAll (sections : List Section) :
    List.Forall₂ (Segment.ShownBy (write sections)) (sections.flatMap Section.segments)
      (Contents.concat (contentsAll sections)).segments := by
  rw [Contents.segments_concat]
  obtain ⟨inside, here⟩ := drop_preamble sections
  have shown : List.Forall₂
      (fun s c => List.Forall₂ (Segment.ShownBy (write sections)) s.segments c.segments)
      sections (contentsAll sections) := by
    apply Reader.forall₂_layOut inside here
    intro position s _ rest inside here
    exact s.segments_shown inside here
  exact List.rel_flatMap shown fun _ _ related => related

/-- A module whose linking section has one symbol table. -/
structure LinkedModule where
  before : List Section
  linking : CustomSection
  after : List Section
  content : Linking
  table : List Symbol
  single : content.subsections.filterMap Subsection.table? = [table]
  named : linking.name = "linking"
  first : ∀ s ∈ before, s.isNamed "linking" = false
  holds : linking.payload = content.bytes

namespace LinkedModule

def sections (l : LinkedModule) : List Section := l.before ++ .custom l.linking :: l.after

lemma links (l : LinkedModule) : Links l.sections l.table := by
  have symbols : l.content.symbols = l.table := by
    rw [Linking.symbols, l.single]
    rfl
  rw [← symbols]
  exact .some l.content rfl l.first l.named l.holds

end LinkedModule

/-- The segments and the symbols of a module are those that were written, and each symbol has the
address of what it names. -/
theorem tables_of_write (l : LinkedModule) :
    ((∀ s ∈ l.before ++ l.after, s.isRelocation = false) →
      ∃ m, Module.parse (write l.sections) = .ok m) ∧
    ∀ m, Module.parse (write l.sections) = .ok m →
      List.Forall₂ (Segment.ShownBy (write l.sections)) (l.sections.flatMap Section.segments)
        m.contents.segments ∧
      m.symbols = l.table.map Symbol.symbol ∧
      m.contents.importedFunctions = (l.sections.flatMap Section.imports).countP Import.isFunction ∧
      m.contents.functionOffsets = l.sections.flatMap Section.functionOffsets ∧
      ∀ s ∈ m.symbols, s.LiesAt m.contents (s.address m.contents) := by
  have own := Section.not_isRelocation_of_linking l.named
  refine ⟨fun others => parse_write l.links (noRelocation_insert others own), fun m parsed => ?_⟩
  obtain ⟨_, _, contents, symbols⟩ := of_parse_write l.links parsed
  obtain ⟨imported, offsets⟩ := functions_contentsAll l.sections
  rw [contents]
  refine ⟨segments_contentsAll l.sections, symbols, imported, offsets, fun s _ => ?_⟩
  exact s.liesAt_address _

/-- Segments of all kinds: at minus five, at two hundred in the third memory, nowhere, and at a
global that is not known. -/
def everySegment : Counted Segment where
  count := ⟨[0x84, 0x00], 4, rfl⟩
  items := [
    ⟨.ofNat 0, .active (.i32 (.ofInt (-5))), .ofBytes [0x01, 0x02, 0x03], rfl⟩,
    ⟨⟨[0x82, 0x80, 0x80, 0x00], 2, rfl⟩, .inMemory (.ofNat 2) (.i64 ⟨[0xC8, 0x81, 0x00], 200, rfl⟩),
      .ofBytes [], rfl⟩,
    ⟨.ofNat 1, .passive, .ofBytes [0x04], rfl⟩,
    ⟨.ofNat 0, .active (.globalGet (.ofNat 128)), .ofBytes [0x05, 0x06], rfl⟩]
  counts := rfl

/-- Symbols of all kinds, defined and not, with names and without. -/
def everySymbol : Counted Symbol where
  count := .ofNat 8
  items := [
    ⟨.ofNat 0, .data (.ofBytes [0x64]) (some ⟨.ofNat 0, .ofNat 2, .ofNat 1⟩), rfl⟩,
    ⟨.ofNat 0x10, .data (.ofBytes [0x65]) none, rfl⟩,
    ⟨.ofNat 0x12, .indexed .function (.ofNat 5) none, rfl⟩,
    ⟨.ofNat 0x50, .indexed .function (.ofNat 0) (some (.ofBytes [0x69, 0x6A])), rfl⟩,
    ⟨.ofNat 0x80, .indexed .global (.ofNat 300) (some (.ofBytes [0xFF])), rfl⟩,
    ⟨.ofNat 0, .ofSection (.ofNat 3), trivial⟩,
    ⟨.ofNat 0x10, .indexed .tag (.ofNat 1) none, rfl⟩,
    ⟨.ofNat 0, .indexed .table (.ofNat 0) (some (.ofBytes [])), rfl⟩]
  counts := rfl

/-- The symbols between other subsections, one of which looks like a symbol table. -/
def everyLinking : Linking := .ofSubsections [.other 5 (.ofBytes [0x08, 0x00, 0xFF]) (by decide),
  .ofTable everySymbol, .other 6 (.ofBytes []) (by decide)]

/-- The symbols and behind them the segments. -/
def everyKind : LinkedModule where
  before := []
  linking := .ofName "linking" everyLinking.bytes
  after := [.ofContent (.data everySegment)]
  content := everyLinking
  table := everySymbol.items
  single := rfl
  named := CustomSection.name_ofName _ _
  first := nofun
  holds := rfl

/-- The first symbol lies two bytes behind the start of the first segment. -/
theorem tables_of_write_everyKind :
    ∃ m, Module.parse (write everyKind.sections) = .ok m ∧ m.contents.segments.length = 4 ∧
      ∃ s ∈ m.symbols, s.kind = .data ∧ s.address m.contents = -3 := by
  have noRelocation : ∀ s ∈ everyKind.before ++ everyKind.after, s.isRelocation = false := by
    simp [everyKind, Section.ofContent, Section.isRelocation]
  obtain ⟨accepted, known⟩ := tables_of_write everyKind
  obtain ⟨m, parsed⟩ := accepted noRelocation
  obtain ⟨segments, symbols, _⟩ := known m parsed
  have mem : (⟨.data, 0, "d", 0, 2, 1⟩ : Container.Symbol) ∈ m.symbols := by
    rw [symbols]
    decide +kernel
  obtain ⟨first, others, shown, _, split⟩ := List.forall₂_cons_left_iff.1 segments
  have found : m.contents.segments[0]? = some first := by
    rw [split]
    rfl
  have offset : first.offset = -5 := shown.offset.trans (Numeral.signed_ofInt _)
  have lies : Symbol.LiesAt m.contents ⟨.data, 0, "d", 0, 2, 1⟩ (first.offset + 2) :=
    .data rfl rfl found
  rw [offset] at lies
  exact ⟨m, parsed, segments.length_eq.symm, _, mem, rfl, lies.address_eq⟩

end Written

end WasmSourceMap.Container
