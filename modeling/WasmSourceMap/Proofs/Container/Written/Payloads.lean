import WasmSourceMap.Proofs.Container.Written.Modules

/-!
# Payloads in sections

A module can be made of any payloads, each under an id of which the content is not read, or under a
name in a custom section that is neither the linking section nor one of relocations. Lengths and
names are written in their shortest form. Whatever the payloads are, the bytes are a module
(`parse_payloads`), and its sections are the payloads in their order: each is known by its id and
its name, its payload is what was written, and asking for a name finds the first payload under it.
-/

namespace WasmSourceMap.Container.Written

/-- A payload under an id or under a name. -/
inductive Payload where
  | under (id : UInt8) (bytes : Bytes)
    (unknown : id.toNat ∉ [Section.customId, Section.importId, Section.codeId, Section.dataId])
  | named (name : String) (bytes : Bytes) (notLinking : name ≠ "linking")
    (notRelocation : ¬relocationMark.toList <+: name.toList)

namespace Payload

def id : Payload → UInt8
  | under id _ _ => id
  | named .. => UInt8.ofNat Section.customId

def name : Payload → String
  | under .. => ""
  | named name .. => name

/-- The payload itself. -/
def payload : Payload → Bytes
  | under _ bytes _ => bytes
  | named _ bytes _ _ => bytes

/-- What is written behind the length: the payload, behind its name if it has one. -/
def content : Payload → Bytes
  | under _ bytes _ => bytes
  | named name bytes _ _ =>
    Leb128.encode (Text.Utf8.encode name).length ++ (Text.Utf8.encode name ++ bytes)

/-- The section: its id, the length of its content and its content. -/
def bytes (p : Payload) : Bytes := p.id :: (Leb128.encode p.content.length ++ p.content)

def isNamed (name : String) : Payload → Bool
  | under .. => false
  | named own .. => own == name

/-- The payload as a section of a module. -/
def toSection : Payload → Section
  | under id bytes unknown => .ofContent (.other id bytes unknown)
  | named name bytes _ _ => .custom (.ofName name bytes)

lemma bytes_toSection (p : Payload) : p.toSection.bytes = p.bytes := by cases p <;> rfl

lemma payload_toSection (p : Payload) : p.toSection.payload = p.payload := by cases p <;> rfl

lemma id_placed (p : Payload) (start : Nat) : (p.toSection.placed start).id = p.id.toNat := by
  cases p <;> rfl

lemma name_placed (p : Payload) (start : Nat) : (p.toSection.placed start).name = p.name := by
  cases p with
  | under => rfl
  | named name bytes => exact CustomSection.name_ofName name bytes

lemma isNamed_toSection (name : String) (p : Payload) :
    p.toSection.isNamed name = p.isNamed name := by
  cases p with
  | under => rfl
  | named own bytes => exact congrArg (· == name) (CustomSection.name_ofName own bytes)

lemma not_linking (p : Payload) : p.toSection.isNamed "linking" = false := by
  rw [isNamed_toSection]
  cases p with
  | under => rfl
  | named name bytes notLinking => exact beq_false_of_ne notLinking

lemma not_relocation (p : Payload) : p.toSection.isRelocation = false := by
  cases p with
  | under => rfl
  | named name bytes notLinking notRelocation =>
    show relocationMark.toList.isPrefixOf (CustomSection.ofName name bytes).name.toList = false
    rw [CustomSection.name_ofName, Bool.eq_false_iff]
    exact fun same => notRelocation (List.isPrefixOf_iff_prefix.1 same)

/-- A section of a module shows a payload: its id, its name and the payload it was written with. -/
structure ShownBy (m : Module) (p : Payload) (s : Container.Section) : Prop where
  id : s.id = p.id.toNat
  name : s.name = p.name
  payload : m.payload s = p.payload

/-- A section that shows a payload is found under the name of the payload. -/
lemma ShownBy.isNamed_eq {m : Module} {p : Payload} {s : Container.Section} (h : p.ShownBy m s)
    (name : String) : s.isNamed name = p.isNamed name := by
  unfold Container.Section.isNamed
  rw [h.id, h.name]
  cases p with
  | under id bytes unknown =>
    have other : id.toNat ≠ Section.customId := fun same => unknown (List.mem_cons.2 (.inl same))
    exact Bool.and_eq_false_iff.2 (.inl (beq_false_of_ne other))
  | named => rfl

end Payload

/-- The module that holds the payloads. -/
def writePayloads (payloads : List Payload) : Bytes := preamble ++ payloads.flatMap Payload.bytes

lemma write_toSection (payloads : List Payload) :
    write (payloads.map Payload.toSection) = writePayloads payloads := by
  unfold write writePayloads
  rw [List.flatMap_map]
  congr 2
  funext p
  exact p.bytes_toSection

/-- The first item that is found on one side of a relation is found on the other side. -/
lemma find?_of_forall₂ {α β : Type} {R : α → β → Prop} {p : α → Bool} {q : β → Bool} {as : List α}
    {bs : List β} (related : List.Forall₂ R as bs) (same : ∀ a b, R a b → q b = p a) :
    bs.find? q = (as.findIdx? p).bind fun i => bs[i]? := by
  induction related with
  | nil => rfl
  | @cons a b as bs first _ ih =>
    rw [List.find?_cons, List.findIdx?_cons, same a b first, ih]
    cases p a with
    | true => rfl
    | false =>
      rw [if_neg Bool.false_ne_true, Option.bind_map]
      rfl

/-- Any payloads in sections are a module that holds them in their order, and each can be read from
a stream over the module wherever the stream stands. -/
theorem parse_payloads (payloads : List Payload) :
    ∃ m, Module.parse (writePayloads payloads) = .ok m ∧
      List.Forall₂ (Payload.ShownBy m) payloads m.sections ∧
      (∀ s ∈ m.sections, ∀ stream : ByteStream, stream.data = m.data → stream.closed = false →
        (s.readPayload stream).1 = .ok (m.payload s)) ∧
      ∀ name, m.sectionNamed name =
        (payloads.findIdx? (Payload.isNamed name)).bind fun i => m.sections[i]? := by
  have links : Links (payloads.map Payload.toSection) [] := by
    refine .none fun s mem => ?_
    obtain ⟨p, _, rfl⟩ := List.mem_map.1 mem
    exact p.not_linking
  have noRelocation : ∀ s ∈ payloads.map Payload.toSection, s.isRelocation = false := by
    intro s mem
    obtain ⟨p, _, rfl⟩ := List.mem_map.1 mem
    exact p.not_relocation
  obtain ⟨m, parsed⟩ := parse_write links noRelocation
  obtain ⟨onData, places, _, _⟩ := of_parse_write links parsed
  have shown : List.Forall₂ (Payload.ShownBy m) payloads m.sections := by
    obtain ⟨inside, here⟩ := drop_preamble (payloads.map Payload.toSection)
    rw [← onData, List.flatMap_map] at here
    rw [← onData] at inside
    rw [places, placedAll, Reader.layOut_map]
    refine Reader.forall₂_layOut inside here fun position p _ rest inside here => ?_
    refine ⟨p.id_placed position, p.name_placed position, ?_⟩
    exact (p.toSection.take_drop_placed inside here).trans p.payload_toSection
  rw [← write_toSection]
  refine ⟨m, parsed, shown, ?_, fun name => ?_⟩
  · intro s mem stream same isOpen
    have ends : s.stop ≤ stream.data.length := by
      rw [same, onData]
      exact Module.stop_le_of_parse parsed mem
    rw [Section.readPayload_ok (Module.ordered_of_parse parsed s mem) ends isOpen, same]
    rfl
  · exact find?_of_forall₂ shown fun p s h => h.isNamed_eq name

end WasmSourceMap.Container.Written
