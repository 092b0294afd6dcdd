import WasmSourceMap.Proofs.Json.RoundTrip
import WasmSourceMap.SourceMap.Mapping

/-!
# The text of a source map

The compact form of a value is put together from the forms of its parts (`compactItems_eq`,
`compactMembers_eq`), and the printer escapes a character as the rule for strings says
(`escapeChar_eq`). So the text of a source map is its members one after the other, each string as
the rule writes it (`SourceMap.written`). It is read back as the object of the source map
(`parse?_toText`), so that the mappings of the text are those of the object.
-/

namespace WasmSourceMap

namespace Text

lemma joinWith_eq_intercalate (sep : Char) (pieces : List (List Char)) :
    joinWith sep pieces = [sep].intercalate pieces := by
  induction pieces with
  | nil => rfl
  | cons piece rest ih =>
    cases rest with
    | nil => exact (List.append_nil piece).symm
    | cons next more =>
      rw [joinWith, ih]
      rfl

end Text

namespace Json

lemma isReserved_iff (c : Char) : isReserved c = true ↔ c = '"' ∨ c = '\\' ∨ c.toNat < 0x20 := by
  have control : c ≤ '\x1f' ↔ c.toNat < 0x20 := Nat.lt_succ_iff.symm
  simp only [isReserved, Bool.or_eq_true, beq_iff_eq, decide_eq_true_eq, control, or_assoc]

/-- The printer escapes a character as the rule for strings says. -/
lemma escapeChar_eq (c : Char) :
    escapeChar c = if isReserved c then escapeReserved c else [c] := by
  unfold escapeChar letterEscape?
  split
  case h_8 quote backslash _ _ _ _ _ =>
    -- No letter stands for the character, so it is a control character or no reserved one.
    have noLetter : shortEscapes.lookup c = none := by
      rw [List.lookup_eq_none_iff]
      simp_all [shortEscapes]
    have reserved : isReserved c = true ↔ c.toNat < 0x20 := by
      rw [isReserved_iff]
      exact ⟨fun h => (h.resolve_left quote).resolve_left backslash, fun h => .inr (.inr h)⟩
    rw [Option.getD_none, escapeReserved, noLetter]
    exact if_congr reserved.symm rfl rfl
  all_goals rfl

/-- A string as it is written: its escaped characters between quotes. -/
def quote (s : String) : String := "\"" ++ escape s ++ "\""

/-- A list as it is written: its items between brackets, with commas between them. -/
def bracket (items : List String) : String := "[" ++ ",".intercalate items ++ "]"

/-- An object as it is written: names and values between braces, with commas between them. -/
def brace (members : List (String × String)) : String :=
  "\x7b" ++ ",".intercalate (members.map fun m => quote m.1 ++ ":" ++ m.2) ++ "\x7d"

lemma toList_quote (s : String) : (quote s).toList = quoted escapeChar s := by
  have same : escapeChar = fun c => if isReserved c then escapeReserved c else [c] :=
    funext escapeChar_eq
  unfold quote escape quoted
  simp only [String.toList_append, String.toList_ofList, same]
  rfl

lemma compactItems_eq (items : List Json) :
    compactItems items = Text.joinWith ',' (items.map compactChars) := by
  induction items with
  | nil => rfl
  | cons item rest ih =>
    cases rest with
    | nil => rfl
    | cons next more =>
      rw [compactItems, ih]
      rfl

lemma compactMembers_eq (members : List (String × Json)) :
    compactMembers members =
      Text.joinWith ',' (members.map fun m => quoted escapeChar m.1 ++ ':' :: compactChars m.2) := by
  induction members with
  | nil => rfl
  | cons m rest ih =>
    cases rest with
    | nil => rfl
    | cons next more =>
      rw [compactMembers, ih, List.append_assoc]
      exact (List.append_assoc (quoted escapeChar m.1) (':' :: compactChars m.2) _).symm

lemma compact_string (s : String) : compact (.string s) = quote s := by
  rw [← String.toList_inj, toList_quote, compact, String.toList_ofList, compactChars]

lemma compact_integer (n : Int) : compact (.integer n) = toString n :=
  String.ofList_toList

lemma compact_array (items : List Json) : compact (.array items) = bracket (items.map compact) := by
  have each : (items.map compact).map String.toList = items.map compactChars := by
    rw [List.map_map]
    exact List.map_congr_left fun v _ => String.toList_ofList
  unfold bracket
  rw [← String.toList_inj, String.toList_append, String.toList_append, String.toList_intercalate,
    each, compact, String.toList_ofList, compactChars, compactItems_eq,
    Text.joinWith_eq_intercalate]
  rfl

lemma compact_object (members : List (String × Json)) :
    compact (.object members) = brace (members.map fun m => (m.1, compact m.2)) := by
  have each : ((members.map fun m => (m.1, compact m.2)).map
      fun m => quote m.1 ++ ":" ++ m.2).map String.toList =
        members.map fun m => quoted escapeChar m.1 ++ ':' :: compactChars m.2 := by
    rw [List.map_map, List.map_map]
    refine List.map_congr_left fun m _ => ?_
    show (quote m.1 ++ ":" ++ compact m.2).toList = _
    simp only [String.toList_append, toList_quote, compact, String.toList_ofList, List.append_assoc]
    rfl
  unfold brace
  rw [← String.toList_inj, String.toList_append, String.toList_append, String.toList_intercalate,
    each, compact, String.toList_ofList, compactChars, compactMembers_eq,
    Text.joinWith_eq_intercalate]
  rfl

lemma wellFormedItems_map {α : Type} {f : α → Json} (items : List α)
    (h : ∀ x, (f x).WellFormed) : WellFormedItems (items.map f) := by
  induction items with
  | nil => trivial
  | cons x rest ih => exact ⟨h x, ih⟩

end Json

namespace SourceMap

open Json (WellFormed WellFormedMembers wellFormedItems_map quote bracket brace)

lemma optionalText_wellFormed (text : Option String) : (optionalText text).WellFormed := by
  cases text <;> trivial

lemma names_nodup (m : SourceMap) : (m.members.map Prod.fst).Nodup := by
  unfold members
  cases m.file <;> cases m.sourcesContent <;> simp

/-- The object of a source map is well formed, whatever is left out of it. -/
lemma toJson_wellFormed (m : SourceMap) : m.toJson.WellFormed := by
  refine ⟨m.names_nodup, ?_⟩
  have strings : ∀ texts : List String, (Json.array (texts.map .string)).WellFormed :=
    fun texts => wellFormedItems_map texts fun _ => trivial
  have contents : ∀ texts : List (Option String),
      (Json.array (texts.map optionalText)).WellFormed :=
    fun texts => wellFormedItems_map texts optionalText_wellFormed
  unfold members
  cases m.file <;> cases m.sourcesContent
  · exact ⟨trivial, trivial, strings _, strings _, trivial, trivial⟩
  · exact ⟨trivial, trivial, strings _, strings _, contents _, trivial, trivial⟩
  · exact ⟨trivial, trivial, trivial, strings _, strings _, trivial, trivial⟩
  · exact ⟨trivial, trivial, trivial, strings _, strings _, contents _, trivial, trivial⟩

/-- The text of a source map is read back as its object. -/
theorem parse?_toText (m : SourceMap) : Json.parse? m.toText = some (.object m.members) :=
  Json.parse?_compact m.toJson_wellFormed

lemma find?_mappings (m : SourceMap) :
    Json.find? m.members "mappings" = some (.string m.mappings) := by
  unfold members
  cases m.file <;> cases m.sourcesContent <;> rfl

lemma find?_sources (m : SourceMap) :
    Json.find? m.members "sources" = some (.array (m.sources.map .string)) := by
  unfold members
  cases m.file <;> cases m.sourcesContent <;> rfl

/-- A text that may be missing as it is written. -/
def quoteOptional : Option String → String
  | some text => quote text
  | none => "null"

/-- The text of a source map member by member. There is no blank in it but those of its strings. -/
def written (m : SourceMap) : String :=
  brace
    ([("version", toString m.version)] ++
      (m.file.map fun file => ("file", quote file)).toList ++
      [("sourceRoot", quote m.sourceRoot), ("names", bracket (m.names.map quote)),
        ("sources", bracket (m.sources.map quote))] ++
      (m.sourcesContent.map fun contents =>
        ("sourcesContent", bracket (contents.map quoteOptional))).toList ++
      [("mappings", quote m.mappings)])

lemma compact_strings (texts : List String) :
    Json.compact (.array (texts.map .string)) = bracket (texts.map quote) := by
  rw [Json.compact_array, List.map_map]
  exact congrArg bracket (List.map_congr_left fun text _ => Json.compact_string text)

lemma compact_optionalTexts (texts : List (Option String)) :
    Json.compact (.array (texts.map optionalText)) = bracket (texts.map quoteOptional) := by
  rw [Json.compact_array, List.map_map]
  refine congrArg bracket (List.map_congr_left fun text _ => ?_)
  cases text with
  | none => rfl
  | some text => exact Json.compact_string text

/-- The text of a source map is its members in their order, without blanks, where the rule for
strings writes every string. It is read back as the object of the source map, so its mappings are
shown as those of the object, or cannot be shown for the same reason. -/
theorem toText_eq_written (m : SourceMap) :
    m.toText = m.written ∧ Json.parse? m.toText = some m.toJson ∧
      Mapping.formatText m.toText = Mapping.format m.toJson := by
  refine ⟨?_, m.parse?_toText, ?_⟩
  · unfold toText toJson written members
    rw [Json.compact_object]
    cases m.file <;> cases m.sourcesContent <;>
      simp only [Option.map_none, Option.map_some, Option.toList_none, Option.toList_some,
        List.append_nil, List.cons_append, List.nil_append, List.map_cons, List.map_nil,
        Json.compact_integer, Json.compact_string, compact_strings, compact_optionalTexts]
  · unfold Mapping.formatText
    rw [m.parse?_toText]
    rfl

/-- A source without content, and a path with a quote and a line end in it. -/
example :
    (SourceMap.mk ["a\n\".c", "é"] "AAAA" (some "m.wasm") (some [none, some "\x01"]) 3 "" []).toText =
      "\x7b\"version\":3,\"file\":\"m.wasm\",\"sourceRoot\":\"\",\"names\":[]," ++
        "\"sources\":[\"a\\n\\\".c\",\"é\"],\"sourcesContent\":[null,\"\\u0001\"]," ++
        "\"mappings\":\"AAAA\"\x7d" := by
  decide +kernel

end SourceMap

end WasmSourceMap
