import WasmSourceMap.Json.Parser
import WasmSourceMap.SourceMap.Artifact
import WasmSourceMap.Text.Split
import WasmSourceMap.Vlq

/-!
# Decoding of mappings

The mappings of a source map are lines of segments. A segment of four numbers or more ties a
position of the generated file to one of a source; a shorter one only moves the values that it has.
Addresses start anew on each line, the other values go on across lines.
-/

namespace WasmSourceMap

/-- A segment with absolute values. -/
structure Mapping (σ : Type) where
  generatedLine : Nat
  address : Int
  source : σ
  line : Int
  column : Int
deriving DecidableEq, Repr

namespace Mapping

/-- Why mappings cannot be decoded or shown. -/
inductive Fault where
  | badNumber (fault : Vlq.Fault)
  | notJson
  | notObject
  | mappingsNotText
  | sourcesNotList
  | sourcesByName
deriving DecidableEq, Repr

/-- The values that segments move: address, source, line and column. -/
structure Cursor where
  address : Int
  source : Int
  line : Int
  column : Int
deriving DecidableEq, Repr

/-- The values before the first segment. -/
def Cursor.start : Cursor := ⟨0, 0, 1, 1⟩

/-- The values moved by the first four numbers of a segment. -/
def Cursor.move (c : Cursor) : List Int → Cursor
  | [] => c
  | [a] => { c with address := c.address + a }
  | [a, s] => { c with address := c.address + a, source := c.source + s }
  | [a, s, l] =>
    { c with address := c.address + a, source := c.source + s, line := c.line + l }
  | a :: s :: l :: k :: _ =>
    ⟨c.address + a, c.source + s, c.line + l, c.column + k⟩

variable {σ : Type}

def numbers (segment : List Char) : Except Fault (List Int) :=
  match Vlq.decodeChars segment with
  | .ok values => .ok values
  | .error fault => .error (.badNumber fault)

/-- The mappings of the segments of a line, and the values after them. Empty segments do not count.
Sources are found by their number. -/
def decodeLine (find : Int → Except Fault σ) (generatedLine : Nat) (c : Cursor) :
    List (List Char) → Except Fault (List (Mapping σ) × Cursor)
  | [] => .ok ([], c)
  | [] :: rest => decodeLine find generatedLine c rest
  | segment :: rest => do
    let values ← numbers segment
    let moved := c.move values
    if values.length < 4 then decodeLine find generatedLine moved rest
    else
      let source ← find moved.source
      let (mappings, last) ← decodeLine find generatedLine moved rest
      return (⟨generatedLine, moved.address, source, moved.line, moved.column⟩ :: mappings, last)

/-- The mappings of the lines from a number on. -/
def decodeLines (find : Int → Except Fault σ) (generatedLine : Nat) (c : Cursor) :
    List (List Char) → Except Fault (List (Mapping σ))
  | [] => .ok []
  | line :: rest => do
    let (mappings, last) ←
      decodeLine find generatedLine { c with address := 0 } (Text.splitOn ',' line)
    return mappings ++ (← decodeLines find (generatedLine + 1) last rest)

/-- The mappings of a text, with sources found by their number. -/
def decodeWith (find : Int → Except Fault σ) (mappings : String) :
    Except Fault (List (Mapping σ)) :=
  decodeLines find 0 .start (Text.splitOn ';' mappings.toList)

/-- The item with a number; a number outside the list has none. -/
def item? {α : Type} (items : List α) : Int → Option α
  | .ofNat id => items[id]?
  | .negSucc _ => none

/-- The mappings of a text with its sources, of which some may be unknown; a number outside the
sources has none. -/
def decode (mappings : String) (sources : List (Option String)) :
    Except Fault (List (Mapping (Option String))) :=
  decodeWith (fun id => .ok (item? sources id).join) mappings

/-- The source with a number in a JSON value. Only a list has items of any kind; a text has its
characters; an object has members and no items. -/
def jsonSource (sources : Json) : Int → Except Fault (Option Json)
  | .negSucc _ => .ok none
  | .ofNat id =>
    match sources with
    | .array items => .ok items[id]?
    | .string s => .ok ((s.toList[id]?).map fun c => .string (String.ofList [c]))
    | .wide s => .ok ((s.points[id]?).map fun p => .ofWide ⟨[p]⟩)
    | .object members => if id < members.length then .error .sourcesByName else .ok none
    | _ => .error .sourcesNotList

/-- A mapping as a line. -/
def text (m : Mapping (Option Json)) : WideString :=
  "0x" ++ Text.Hexadecimal.ofInt m.address ++ " => " ++ (m.source.getD .null).shown ++
    s!" {m.line}:{m.column}"

/-- The mappings of a JSON value. A surrogate is no digit, and neither is its replacement. -/
def mappingsText? : Json → Option String
  | .string mappings => some mappings
  | .wide mappings => some mappings.shown
  | _ => none

/-- The mappings of a source map as lines. Missing mappings are empty, and so are missing sources.
-/
def format (map : Json) : Except Fault (List WideString) :=
  match map with
  | .object members =>
    match mappingsText? ((Json.find? members "mappings").getD (.string "")) with
    | some mappings => do
      let sources := (Json.find? members "sources").getD (.array [])
      return (← decodeWith (jsonSource sources) mappings).map text
    | none => .error .mappingsNotText
  | _ => .error .notObject

def formatText (map : String) : Except Fault (List WideString) :=
  match Json.parse? map with
  | some value => format value
  | none => .error .notJson

end Mapping

end WasmSourceMap
