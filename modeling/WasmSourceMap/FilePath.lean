import WasmSourceMap.Text.Split
import WasmSourceMap.Text.Wide

/-!
# File paths

The path of a file on the machine. Repeated slashes, single dots and a slash at the end do not
count; double dots do, since what they mean depends on the files. Two slashes at the start are kept
apart from one.
-/

namespace WasmSourceMap

/-- A path: the number of slashes at its start, at most two, and its components. -/
structure FilePath where
  slashes : Nat
  components : List WideString
deriving DecidableEq, Repr

namespace FilePath

/-- What separates components. -/
def slash : CodePoint := .char '/'

/-- A piece between slashes that counts. -/
def counts (piece : List CodePoint) : Bool := piece != [] && piece != [.char '.']

/-- The pieces between slashes that count. -/
def pieces (points : List CodePoint) : List WideString :=
  ((Text.splitOn slash points).filter counts).map .mk

def ofString (text : WideString) : FilePath :=
  let leading := (text.points.takeWhile (· == slash)).length
  { slashes := if leading ≤ 2 then leading else 1, components := pieces text.points }

/-- The text of a path; the empty path is a lone dot. -/
def toString (p : FilePath) : WideString :=
  if p.slashes = 0 ∧ p.components = [] then "."
  else ⟨List.replicate p.slashes slash ++ Text.joinWith slash (p.components.map WideString.points)⟩

/-- The last component, empty if there is none. -/
def name (p : FilePath) : WideString := p.components.getLast?.getD ""

/-- The path of what has a name in a directory. -/
def child (p : FilePath) (name : WideString) : FilePath :=
  { p with components := p.components ++ [name] }

/-- A text that can be the name of a file: one piece that counts, no slash at either end. -/
def isName (text : WideString) : Bool :=
  (pieces text.points).length == 1 && text.points.head? != some slash &&
    text.points.getLast? != some slash

/-- The path with another name; a path without a name gets none. -/
def withName? (p : FilePath) (text : WideString) : Option FilePath :=
  if p.components = [] ∨ ¬isName text then none
  else some { p with components := p.components.dropLast ++ [text] }

end FilePath

end WasmSourceMap
