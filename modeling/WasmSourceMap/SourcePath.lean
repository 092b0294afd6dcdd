import WasmSourceMap.Text.Split

/-!
# Source paths

The path of a source file as debug information gives it: a name, the directory it is listed with and
the directory of the compilation. Both kinds of slash separate components. A path is absolute if it
starts with a slash or with a drive. Normal form has forward slashes only, no empty component, no
single dot, and double dots at most at the start of a relative path.
-/

namespace WasmSourceMap.SourcePath

/-- Backslashes as forward slashes. -/
def withSlashes (cs : List Char) : List Char := cs.map fun c => if c = '\\' then '/' else c

/-- A letter of ASCII. -/
def isLetter (c : Char) : Bool := ('A' ≤ c && c ≤ 'Z') || ('a' ≤ c && c ≤ 'z')

/-- A path with forward slashes starts with a slash. -/
def isRooted : List Char → Bool
  | '/' :: _ => true
  | _ => false

/-- A path with forward slashes starts with a letter, a colon and a slash. -/
def hasDrive : List Char → Bool
  | c :: ':' :: '/' :: _ => isLetter c
  | _ => false

/-- Whether a path is absolute. -/
def isAbsoluteChars (cs : List Char) : Bool :=
  isRooted (withSlashes cs) || hasDrive (withSlashes cs)

/-- The component that goes to the parent. -/
def parent : List Char := ['.', '.']

/-- Add a component to those before it, which are in reverse order. A parent component takes back
the one before it; it stays where there is none to take back, and is dropped at the root. -/
def push (rooted : Bool) (before : List (List Char)) (component : List Char) : List (List Char) :=
  if component = [] ∨ component = ['.'] then before
  else if component ≠ parent then component :: before
  else
    match before with
    | [] => if rooted then [] else [parent]
    | last :: rest => if last = parent then parent :: before else rest

/-- The components of a path in normal form. -/
def components (rooted : Bool) (cs : List Char) : List (List Char) :=
  ((Text.splitOn '/' cs).foldl (push rooted) []).reverse

/-- The path of components: a lone dot if there are none. -/
def ofComponents (rooted : Bool) (parts : List (List Char)) : List Char :=
  if rooted then '/' :: Text.joinWith '/' parts
  else if parts = [] then ['.']
  else Text.joinWith '/' parts

/-- The normal form of a path; the empty path stays empty. -/
def normalizeChars (cs : List Char) : List Char :=
  if cs = [] then []
  else
    let path := withSlashes cs
    ofComponents (isRooted path) (components (isRooted path) path)

/-- A directory that is given and not empty. -/
def given : Option (List Char) → Option (List Char)
  | some (c :: cs) => some (c :: cs)
  | _ => none

/-- The directories that come before a relative name: the directory of the compilation only if the
listed directory is not absolute. -/
def leading (directory compilation : Option (List Char)) : List (List Char) :=
  match given compilation, given directory with
  | some base, some dir => if isAbsoluteChars dir then [dir] else [base, dir]
  | some base, none => [base]
  | none, some dir => [dir]
  | none, none => []

/-- The path of a name in its directories, in normal form. -/
def joinChars (name : List Char) (directory compilation : Option (List Char)) : List Char :=
  if isAbsoluteChars name then normalizeChars name
  else normalizeChars (Text.joinWith '/' (leading directory compilation ++ [name]))

/-- A character of the name of a library. -/
def isLibraryChar (c : Char) : Bool :=
  isLetter c || ('0' ≤ c && c ≤ '9') || ['_', '.', '+', '-'].contains c

/-- The path without the name of a library and a colon in front of it. A single letter is a drive,
and two slashes after the colon make it a scheme; both stay. -/
def stripLibraryChars (cs : List Char) : List Char :=
  match cs.dropWhile isLibraryChar with
  | ':' :: rest =>
    if 2 ≤ (cs.takeWhile isLibraryChar).length ∧ ¬['/', '/'].isPrefixOf rest then rest else cs
  | _ => cs

def isAbsolute (path : String) : Bool := isAbsoluteChars path.toList

/-- The normal form of a path. -/
def normalize (path : String) : String := String.ofList (normalizeChars path.toList)

/-- The path of a name in its directories, in normal form. -/
def join (name : String) (directory compilation : Option String) : String :=
  String.ofList
    (joinChars name.toList (directory.map String.toList) (compilation.map String.toList))

/-- The path without the name of a library in front of it. -/
def stripLibrary (path : String) : String := String.ofList (stripLibraryChars path.toList)

end WasmSourceMap.SourcePath
