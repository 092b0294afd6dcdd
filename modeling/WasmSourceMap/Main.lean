import WasmSourceMap.CommandLine.Inputs

/-!
# The program

Looks up the files that the arguments lead to, runs the command line on them, prints its lines and
writes the files that it changed.
-/

namespace WasmSourceMap.CommandLine

/-- The location of a path from the root that has no links in it. -/
def locationOf (path : String) : Location := .of ((FilePath.ofString path).components.map (·.shown))

/-- The path of a location. -/
def textOf (l : Location) : String := "/" ++ "/".intercalate (l.names.map Text.Utf8.decode)

/-- A link to a location. -/
def linkTo (l : Location) : Link :=
  if named : l.names.getLast? ≠ some [] then .symbolic ⟨true, l.names, named⟩
  else .symbolic ⟨true, [], nofun⟩

/-- Add what the machine has at a path without links in it: a file or a directory. -/
def addPlace (files : FileSystem) (path : String) : IO FileSystem := do
  try
    let content ← IO.FS.readBinFile path
    return files.addFile (locationOf path) content.toList
  catch _ => return files.addDirectory (locationOf path)

/-- Add what the machine has on the way from a directory over some names. A name that leads away
from its own place is a link. -/
def lookUp (files : FileSystem) (directory : String) : List String → IO FileSystem
  | [] => return files
  | name :: rest => do
    let path := textOf ((locationOf directory).entry (Text.Utf8.encode name))
    try
      let place := (← IO.FS.realPath (path ++ if rest.isEmpty then "" else "/.")).toString
      let files :=
        if name = ".." ∨ place = path then files
        else files.addLink (locationOf path) (linkTo (locationOf place))
      lookUp (← addPlace files place) place rest
    catch _ => return files

/-- Add what the machine has on the way of some paths. -/
def lookUpAll (files : FileSystem) (paths : List WideString) : IO FileSystem :=
  paths.foldlM (fun files path => do
    let p := FilePath.ofString path
    let start := if p.slashes = 0 then textOf files.current else "/"
    lookUp files start (p.components.map (·.shown))) files

/-- Run on the files of the machine. -/
def runOnMachine (arguments : List WideString) : IO UInt32 := do
  let here := locationOf (← IO.FS.realPath ".").toString
  let start := { FileSystem.empty with current := here }
  let named ← lookUpAll start (wantedPaths {} arguments start)
  let files ← lookUpAll named (wantedPaths {} arguments named)
  let (exit, console) := runWith { strict := true } arguments files
  for (location, content) in changedFiles files console.files do
    IO.FS.writeBinFile (textOf location) ⟨content.toArray⟩
  for line in console.lines do
    IO.println line.shown
  match exit with
  | .status code => return UInt32.ofNat code
  | .unforeseen fault =>
    IO.eprintln fault.message.shown
    return 1

end WasmSourceMap.CommandLine

/-- Run on the files of the machine. -/
def main (arguments : List String) : IO UInt32 :=
  WasmSourceMap.CommandLine.runOnMachine (arguments.map .ofString)
