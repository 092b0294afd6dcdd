import WasmSourceMap.CommandLine.Run

/-!
# Files of a run

A run sees the files that its arguments name, the place of the source map and, if sources are
bundled, the files that the debug information names. The first of them are needed to know the
others, so they are asked for in two rounds: `wantedPaths` of no files, and then of the files found
so far.
-/

namespace WasmSourceMap.CommandLine

/-- The paths that the options name. -/
def Options.paths (o : Options) : List WideString :=
  [o.wasm] ++ o.mapPath.toList ++ o.splitParent.toList ++ o.supplementary.toList ++ o.config.toList

/-- The paths of the sources of a module. -/
def sourcePaths (o : Options) (files : FileSystem) : List String :=
  match Session.load files o.wasm o.splitParent o.supplementary none with
  | .error _ => []
  | .ok (session, _) =>
    match session.table.result with
    | .error _ => []
    | .ok t => (SourceMap.segments t).2.paths

/-- The paths that a configuration leads to. -/
def Options.configuredPaths (o : Options) (c : Config) (files : FileSystem) : List WideString :=
  ((o.mapFile c).toOption.map FilePath.toString).toList ++
    if c.bundleSources.isTruthy then (sourcePaths o files).map .ofString else []

/-- The paths that a run asks for, as far as the files found so far tell. -/
def wantedPaths (machine : Machine) (arguments : List WideString) (files : FileSystem) :
    List WideString :=
  match parse arguments with
  | .run o =>
    let known := (Config.defaultPath machine.package).toString :: o.paths
    match o.configuration machine.package files with
    | .ok c => known ++ o.configuredPaths c files
    | .error _ => known
  | _ => []

/-- The files that a run changed or made. -/
def changedFiles (before after : FileSystem) : List (Location × Bytes) :=
  after.files.filter fun entry => before.content? entry.1 != some entry.2

end WasmSourceMap.CommandLine
