import WasmSourceMap.FileSystem

/-!
# Notices

What a run tells its user besides its results. A notice does not stop the run.
-/

namespace WasmSourceMap

/-- What a run tells its user. -/
inductive Notice where
  | skippedUnit (offset : Nat)
  | sectionNotLast (name : String) (path : WideString)
  | notRestored (path : WideString) (fault : FileFault)
deriving DecidableEq, Repr

def Notice.text : Notice → WideString
  | .skippedUnit offset =>
    "WARNING: Skipping compilation unit at offset 0x" ++ Text.Hexadecimal.ofNat offset
  | .sectionNotLast name path =>
    "WARNING: " ++ name ++ " is not the last section of " ++ path ++
      ", patching will truncate the sections after it"
  | .notRestored path fault =>
    "ERROR: Could not restore " ++ path ++ " after a failed patch: " ++ fault.message

end WasmSourceMap
