import WasmSourceMap.Proofs.CommandLine.Effects

/-!
# The source map beside the module

Without a path for it the source map is written beside the module, under its name with a suffix. If
neither of the two is a link, their locations end with the last names of their paths
(`LeadsTo.last`), which differ unless the suffix is empty (`apart_of_suffix`). So a run without a
patch leaves the module as it is, or the source map leads to the file of the module and is in its
place. It does if the suffix is empty.
-/

namespace WasmSourceMap

namespace Text

variable {α : Type}

lemma getLast?_splitOn_append [DecidableEq α] (sep : α) (front cs : List α) :
    (splitOn sep (front ++ sep :: cs)).getLast? = (splitOn sep cs).getLast? := by
  obtain ⟨last, isLast⟩ := Option.isSome_iff_exists.1
    (List.getLast?_isSome.2 (splitOn_ne_nil sep cs))
  rw [splitOn_append_sep, List.getLast?_append, isLast]
  rfl

/-- Joined pieces are some text in front of the last of them, which is empty or ends with the
separator. -/
lemma joinWith_concat (sep : α) (front : List (List α)) (last : List α) :
    ∃ before, joinWith sep (front ++ [last]) = before ++ last ∧
      (before = [] ∨ before.getLast? = some sep) := by
  induction front with
  | nil => exact ⟨[], rfl, .inl rfl⟩
  | cons piece rest ih =>
    obtain ⟨before, joined, ends⟩ := ih
    have more : rest ++ [last] ≠ [] :=
      List.append_ne_nil_of_right_ne_nil rest (List.cons_ne_nil _ _)
    obtain ⟨next, others, same⟩ := List.exists_cons_of_ne_nil more
    refine ⟨piece ++ sep :: before, ?_, .inr ?_⟩
    · rw [List.cons_append, same, joinWith, ← same, joined, List.append_assoc, List.cons_append]
    · rcases ends with rfl | ends
      · exact List.getLast?_concat
      · rw [List.getLast?_append, List.getLast?_cons, ends]
        rfl

end Text

namespace FilePath

variable {p q : FilePath} {text name suffix : WideString}

lemma counts_iff (piece : List CodePoint) :
    counts piece = true ↔ piece ≠ [] ∧ piece ≠ [.char '.'] := by
  unfold counts
  rw [Bool.and_eq_true, bne_iff_ne, bne_iff_ne]

/-- A component that counts, without slashes. -/
structure IsComponent (component : WideString) : Prop where
  counts : FilePath.counts component.points = true
  noSlash : slash ∉ component.points

lemma isComponent_of_mem (h : name ∈ (ofString text).components) : IsComponent name := by
  obtain ⟨piece, mem, rfl⟩ := List.mem_map.1 h
  obtain ⟨inText, counts⟩ := List.mem_filter.1 mem
  exact ⟨counts, fun isSlash => (Text.mem_of_mem_splitOn inText isSlash).2 rfl⟩

lemma components_eq (named : p.components ≠ []) :
    p.components = p.components.dropLast ++ [p.name] := by
  have last : p.name = p.components.getLast named := by
    unfold name
    rw [List.getLast?_eq_some_getLast named]
    rfl
  rw [last, List.dropLast_concat_getLast]

/-- The text of a path is its name behind some text that is empty or ends with a slash. -/
lemma points_toString (named : p.components ≠ []) :
    ∃ before, p.toString.points = before ++ p.name.points ∧
      (before = [] ∨ before.getLast? = some slash) := by
  obtain ⟨before, joined, ends⟩ :=
    Text.joinWith_concat slash (p.components.dropLast.map WideString.points) p.name.points
  have text : p.toString.points =
      List.replicate p.slashes slash ++ before ++ p.name.points := by
    unfold toString
    rw [if_neg fun both => named both.2, List.append_assoc, ← joined]
    conv_lhs => rw [components_eq named, List.map_append]
    rfl
  refine ⟨_, text, ?_⟩
  rcases ends with rfl | ends
  · cases p.slashes with
    | zero => exact .inl rfl
    | succ n =>
      right
      rw [List.append_nil, List.replicate_succ', List.getLast?_concat]
  · right
    rw [List.getLast?_append, ends]
    rfl

/-- The last component of the text of a path is the last piece of its name. -/
lemma getLast?_componentsOf (named : p.components ≠ []) :
    (FileSystem.componentsOf p.toString).getLast? =
      ((Text.splitOn slash p.name.points).getLast?).map .mk := by
  obtain ⟨before, text, ends⟩ := points_toString named
  unfold FileSystem.componentsOf
  rw [text, List.getLast?_map]
  rcases ends with rfl | ends
  · rfl
  · obtain ⟨front, rfl⟩ := List.getLast?_eq_some_iff.1 ends
    rw [List.append_assoc, List.singleton_append, Text.getLast?_splitOn_append]

lemma isComponent_name (named : (ofString text).components ≠ []) :
    IsComponent (ofString text).name := by
  apply isComponent_of_mem
  rw [components_eq named]
  exact List.mem_append_right _ (List.mem_singleton.2 rfl)

/-- A path whose name is a component ends with this component. -/
lemma IsComponent.getLast?_componentsOf (isComponent : IsComponent p.name)
    (named : p.components ≠ []) : (FileSystem.componentsOf p.toString).getLast? = some p.name := by
  rw [FilePath.getLast?_componentsOf named, Text.splitOn_of_not_mem isComponent.noSlash]
  rfl

lemma IsComponent.noSlash_toString (isComponent : IsComponent p.name) (named : p.components ≠ []) :
    p.toString.points.getLast? ≠ some slash := by
  obtain ⟨before, text, _⟩ := points_toString named
  obtain ⟨last, isLast⟩ := Option.isSome_iff_exists.1
    (List.getLast?_isSome.2 ((counts_iff _).1 isComponent.counts).1)
  rw [text, List.getLast?_append, isLast]
  intro isSlash
  obtain rfl : last = slash := Option.some.inj isSlash
  exact isComponent.noSlash (List.mem_of_getLast? isLast)

lemma isName_iff : isName text = true ↔ (pieces text.points).length = 1 ∧
    text.points.head? ≠ some slash ∧ text.points.getLast? ≠ some slash := by
  unfold isName
  rw [Bool.and_eq_true, Bool.and_eq_true, beq_iff_eq, bne_iff_ne, bne_iff_ne, and_assoc]

/-- A name with a suffix that can still be a name ends with a piece that does not count, since a
slash in the suffix can only be followed by what does not count, or it is one piece. -/
lemma getLast?_pieces (isComponent : IsComponent name) (isName : isName (name ++ suffix) = true) :
    ∃ piece, (Text.splitOn slash (name ++ suffix).points).getLast? = some piece ∧
      (counts piece = false ∨ piece = (name ++ suffix).points) := by
  by_cases inSuffix : slash ∈ suffix.points
  · obtain ⟨front, rest, split, noSlash⟩ := List.eq_append_cons_of_mem inSuffix
    have whole : slash ∉ name.points ++ front :=
      fun mem => (List.mem_append.1 mem).elim isComponent.noSlash noSlash
    have text : (name ++ suffix).points = (name.points ++ front) ++ slash :: rest := by
      rw [WideString.points_append, split, List.append_assoc]
    have firstCounts : counts (name.points ++ front) = true := by
      obtain ⟨notEmpty, notDot⟩ := (counts_iff _).1 isComponent.counts
      refine (counts_iff _).2 ⟨fun e => notEmpty (List.append_eq_nil_iff.1 e).1, fun e => ?_⟩
      rcases List.append_eq_singleton_iff.1 e with ⟨empty, _⟩ | ⟨dot, _⟩
      · exact notEmpty empty
      · exact notDot dot
    have one := (isName_iff.1 isName).1
    unfold pieces at one
    rw [text, Text.splitOn_append_cons whole, List.filter_cons_of_pos firstCounts, List.map_cons,
      List.length_cons, List.length_map] at one
    have noMore := List.filter_eq_nil_iff.1 (List.eq_nil_of_length_eq_zero (Nat.succ.inj one))
    obtain ⟨last, isLast⟩ := Option.isSome_iff_exists.1
      (List.getLast?_isSome.2 (Text.splitOn_ne_nil slash rest))
    refine ⟨last, ?_, .inl (Bool.eq_false_iff.2 (noMore last (List.mem_of_getLast? isLast)))⟩
    rw [text, Text.getLast?_splitOn_append, isLast]
  · have whole : slash ∉ (name ++ suffix).points :=
      fun mem => (List.mem_append.1 mem).elim isComponent.noSlash inSuffix
    exact ⟨_, by rw [Text.splitOn_of_not_mem whole, List.getLast?_singleton], .inr rfl⟩

lemma withName?_ok (h : p.withName? text = some q) : p.components ≠ [] ∧ isName text = true ∧
    q.components ≠ [] ∧ q.name = text := by
  unfold withName? at h
  split at h
  · cases h
  rename_i both
  rw [not_or, not_not] at both
  cases h
  refine ⟨both.1, both.2, List.append_ne_nil_of_right_ne_nil _ (List.cons_ne_nil _ _), ?_⟩
  unfold name
  rw [List.getLast?_concat]
  rfl

/-- A path with its own name is the same path. -/
lemma withName?_self (h : p.withName? p.name = some q) : q = p := by
  have named := (withName?_ok h).1
  unfold withName? at h
  split at h
  · cases h
  · cases h
    rw [← components_eq named]

end FilePath

namespace FileSystem

/-- A piece that does not count is no name of anything in a directory. -/
lemma IsEntry.counts {piece : List CodePoint} {name : FileName} (h : IsEntry name)
    (isName : WideString.nameBytes? ⟨piece⟩ = some name) : FilePath.counts piece = true := by
  refine (FilePath.counts_iff _).2 ⟨?_, ?_⟩
  · rintro rfl
    cases isName
    exact h.notIdle (.inl rfl)
  · rintro rfl
    cases isName
    exact h.notIdle (.inr rfl)

end FileSystem

namespace CommandLine

variable {o : Options} {package : FilePath} {files mapped : FileSystem} {d : Draft}
  {suffix : WideString}

lemma defaultMapPath_ok {wasm : WideString} {value : Json} {path : FilePath}
    (h : defaultMapPath wasm value = .ok path) :
    ∃ suffix, suffix? value = some suffix ∧
      (FilePath.ofString wasm).withName? ((FilePath.ofString wasm).name ++ suffix) = some path := by
  unfold defaultMapPath at h
  split at h
  · rename_i suffix isSuffix
    refine ⟨suffix, isSuffix, ?_⟩
    unfold besideModule at h
    dsimp only at h
    split at h
    · cases h
      assumption
    · cases h
  · cases h

/-- With a suffix the source map is not in the file of the module, if neither is a link. -/
lemma apart_of_suffix {path : FilePath} {wasm : WideString} {l : Location}
    (beside : (FilePath.ofString wasm).withName? ((FilePath.ofString wasm).name ++ suffix) =
      some path)
    (notEmpty : suffix ≠ "") (noSlash : path.toString.points.getLast? ≠ some FilePath.slash)
    (noLink : files.isLink path.toString = false)
    (noLink' : files.isLink (FilePath.ofString wasm).toString = false)
    (mapHere : files.LeadsTo path.toString l) :
    ¬ files.LeadsTo (FilePath.ofString wasm).toString l := by
  intro moduleHere
  obtain ⟨named, isName, mapNamed, mapName⟩ := FilePath.withName?_ok beside
  have isComponent := FilePath.isComponent_name named
  -- Both locations end with the bytes of the last piece of either name.
  obtain ⟨piece, pieceName, isPiece, inBytes, isEntry, mapEnds⟩ := mapHere.last noSlash noLink
  obtain ⟨name, moduleName, isModule, inBytes', _, moduleEnds⟩ :=
    moduleHere.last (isComponent.noSlash_toString named) noLink'
  cases isModule.symm.trans (isComponent.getLast?_componentsOf named)
  cases mapEnds.symm.trans moduleEnds
  rw [FilePath.getLast?_componentsOf mapNamed, mapName] at isPiece
  obtain ⟨last, isLast, rfl⟩ := Option.map_eq_some_iff.1 isPiece
  obtain ⟨other, isOther, whole⟩ := FilePath.getLast?_pieces isComponent isName
  cases isOther.symm.trans isLast
  rcases whole with noCount | rfl
  · cases noCount.symm.trans (isEntry.counts inBytes)
  · obtain ⟨front, back, isFront, isBack, rfl⟩ := WideString.nameBytes?_append inBytes
    have same : front ++ [] = front ++ back := by
      rw [List.append_nil]
      exact Option.some.inj (isFront.symm.trans inBytes')
    rw [← List.append_cancel_left same] at isBack
    exact notEmpty (WideString.eq_empty_of_nameBytes? isBack)

/-- A source map beside the module is under the name of the module with the suffix. -/
lemma mapFile_ok {config : Config} {path : FilePath} (noPath : given o.mapPath = none)
    (h : o.mapFile config = .ok path) :
    ∃ suffix, suffix? config.sourceMapSuffix = some suffix ∧
      (FilePath.ofString o.wasm).withName? ((FilePath.ofString o.wasm).name ++ suffix) =
        some path := by
  unfold Options.mapFile at h
  rw [noPath] at h
  exact defaultMapPath_ok h

/-- Without a suffix the path of the source map is that of the module. -/
lemma mapFile_eq {config : Config} {path : FilePath} (noPath : given o.mapPath = none)
    (empty : suffix? config.sourceMapSuffix = some (.ofString ""))
    (h : o.mapFile config = .ok path) :
    path = FilePath.ofString o.wasm := by
  obtain ⟨suffix, isSuffix, beside⟩ := mapFile_ok noPath h
  obtain rfl := Option.some.inj (isSuffix.symm.trans empty)
  have same : (FilePath.ofString o.wasm).name ++ "" = (FilePath.ofString o.wasm).name :=
    congrArg WideString.mk (List.append_nil _)
  rw [same] at beside
  exact FilePath.withName?_self beside

lemma mapTarget_of_mapFile {config : Config} {path : FilePath}
    (isConfig : o.configuration package files = .ok config) (isPath : o.mapFile config = .ok path) :
    o.mapTarget package files = .ok path := by
  unfold Options.mapTarget
  rw [isConfig]
  exact isPath

/-- Writing a source map beside the module leaves the module as it is. -/
lemma Options.Drafts.module_kept (h : o.Drafts package files d) (noPath : given o.mapPath = none)
    (notEmpty : suffix? d.config.sourceMapSuffix ≠ some (.ofString ""))
    (noLink : files.isLink d.mapPath.toString = false)
    (noLink' : files.isLink (FilePath.ofString o.wasm).toString = false) {content : Bytes}
    (written : files.write d.mapPath.toString content = .ok mapped) :
    mapped.openFile (FilePath.ofString o.wasm).toString =
      files.openFile (FilePath.ofString o.wasm).toString := by
  obtain ⟨suffix, isSuffix, beside⟩ := mapFile_ok noPath h.mapPath
  have suffixed : suffix ≠ "" := by
    rintro rfl
    exact notEmpty isSuffix
  have noSlash := (FileSystem.write_ok written).1
  obtain ⟨l, location, data, leads, _, _, opened, again⟩ := h.written written
  have away : location ≠ l := by
    rintro rfl
    exact apart_of_suffix beside suffixed noSlash noLink noLink' leads
      (FileSystem.leadsTo_of_openFile opened)
  rw [again, if_neg away, opened]

variable {machine : Machine} {exit : Exit} {after : Console}

lemma Outcome.module_kept (h : Outcome o machine files exit after) (noPatch : o.patch = false)
    (noPath : given o.mapPath = none)
    (beside : ∀ config path, o.configuration machine.package files = .ok config →
      o.mapFile config = .ok path →
        suffix? config.sourceMapSuffix ≠ some (.ofString "") ∧ files.isLink path.toString = false)
    (noLink : files.isLink (FilePath.ofString o.wasm).toString = false) :
    after.files.openFile (FilePath.ofString o.wasm).toString =
      files.openFile (FilePath.ofString o.wasm).toString := by
  have kept {d : Draft} (drafts : o.Drafts machine.package files d) {content : Bytes}
      {mapped : FileSystem} (written : files.write d.mapPath.toString content = .ok mapped) :
      mapped.openFile (FilePath.ofString o.wasm).toString =
        files.openFile (FilePath.ofString o.wasm).toString := by
    obtain ⟨notEmpty, noLink'⟩ := beside _ _ drafts.config drafts.mapPath
    exact drafts.module_kept noPath notEmpty noLink' noLink written
  cases h with
  | stopped _ _ kept => rw [kept]
  | broken _ _ drafts _ written => exact kept drafts written
  | published _ drafts written _ follows _ =>
    rcases follows.files with same | ⟨wanted, _⟩
    · rw [same]
      exact kept drafts written
    · cases noPatch.symm.trans wanted

/-- A source map in the file of the module replaces it. -/
lemma Outcome.module_replaced (h : Outcome o machine files exit after) (noPatch : o.patch = false)
    {path : FilePath} {l : Location} (target : o.mapTarget machine.package files = .ok path)
    (announced : announcement path ∈ after.lines) (mapHere : files.LeadsTo path.toString l)
    (moduleHere : files.LeadsTo (FilePath.ofString o.wasm).toString l) :
    ∃ old map, files.openFile (FilePath.ofString o.wasm).toString = .ok (l, old) ∧
      o.sourceMap machine.package files = .ok map ∧
      after.files.openFile (FilePath.ofString o.wasm).toString =
        .ok (l, Text.Utf8.encode map.toText) := by
  cases h with
  | stopped _ silent | broken _ silent => exact absurd rfl (silent _ announced path)
  | published _ drafts written _ follows _ =>
    obtain rfl := Except.ok.inj (drafts.mapTarget.symm.trans target)
    obtain ⟨l', location, old, leads, _, _, opened, again⟩ := drafts.written written
    obtain rfl := mapHere.unique leads
    obtain rfl := moduleHere.unique (FileSystem.leadsTo_of_openFile opened)
    rw [if_pos rfl] at again
    rcases follows.files with same | ⟨wanted, _⟩
    · rw [same]
      exact ⟨old, _, opened, drafts.sourceMap, again⟩
    · cases noPatch.symm.trans wanted

/-- An announced source map was written, so its path leads somewhere. -/
lemma Outcome.leads (h : Outcome o machine files exit after) {path : FilePath}
    (target : o.mapTarget machine.package files = .ok path)
    (announced : announcement path ∈ after.lines) : ∃ l, files.LeadsTo path.toString l := by
  cases h with
  | stopped _ silent | broken _ silent => exact absurd rfl (silent _ announced path)
  | published _ drafts written =>
    obtain rfl := Except.ok.inj (drafts.mapTarget.symm.trans target)
    obtain ⟨l, _, _, leads, _⟩ := drafts.written written
    exact ⟨l, leads⟩

/-- Without a patch, and without a path for the source map, the module stays as it is, whatever
happens, unless the suffix is empty or one of the two is a link. If the source map is announced and
its path leads to the file of the module, it is in the place of the module. It does so with an empty
suffix. -/
theorem runWith_module {arguments : List WideString} {o : Options}
    (accepted : parse arguments = .run o) (noPatch : o.patch = false)
    (noPath : given o.mapPath = none) (machine : Machine) (files : FileSystem) :
    let after := (runWith machine arguments files).2
    let module := (FilePath.ofString o.wasm).toString
    let configuration := o.configuration machine.package files
    ((∀ config path, configuration = .ok config → o.mapFile config = .ok path →
        suffix? config.sourceMapSuffix ≠ some (.ofString "") ∧ files.isLink path.toString = false) →
      files.isLink module = false → after.files.openFile module = files.openFile module) ∧
    ∀ config path, configuration = .ok config → o.mapFile config = .ok path →
      announcement path ∈ after.lines →
      suffix? config.sourceMapSuffix = some (.ofString "") ∨
        (∃ l, files.LeadsTo path.toString l ∧ files.LeadsTo module l) →
      ∃ location old map, files.openFile module = .ok (location, old) ∧
        o.sourceMap machine.package files = .ok map ∧
        after.files.openFile module = .ok (location, Text.Utf8.encode map.toText) := by
  have outcome := runWith_outcome accepted machine files
  refine ⟨outcome.module_kept noPatch noPath, fun config path isConfig isPath announced same => ?_⟩
  have target := mapTarget_of_mapFile isConfig isPath
  have both : ∃ l, files.LeadsTo path.toString l ∧
      files.LeadsTo (FilePath.ofString o.wasm).toString l := by
    rcases same with empty | both
    · obtain ⟨l, leads⟩ := outcome.leads target announced
      exact ⟨l, leads, mapFile_eq noPath empty isPath ▸ leads⟩
    · exact both
  obtain ⟨l, mapHere, moduleHere⟩ := both
  exact ⟨l, outcome.module_replaced noPatch target announced mapHere moduleHere⟩

/-- A configuration with an empty suffix. -/
def emptySuffix : Bytes := Text.Utf8.encode "\x7b\"sourceMapSuffix\":\"\"\x7d"

/-- The module, and the configuration in the directory of the program. -/
def emptyDefault : FileSystem :=
  oneModule.addFile (.of ["usr", "lib", "wasm2map", "config.json"]) emptySuffix

/-- The usual suffix keeps the module, and the empty one replaces it. -/
theorem runWith_module_suffixes :
    let arguments : List WideString := ["app.wasm"]
    let o : Options := { wasm := "app.wasm" }
    parse arguments = .run o ∧
      (runWith {} arguments oneModule).2.files.openFile "app.wasm" =
        .ok (.of ["app.wasm"], Session.oneUnit) ∧
      ∃ map, o.sourceMap (.ofString "/usr/lib/wasm2map") emptyDefault = .ok map ∧
        (runWith {} arguments emptyDefault).2.files.openFile "app.wasm" =
          .ok (.of ["app.wasm"], Text.Utf8.encode map.toText) := by
  intro arguments o
  have accepted : parse arguments = .run o := by decide +kernel
  have text : (FilePath.ofString "app.wasm").toString = "app.wasm" := by decide +kernel
  have opened : oneModule.openFile "app.wasm" = .ok (.of ["app.wasm"], Session.oneUnit) := by
    decide +kernel
  have opened' : emptyDefault.openFile "app.wasm" = .ok (.of ["app.wasm"], Session.oneUnit) := by
    decide +kernel
  have kept := (runWith_module accepted rfl rfl {} oneModule).1
  have replaced := (runWith_module accepted rfl rfl {} emptyDefault).2
  have announced : announcement (.ofString "app.wasm") ∈
      (runWith {} arguments emptyDefault).2.lines := by
    decide +kernel
  have usual : (o.configuration (.ofString "/usr/lib/wasm2map") oneModule).map
      (fun c => suffix? c.sourceMapSuffix) = .ok (some (.ofString ".map")) := by
    decide +kernel
  have noLinks : (o.mapTarget (.ofString "/usr/lib/wasm2map") oneModule).map
      (fun path => oneModule.isLink path.toString) = .ok false := by
    decide +kernel
  have noLink : oneModule.isLink (FilePath.ofString "app.wasm").toString = false := by
    decide +kernel
  have read : (o.configuration (.ofString "/usr/lib/wasm2map") emptyDefault).map
      (fun c => suffix? c.sourceMapSuffix) = .ok (some (.ofString "")) := by
    decide +kernel
  have target : o.mapTarget (.ofString "/usr/lib/wasm2map") emptyDefault =
      .ok (.ofString "app.wasm") := by
    decide +kernel
  obtain ⟨config, isConfig, empty⟩ := Except.map_ok read
  have isPath : o.mapFile config = .ok (.ofString "app.wasm") := by
    unfold Options.mapTarget at target
    rw [isConfig] at target
    exact target
  rw [text] at kept replaced
  obtain ⟨location, old, map, before, isMap, after⟩ :=
    replaced config _ isConfig isPath announced (.inl empty)
  cases before.symm.trans opened'
  refine ⟨accepted, ?_, map, isMap, after⟩
  rw [kept (fun config path isConfig isPath => ⟨?_, ?_⟩) (text ▸ noLink), opened]
  · rw [isConfig] at usual
    rw [show suffix? config.sourceMapSuffix = _ from Except.ok.inj usual]
    decide
  · rw [mapTarget_of_mapFile isConfig isPath] at noLinks
    exact Except.ok.inj noLinks

/-- The module, and the configuration in a file that is named. -/
def emptyNamed : FileSystem := oneModule.addFile (.of ["c.json"]) emptySuffix

/-- A configuration with an empty suffix makes a run without a patch overwrite the module. -/
theorem run_emptySuffix_ne :
    let arguments : List WideString := ["--config", "c.json", "app.wasm"]
    let ran := run arguments emptyNamed
    parse arguments = .run { wasm := "app.wasm", config := some "c.json" } ∧
      ran.1 = .status 0 ∧
      ran.2.files.openFile "app.wasm" ≠ emptyNamed.openFile "app.wasm" := by
  decide +kernel

/-- So does a file under the name of the source map that is the module. -/
example :
    let link : SymbolicLink := ⟨false, [Text.Utf8.encode "app.wasm"], by decide⟩
    let files := oneModule.addLink (.of ["app.wasm.map"]) (.symbolic link)
    let ran := run ["app.wasm"] files
    files.isLink "app.wasm.map" = true ∧ ran.1 = .status 0 ∧
      ran.2.files.read "app.wasm" = ran.2.files.read "app.wasm.map" ∧
      ran.2.files.openFile "app.wasm" ≠ files.openFile "app.wasm" := by
  decide +kernel

end CommandLine

end WasmSourceMap
