import WasmSourceMap.Proofs.CommandLine.Drafts
import WasmSourceMap.Proofs.Session.Patching
import WasmSourceMap.Proofs.SourceMap.Rows

/-!
# What a run leaves of the files

A run stops before it writes anything, or with a part of the source map in its file
(`Options.Breaks`), or the source map is announced and a patch may follow (`Outcome`,
`runWith_outcome`). So at most the files of the source map and of the module have another content
afterwards, and what stops a run after the announcement leaves a complete source map
(`runWith_touches`). Before it the file of the source map can have another content as well: it is
created before it turns out that the name of the module has no bytes (`run_surrogateName_creates`).
-/

namespace WasmSourceMap.CommandLine

section

variable {o : Options} {machine : Machine} {c c' after : Console} {d : Draft}
  {allowed : WideString → Prop}

/-- Any line. -/
def IsLine (_ : WideString) : Prop := True

lemma isLine (line : WideString) : IsLine line := trivial

/-- What may follow the source map: lines are added, and the module may have another content if it
is to be patched. -/
structure Options.Follows (o : Options) (c after : Console) : Prop where
  lines : c.lines <+: after.lines
  files : after.files = c.files ∨
    (o.patch = true ∧ c.files.Leaves (FilePath.ofString o.wasm).toString after.files)

/-- That what a patch of the module cut off could not be put back, as a line. -/
def Options.lossLine (o : Options) : WideString :=
  (Notice.notRestored (FilePath.ofString o.wasm).toString (.refused .inputOutput none)).text

/-- The loss is told if the output takes the line, and the patch was interrupted in this way. -/
def Options.TellsLoss (o : Options) (machine : Machine) (c : Console) : Prop :=
  ∃ i ∈ machine.patching, i.isRestored = false ∧
    (o.lossLine ∈ c.lines ∨ (machine.strict = true ∧ o.lossLine.isText = false))

/-- What may follow the source map if a run stops: a patch is undone, or it is told that this is not
so. -/
structure Options.Stops (o : Options) (machine : Machine) (c after : Console) : Prop where
  follows : o.Follows c after
  undone : c.files.Same after.files ∨ o.TellsLoss machine after

lemma Console.Adds.follows (h : c.Adds allowed c') : o.Follows c c' :=
  ⟨h.lines_prefix, .inl h.files⟩

lemma Console.Adds.stops (h : c.Adds allowed c') : o.Stops machine c c' :=
  ⟨h.follows, .inl (h.files ▸ ⟨fun _ => rfl, rfl⟩)⟩

lemma Options.Follows.trans_adds (h : o.Follows c c') (later : c'.Adds allowed after) :
    o.Follows c after :=
  ⟨h.lines.trans later.lines_prefix, later.files ▸ h.files⟩

lemma Console.Adds.trans_follows (h : c.Adds allowed c') (later : o.Follows c' after) :
    o.Follows c after :=
  ⟨h.lines_prefix.trans later.lines, h.files ▸ later.files⟩

lemma Console.Adds.trans_stops (h : c.Adds allowed c') (later : o.Stops machine c' after) :
    o.Stops machine c after :=
  ⟨h.trans_follows later.follows, h.files ▸ later.undone⟩

/-- A value is passed on as it is; a fault is at most told. -/
lemma ofExcept_ends {α : Type} (result : Except Fault α) :
    (Run.ofExcept result).Ends c (fun a after => result = .ok a ∧ after = c) (c.Adds IsSilent) := by
  cases result with
  | ok a => exact ⟨rfl, rfl⟩
  | error fault => exact ((Run.Prints.ofExcept isSilent_error).ends c .refl).imp nofun fun _ h => h

/-- Telling how a patch went, after its files are written. -/
lemma tell_patch_ends {url : String} (isOf : d.session.IsOf (.ofString o.wasm))
    (wanted : o.patch = true) (strict : c'.strict = machine.strict) (lines : c.lines <+: c'.lines)
    (files : c'.files = (d.session.patch c.files url machine.patching).2) :
    (do Run.tell (d.session.patch c.files url machine.patching).1.notices
        Run.ofExcept (d.session.patch c.files url machine.patching).1.result : Run Unit).Ends c'
      (fun _ after => o.Follows c after) (o.Stops machine c) := by
  have leaves := isOf.patch_leaves c.files url machine.patching
  have follows : o.Follows c c' := ⟨lines, .inr ⟨wanted, files ▸ leaves⟩⟩
  refine ((Run.print_ends _).imp (fun _ _ h => h) fun after fails => ?_).bind ?_
  · -- The only line that can fail is that of the loss.
    obtain ⟨adds, isStrict, line, mem, notText⟩ := fails
    refine ⟨follows.trans_adds adds, .inr ?_⟩
    rcases isOf.patch_notices c.files url machine.patching with none | ⟨i, isCause, lost, loss⟩
    · rw [none] at mem
      cases mem
    · rw [loss] at mem
      rw [List.mem_singleton.1 mem] at notText
      exact ⟨i, isCause, lost, .inr ⟨strict ▸ isStrict, notText⟩⟩
  rintro _ told same
  have follows : o.Follows c told := by
    rw [same]
    exact ⟨lines.trans (List.prefix_append _ _), follows.files⟩
  cases ends : (d.session.patch c.files url machine.patching).1.result with
  | ok _ => exact follows
  | error fault =>
    have fails : (d.session.patch c.files url machine.patching).1.result ≠ .ok () := by
      rw [ends]
      exact nofun
    refine (ofExcept_ends _).imp nofun fun after adds => ⟨follows.trans_adds adds, ?_⟩
    rcases isOf.patch_undone fails with undone | ⟨i, isCause, lost, loss⟩
    · rw [adds.files, same]
      exact .inl (files ▸ undone)
    · refine .inr ⟨i, isCause, lost, .inl (adds.lines_prefix.subset ?_)⟩
      rw [same]
      exact List.mem_append_right _ (List.mem_map_of_mem loss)

/-- A line that is no announcement and that fails leaves all as it was. -/
lemma print_stops (lines : List WideString) : (Run.print lines).Ends c
    (fun _ after => after = { c with lines := c.lines ++ lines }) (o.Stops machine c) :=
  (Run.print_ends lines).imp (fun _ _ h => h) fun _ fails => fails.1.stops

lemma patchModule_ends (isOf : d.session.IsOf (.ofString o.wasm)) (wanted : o.patch = true)
    (strict : c.strict = machine.strict) :
    (patchModule o d machine.patching).Ends c (fun _ after => o.Follows c after)
      (o.Stops machine c) := by
  unfold patchModule
  refine (print_stops _).bind ?_
  rintro _ shown isShown
  have adds : Console.Adds IsLine c shown := by
    rw [isShown]
    exact ⟨rfl, rfl, _, rfl, fun _ _ => trivial⟩
  have stops : (Run.ofExcept (.error .notUtf8) : Run Unit).Ends shown
      (fun _ after => o.Follows c after) (o.Stops machine c) :=
    (ofExcept_ends _).imp nofun fun _ later => adds.trans_stops later.stops
  dsimp only
  split
  · exact stops
  · exact stops
  refine Run.get_ends.bind ?_
  rintro seen _ ⟨isSeen, rfl⟩
  refine (Run.putFiles_ends _).bind ?_
  rintro _ put isPut
  have files : seen.files = c.files := by rw [isSeen, adds.files]
  rw [files] at isPut ⊢
  refine tell_patch_ends isOf wanted ?_ ?_ ?_
  · rw [isPut]
    exact adds.strict.trans strict
  · rw [isPut]
    exact adds.lines_prefix
  · rw [isPut]

lemma dumpMappings_prints (map : SourceMap) :
    (dumpMappings map).Prints IsLine c fun _ => True :=
  .bind (.ofExcept fun _ => isLine _) fun _ _ => .print fun line _ => isLine line

/-- What follows the source map. -/
lemma complete_ends (isOf : d.session.IsOf (.ofString o.wasm))
    (strict : c.strict = machine.strict) :
    (complete o d machine.patching).Ends c (fun _ after => o.Follows c after)
      (o.Stops machine c) := by
  -- The last line is a text, so it does not fail.
  have closing : ∀ c', o.Follows c c' →
      (Run.print ["Done!"]).Ends c' (fun _ after => o.Follows c after) (o.Stops machine c) := by
    intro c' follows
    refine (Run.print_ends _).imp ?_ ?_
    · rintro _ _ rfl
      exact ⟨follows.lines.trans (List.prefix_append _ _), follows.files⟩
    · rintro _ ⟨_, _, line, mem, notText⟩
      rw [List.mem_singleton.1 mem, WideString.isText_ofString] at notText
      cases notText
  have patching : ∀ c', c.Adds IsLine c' →
      (if o.patch then do patchModule o d machine.patching; Run.print ["Done!"]
        else Run.print ["Done!"]).Ends c' (fun _ after => o.Follows c after)
        (o.Stops machine c) := by
    intro c' adds
    split
    · rename_i wanted
      have patches := patchModule_ends isOf wanted (adds.strict.trans strict)
      refine (patches.imp (fun _ _ later => ?_) fun _ later => ?_).bind fun _ => closing
      · exact adds.trans_follows later
      · exact adds.trans_stops later
    · exact closing c' adds.follows
  unfold complete
  dsimp only
  split
  · have dumps := (dumpMappings_prints d.map).ends c .refl
    exact (dumps.imp (fun _ _ later => later.1) fun _ later => later.stops).bind fun _ => patching
  · exact patching c .refl

/-- Why a run stops with a part of a content in the file of the source map, before it is announced:
the name of the module is no text, and then the file is created and nothing is written; or the
system fails while it is written; or the output does not take the announcement. -/
inductive Options.Breaks (o : Options) (machine : Machine) (path : FilePath) (content : Bytes) :
    Bytes → Prop where
  | unnamed (notText : o.name? = none) : Breaks o machine path content []
  | interrupted {written : Nat} (named : o.name? ≠ none) (fails : machine.writing = some written) :
    Breaks o machine path content (content.take written)
  | unsaid (strict : machine.strict = true) (notText : path.toString.isText = false) :
    Breaks o machine path content content

lemma leaveMap_ends (d : Draft) (part : Bytes) (fault : Fault) : (leaveMap d part fault).Ends c
    (fun _ _ => False) fun after => c.Adds IsSilent after ∨ ∃ mapped,
      c.files.write d.mapPath.toString part = .ok mapped ∧
        Console.Adds IsSilent { c with files := mapped } after := by
  unfold leaveMap
  dsimp only
  refine Run.get_ends.bind ?_
  rintro _ c ⟨rfl, rfl⟩
  refine ((ofExcept_ends _).imp (fun _ _ h => h) fun _ => .inl).bind ?_
  rintro mapped _ ⟨saved, rfl⟩
  refine (Run.putFiles_ends mapped).bind ?_
  rintro _ _ rfl
  exact (ofExcept_ends _).imp nofun fun _ adds => .inr ⟨mapped, FileAction.ok_of_lift saved, adds⟩

/-- The source map is in its file when it is announced. If it is not, a part of it can be there. -/
lemma writeMap_ends : (writeMap o d machine.writing).Ends c
    (fun _ after =>
      c.files.write d.mapPath.toString (Text.Utf8.encode d.map.toText) = .ok after.files ∧
        announcement d.mapPath ∈ after.lines ∧ after.strict = c.strict ∧ o.name? ≠ none)
    fun after => c.Adds IsSilent after ∨ ∃ part mapped,
      (c.strict = machine.strict →
        o.Breaks machine d.mapPath (Text.Utf8.encode d.map.toText) part) ∧
      c.files.write d.mapPath.toString part = .ok mapped ∧
        Console.Adds IsSilent { c with files := mapped } after := by
  unfold writeMap
  split
  · rename_i notText
    refine (leaveMap_ends d _ _).imp (fun _ _ h => h.elim) ?_
    rintro after (adds | ⟨mapped, written⟩)
    · exact .inl adds
    · exact .inr ⟨_, mapped, fun _ => .unnamed notText, written⟩
  · rename_i name written isName fails
    refine (leaveMap_ends d _ _).imp (fun _ _ h => h.elim) ?_
    rintro after (adds | ⟨mapped, written⟩)
    · exact .inl adds
    · exact .inr ⟨_, mapped, fun _ => .interrupted (by rw [isName]; exact nofun) fails, written⟩
  · rename_i name isName _
    refine Run.get_ends.bind ?_
    rintro _ c ⟨rfl, rfl⟩
    refine ((ofExcept_ends _).imp (fun _ _ h => h) fun _ => .inl).bind ?_
    rintro files _ ⟨saved, rfl⟩
    have written := FileAction.ok_of_lift saved
    refine (Run.putFiles_ends files).bind ?_
    rintro _ _ rfl
    refine (Run.print_ends _).imp ?_ ?_
    · rintro _ _ rfl
      exact ⟨written, List.mem_append_right _ (List.mem_singleton.2 rfl), rfl,
        by rw [isName]; exact nofun⟩
    · rintro after ⟨adds, strict, line, mem, notText⟩
      rw [List.mem_singleton.1 mem] at notText
      refine .inr ⟨_, files, fun same => .unsaid (same ▸ strict) ?_, written, adds.imp ?_⟩
      · rw [announcement, WideString.isText_append, WideString.isText_ofString] at notText
        exact notText
      · rintro line ⟨mem, isText⟩
        rw [List.mem_singleton.1 mem, notText] at isText
        cases isText

end

/-- How a run ends and what it leaves. -/
inductive Outcome (o : Options) (machine : Machine) (files : FileSystem) :
    Exit → Console → Prop where
  | stopped {exit : Exit} {after : Console} (noSuccess : exit ≠ .status 0)
      (silent : ∀ line ∈ after.lines, IsSilent line) (kept : after.files = files) :
      Outcome o machine files exit after
  | broken {exit : Exit} {after : Console} {d : Draft} {part : Bytes}
      (noSuccess : exit ≠ .status 0) (silent : ∀ line ∈ after.lines, IsSilent line)
      (drafts : o.Drafts machine.package files d)
      (breaks : o.Breaks machine d.mapPath (Text.Utf8.encode d.map.toText) part)
      (written : files.write d.mapPath.toString part = .ok after.files) :
      Outcome o machine files exit after
  | published {exit : Exit} {mapped after : Console} {d : Draft} (named : o.name? ≠ none)
      (drafts : o.Drafts machine.package files d)
      (written : files.write d.mapPath.toString (Text.Utf8.encode d.map.toText) = .ok mapped.files)
      (announced : announcement d.mapPath ∈ after.lines) (follows : o.Follows mapped after)
      (stops : exit ≠ .status 0 → o.Stops machine mapped after) :
      Outcome o machine files exit after

/-- The draft of a run is about the module. -/
lemma Options.Drafts.isOf {o : Options} {package : FilePath} {files : FileSystem} {d : Draft}
    (h : o.Drafts package files d) :
    (∃ location data, files.openFile (FilePath.ofString o.wasm).toString = .ok (location, data)) ∧
      d.session.IsOf (.ofString o.wasm) := by
  obtain ⟨s, notices, loaded, _, same⟩ := h.session
  obtain ⟨opened, isOf⟩ := Session.load_ok loaded
  refine ⟨opened, ?_⟩
  rw [← same]
  exact isOf.sourceMap files _ _

lemma execute_ends (o : Options) (machine : Machine) (files : FileSystem) :
    (execute o machine).Ends { files, lines := [], strict := machine.strict }
      (fun _ after => Outcome o machine files (.status 0) after)
      fun after => ∀ exit, exit ≠ .status 0 → Outcome o machine files exit after := by
  unfold execute
  refine ((prepare_prints.ends _ .refl).imp (fun _ _ h => h)
    fun after adds exit noSuccess => ?_).bind ?_
  · exact .stopped noSuccess (adds.of_none rfl) adds.files
  rintro d c ⟨adds, drafts⟩
  refine (writeMap_ends.imp (fun _ _ h => h) fun after left exit noSuccess => ?_).bind ?_
  · rcases left with later | ⟨part, mapped, breaks, written, later⟩
    · exact .stopped noSuccess ((adds.trans later).of_none rfl) (later.files.trans adds.files)
    · have silent : ∀ line ∈ after.lines, IsSilent line := by
        have adds' : Console.Adds IsSilent
            { files := mapped, lines := [], strict := machine.strict } { c with files := mapped } :=
          ⟨rfl, adds.strict, adds.lines⟩
        exact (adds'.trans later).of_none rfl
      have left : after.files = mapped := later.files
      rw [adds.files, ← left] at written
      exact .broken noSuccess silent drafts (breaks adds.strict) written
  rintro _ mapped ⟨written, announced, strict, named⟩
  rw [adds.files] at written
  refine (complete_ends drafts.isOf.2 (strict.trans adds.strict)).imp ?_ ?_
  · exact fun _ after follows => .published named drafts written
      (follows.lines.subset announced) follows fun fails => absurd rfl fails
  · exact fun after stops exit _ => .published named drafts written
      (stops.follows.lines.subset announced) stops.follows fun _ => stops

lemma runWith_outcome {arguments : List WideString} {o : Options}
    (accepted : parse arguments = .run o) (machine : Machine) (files : FileSystem) :
    Outcome o machine files (runWith machine arguments files).1
      (runWith machine arguments files).2 := by
  have ends := execute_ends o machine files
  unfold runWith
  rw [accepted]
  unfold Run.Ends at ends
  dsimp only
  revert ends
  rcases (execute o machine).run _ with ⟨exit | _, after⟩
  · exact fun ends => ends.2 exit ends.1
  · exact fun ends => ends

section

variable {o : Options} {package : FilePath} {files mapped : FileSystem} {d : Draft}

/-- Where the map and the module of a draft are, before and after the map is written. -/
lemma Options.Drafts.written (h : o.Drafts package files d) {content : Bytes}
    (written : files.write d.mapPath.toString content = .ok mapped) :
    ∃ l location data, files.LeadsTo d.mapPath.toString l ∧ mapped = files.put l content ∧
      mapped.openFile d.mapPath.toString = .ok (l, content) ∧
      files.openFile (FilePath.ofString o.wasm).toString = .ok (location, data) ∧
      mapped.openFile (FilePath.ofString o.wasm).toString =
        .ok (location, if location = l then content else data) := by
  obtain ⟨noSlash, l, leads, rfl⟩ := FileSystem.write_ok written
  obtain ⟨location, data, opened⟩ := h.isOf.1
  exact ⟨l, location, data, leads, rfl, FileSystem.openFile_put_of_leadsTo leads noSlash content,
    opened, FileSystem.openFile_put_of_writable leads.writable opened content⟩

variable {machine : Machine} {exit : Exit} {after : Console}

/-- The files that may have another content afterwards. -/
lemma Outcome.touches (h : Outcome o machine files exit after) :
    after.files.tree = files.tree ∧
      ∀ l, after.files.content? l ≠ files.content? l →
        (∃ path, o.mapTarget machine.package files = .ok path ∧ files.LeadsTo path.toString l) ∨
          (o.patch = true ∧ files.LeadsTo (FilePath.ofString o.wasm).toString l) := by
  -- A location with another content than before the map was written is that of the map.
  have here {d : Draft} {location l : Location} {content : Bytes}
      (drafts : o.Drafts machine.package files d)
      (leads : files.LeadsTo d.mapPath.toString location)
      (other : (files.put location content).content? l ≠ files.content? l) :
      ∃ path, o.mapTarget machine.package files = .ok path ∧ files.LeadsTo path.toString l := by
    refine ⟨d.mapPath, drafts.mapTarget, ?_⟩
    by_cases same : l = location
    · rwa [same]
    · exact absurd (FileSystem.content?_put_of_ne same) other
  cases h with
  | stopped _ _ kept =>
    rw [kept]
    exact ⟨rfl, fun l other => absurd rfl other⟩
  | broken _ _ drafts _ written =>
    obtain ⟨l, _, _, leads, put, _⟩ := drafts.written written
    rw [put]
    exact ⟨rfl, fun l other => .inl (here drafts leads other)⟩
  | published _ drafts written _ follows _ =>
    obtain ⟨l, location, data, leads, put, _, opened, again⟩ := drafts.written written
    rcases follows.files with same | ⟨wanted, leaves⟩
    · rw [same, put]
      exact ⟨rfl, fun l other => .inl (here drafts leads other)⟩
    · rw [put] at leaves again
      have others := leaves.sameBut again
      refine ⟨others.tree, fun k other => ?_⟩
      by_cases patched : k = location
      · rw [patched]
        exact .inr ⟨wanted, FileSystem.leadsTo_of_openFile opened⟩
      · rw [others.content? k patched] at other
        exact .inl (here drafts leads other)

/-- If the map is not announced nothing is changed, or a part of the map is in its file. -/
lemma Outcome.unannounced (h : Outcome o machine files exit after)
    (unannounced : ∀ path, o.mapTarget machine.package files = .ok path →
      announcement path ∉ after.lines) :
    after.files = files ∨ ∃ path map part, o.mapTarget machine.package files = .ok path ∧
      o.sourceMap machine.package files = .ok map ∧
      o.Breaks machine path (Text.Utf8.encode map.toText) part ∧
      files.write path.toString part = .ok after.files := by
  cases h with
  | stopped _ _ kept => exact .inl kept
  | broken _ _ drafts breaks written =>
    exact .inr ⟨_, _, _, drafts.mapTarget, drafts.sourceMap, breaks, written⟩
  | published _ drafts _ announced => exact absurd announced (unannounced _ drafts.mapTarget)

/-- The map of a module without a text as name is never announced. -/
lemma Outcome.named (h : Outcome o machine files exit after) {path : FilePath}
    (announced : announcement path ∈ after.lines) : o.name? ≠ none := by
  cases h with
  | stopped _ silent | broken _ silent => exact absurd rfl (silent _ announced path)
  | published named => exact named

/-- The map is complete if it is announced. If a run does not succeed after that, no other file is
changed, or it is told that the module is. -/
lemma Outcome.announced (h : Outcome o machine files exit after) {path : FilePath}
    (target : o.mapTarget machine.package files = .ok path)
    (announced : announcement path ∈ after.lines)
    (apart : ∀ l, files.LeadsTo path.toString l →
      ¬ files.LeadsTo (FilePath.ofString o.wasm).toString l) :
    ∃ map location, o.sourceMap machine.package files = .ok map ∧
      files.LeadsTo path.toString location ∧
      after.files.openFile path.toString = .ok (location, Text.Utf8.encode map.toText) ∧
      (exit ≠ .status 0 →
        files.SameBut location after.files ∧
          after.files.openFile (FilePath.ofString o.wasm).toString =
            files.openFile (FilePath.ofString o.wasm).toString ∨
        o.TellsLoss machine after) := by
  cases h with
  | stopped _ silent | broken _ silent => exact absurd rfl (silent _ announced path)
  | published _ drafts written _ follows stops =>
    obtain rfl := Except.ok.inj (drafts.mapTarget.symm.trans target)
    obtain ⟨l, location, data, leads, put, complete, opened, again⟩ := drafts.written written
    have away : location ≠ l := by
      rintro rfl
      exact apart location leads (FileSystem.leadsTo_of_openFile opened)
    rw [if_neg away] at again
    refine ⟨_, l, drafts.sourceMap, leads, ?_, fun fails => ?_⟩
    · rcases follows.files with same | ⟨_, leaves⟩
      · rw [same, complete]
      · exact leaves.openFile again complete away.symm
    · rcases (stops fails).undone with same | loss
      · rw [same.openFile, again, opened]
        rw [put] at same
        exact .inl ⟨(FileSystem.sameBut_put _).trans same.sameBut, rfl⟩
      · exact .inr loss

lemma Outcome.succeeded (h : Outcome o machine files exit after) (succeeds : exit = .status 0) :
    ∃ path, o.mapTarget machine.package files = .ok path ∧ announcement path ∈ after.lines := by
  cases h with
  | stopped noSuccess | broken noSuccess => exact absurd succeeds noSuccess
  | published _ drafts _ announced => exact ⟨_, drafts.mapTarget, announced⟩

/-- A run breaks off only if the name of the module is no text, the system fails, or the output does
not take the path of the source map. -/
lemma Options.Breaks.elim {path : FilePath} {content part : Bytes}
    (h : o.Breaks machine path content part) (named : o.name? ≠ none)
    (works : machine.writing = none)
    (shown : machine.strict = true → path.toString.isText = true) : False := by
  cases h with
  | unnamed notText => exact named notText
  | interrupted _ fails => cases works.symm.trans fails
  | unsaid strict notText => cases notText.symm.trans (shown strict)

end

/-- Runs touch only what they should, unless the name of the module is no text. Whatever happens, at
most the source map and, if it is to be patched, the module have another content afterwards. If the
name is a text, the system does not fail and the output takes the path of the source map, nothing is
changed before the source map is announced. Otherwise a part of the source map can be in its file:
nothing but the file itself if the name is no text, and then it is never announced. A run that
succeeds announces the source map. If it is announced, and not in the file of the module, it is
complete. If the run does not succeed after that, all else is as it was; only if what a patch cut
off could not be put back this is not so, and is told. -/
theorem runWith_touches {arguments : List WideString} {o : Options}
    (accepted : parse arguments = .run o) (machine : Machine) (files : FileSystem) :
    let exit := (runWith machine arguments files).1
    let after := (runWith machine arguments files).2
    let module := (FilePath.ofString o.wasm).toString
    let target := o.mapTarget machine.package files
    (after.files.tree = files.tree ∧
      ∀ l, after.files.content? l ≠ files.content? l →
        (∃ path, target = .ok path ∧ files.LeadsTo path.toString l) ∨
          (o.patch = true ∧ files.LeadsTo module l)) ∧
    ((∀ path, target = .ok path → announcement path ∉ after.lines) →
      (o.name? ≠ none → machine.writing = none →
        (machine.strict = true → ∀ path, target = .ok path → path.toString.isText = true) →
          after.files = files) ∧
      (after.files = files ∨ ∃ path map part, target = .ok path ∧
        o.sourceMap machine.package files = .ok map ∧
        o.Breaks machine path (Text.Utf8.encode map.toText) part ∧
        files.write path.toString part = .ok after.files)) ∧
    (o.name? = none → ∀ path, announcement path ∉ after.lines) ∧
    (exit = .status 0 → ∃ path, target = .ok path ∧ announcement path ∈ after.lines) ∧
    ∀ path, target = .ok path → announcement path ∈ after.lines →
      (∀ l, files.LeadsTo path.toString l → ¬ files.LeadsTo module l) →
      ∃ map location, o.sourceMap machine.package files = .ok map ∧
        files.LeadsTo path.toString location ∧
        after.files.openFile path.toString = .ok (location, Text.Utf8.encode map.toText) ∧
        (exit ≠ .status 0 →
          files.SameBut location after.files ∧
            after.files.openFile module = files.openFile module ∨
          o.TellsLoss machine after) := by
  have outcome := runWith_outcome accepted machine files
  refine ⟨outcome.touches, fun unannounced => ?_, fun notText path announced => ?_,
    outcome.succeeded, fun _ => outcome.announced⟩
  · refine ⟨fun named works shown => ?_, outcome.unannounced unannounced⟩
    rcases outcome.unannounced unannounced with kept | ⟨path, _, _, target, _, breaks, _⟩
    · exact kept
    · exact (breaks.elim named works fun strict => shown strict path target).elim
  · exact outcome.named announced notText

/-- A module in the current directory. -/
def oneModule : FileSystem := FileSystem.empty.addFile (.of ["app.wasm"]) Session.oneUnit

/-- The system fails when three bytes of the section are in the module. -/
theorem runWith_touches_oneModule :
    let arguments : List WideString := ["app.wasm", "-p", "-b", "http://localhost"]
    let o : Options := { wasm := "app.wasm", patch := true, baseUrl := some "http://localhost" }
    let machine : Machine := { patching := some (.writing 3 true) }
    let ran := runWith machine arguments oneModule
    parse arguments = .run o ∧ ran.1 = .status 1 ∧
      announcement (.ofString "app.wasm.map") ∈ ran.2.lines ∧
      (∃ map, o.sourceMap machine.package oneModule = .ok map ∧ map.mappings = "cACD,CACA,CAAA" ∧
        ran.2.files.read "app.wasm.map" = .ok (Text.Utf8.encode map.toText)) ∧
      ran.2.files.openFile "app.wasm" = .ok (.of ["app.wasm"], Session.oneUnit) := by
  intro arguments o machine
  have accepted : parse arguments = .run o := by decide +kernel
  have fails : (runWith machine arguments oneModule).1 = .status 1 := by decide +kernel
  have announced : announcement (.ofString "app.wasm.map") ∈
      (runWith machine arguments oneModule).2.lines := by
    decide +kernel
  have target : o.mapTarget machine.package oneModule = .ok (.ofString "app.wasm.map") := by
    decide +kernel
  have mapPlace : oneModule.place (FilePath.ofString "app.wasm.map").toString =
      .ok (.missing (.of ["app.wasm.map"])) := by
    decide +kernel
  have opened : oneModule.openFile (FilePath.ofString "app.wasm").toString =
      .ok (.of ["app.wasm"], Session.oneUnit) := by
    decide +kernel
  have built : (o.sourceMap machine.package oneModule).map SourceMap.mappings =
      .ok "cACD,CACA,CAAA" := by
    decide +kernel
  have apart : ∀ l, oneModule.LeadsTo (FilePath.ofString "app.wasm.map").toString l →
      ¬ oneModule.LeadsTo (FilePath.ofString "app.wasm").toString l := by
    intro l mapHere moduleHere
    obtain rfl := FileSystem.LeadsTo.unique ⟨_, mapPlace, rfl⟩ mapHere
    exact absurd ((FileSystem.leadsTo_of_openFile opened).unique moduleHere) (by decide)
  have touches := (runWith_touches accepted machine oneModule).2.2.2.2 _ target
  generalize runWith machine arguments oneModule = ran at fails announced touches ⊢
  have stops : ran.1 ≠ .status 0 := by
    rw [fails]
    decide
  obtain ⟨map, location, isMap, _, complete, left⟩ := touches announced apart
  have mapText : (FilePath.ofString "app.wasm.map").toString = "app.wasm.map" := by decide +kernel
  have moduleText : (FilePath.ofString "app.wasm").toString = "app.wasm" := by decide +kernel
  rw [isMap] at built
  rw [mapText] at complete
  rw [moduleText] at left opened
  refine ⟨accepted, fails, announced, ⟨map, isMap, Except.ok.inj built, ?_⟩, ?_⟩
  · unfold FileSystem.read
    rw [complete]
    rfl
  · rcases left stops with ⟨_, same⟩ | ⟨i, isCause, lost, _⟩
    · exact same.trans opened
    · cases isCause
      cases lost

/-- The name of a module with a byte that is part of no character. -/
def surrogateName : WideString := "app" ++ ⟨[.ofUnit 0xDCFF]⟩ ++ ".wasm"

/-- The module under this name. -/
def surrogateModule : FileSystem :=
  FileSystem.empty.addFile ⟨[surrogateName.nameBytes?.getD []]⟩ Session.oneUnit

/-- The source map of this module is created and is empty, though it is not announced. -/
theorem run_surrogateName_creates :
    let ran := run [surrogateName] surrogateModule
    parse [surrogateName] = .run { wasm := surrogateName } ∧
      ran.1 = .unforeseen .notUtf8 ∧
      (∀ line ∈ ran.2.lines, ¬ announcementStart.points <+: line.points) ∧
      surrogateModule.pathExists (surrogateName ++ ".map") = .ok false ∧
      ran.2.files.read (surrogateName ++ ".map") = .ok [] := by
  decide +kernel

end WasmSourceMap.CommandLine
