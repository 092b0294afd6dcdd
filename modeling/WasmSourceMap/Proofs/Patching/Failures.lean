import WasmSourceMap.Proofs.Patching.Sessions

/-!
# Patches that fail

A patch may fail at any of its operations. If what was cut off can be put back, a patch that fails
is undone: no file has another content than before, and the patcher knows what it knew before. So
over a run of calls the file is at each moment its first content, or the base and the section of the
last patch that succeeded (`Stands`). One call keeps this (`Turn.stands`), so a run of calls does
(`run_stands`).
-/

namespace WasmSourceMap

namespace Patcher

open Container (Module)

/-- A call of `patch` with an address, and where the system fails meanwhile, if it does. -/
structure Call where
  url : String
  interruption : Option Interruption

/-- A patcher and the files. -/
structure Situation where
  patcher : Patcher
  files : FileSystem

/-- A call in a situation. -/
structure Turn where
  before : Situation
  call : Call

namespace Turn

/-- What the call gives. -/
def patched (t : Turn) : Patched :=
  t.before.patcher.patch t.before.files t.call.url t.call.interruption

/-- The situation after the call; a patcher that fails stays what it is. -/
def after (t : Turn) : Situation :=
  ⟨t.patched.result.toOption.getD t.before.patcher, t.patched.files⟩

/-- The call changes nothing. -/
structure Undone (t : Turn) : Prop where
  patcher : t.after.patcher = t.before.patcher
  files : t.before.files.Same t.after.files

/-- The address, if the call writes it. -/
def url? (t : Turn) : Option String := t.patched.result.toOption.map fun _ => t.call.url

end Turn

namespace Situation

/-- Some calls, one after the other. -/
def turns (s : Situation) : List Call → List Turn
  | [] => []
  | call :: rest => ⟨s, call⟩ :: turns (Turn.after ⟨s, call⟩) rest

/-- The situation after some calls. -/
def run (s : Situation) (calls : List Call) : Situation :=
  calls.foldl (fun s call => Turn.after ⟨s, call⟩) s

/-- The address of the last patch that succeeds. -/
def lastUrl? (s : Situation) (calls : List Call) : Option String :=
  ((s.turns calls).filterMap Turn.url?).getLast?

lemma lastUrl?_cons (s : Situation) (call : Call) (rest : List Call) :
    s.lastUrl? (call :: rest) =
      ((Turn.after ⟨s, call⟩).lastUrl? rest).or (Turn.url? ⟨s, call⟩) := by
  unfold lastUrl?
  rw [turns, List.filterMap_cons]
  cases Turn.url? ⟨s, call⟩ with
  | none => exact Option.or_none.symm
  | some url =>
    dsimp only
    rw [List.getLast?_cons]
    cases ((turns _ rest).filterMap Turn.url?).getLast? with
    | none => rfl
    | some later => rfl

end Situation

/-- A file that is patched: its path, the name of the section and the length that was recorded of
the section at its end. -/
structure Target where
  path : FilePath
  name : String
  recorded : Option Nat

namespace Target

/-- The length that is known after a patch with an address, if there was one. -/
def lengthAfter (target : Target) : Option String → Option Nat
  | none => target.recorded
  | some url => some (UrlSection.encode target.name url).length

/-- The patcher after a patch with an address, if there was one. -/
def patcher (target : Target) (last : Option String) : Patcher where
  path := target.path
  appendedLength := (target.lengthAfter last).map Int.ofNat
  sectionName := some target.name

/-- The content without the tail that was recorded. -/
def base (target : Target) (content : Bytes) : Bytes :=
  content.take (content.length - target.recorded.getD 0)

/-- The content after a patch with an address, if there was one. -/
def contentAfter (target : Target) (content : Bytes) : Option String → Bytes
  | none => content
  | some url => target.base content ++ UrlSection.encode target.name url

/-- The start of a module is left without the tail that was recorded. -/
def Fits (target : Target) (content : Bytes) : Prop :=
  target.recorded.getD 0 + 8 ≤ content.length

/-- What a patch that fails tells: that the file is too small, which it is, or what was refused. -/
inductive Tells (target : Target) (content : Bytes) : Option Interruption → Fault → Prop where
  | tooSmall {interruption : Option Interruption} (short : ¬ target.Fits content) :
    Tells target content interruption (.tooSmall target.path.toString target.name)
  | refused {interruption : Interruption} {action : FileAction} {cause : FileCause}
      {shown : Option WideString} (tried : action ∈ [.openForPatching, .read, .patch]) :
    Tells target content (some interruption)
      (.file action target.path.toString (.refused cause shown))

/-- A call succeeds if nothing interrupts it and the file fits, and only then; if it fails it tells
why and changes nothing. -/
structure Settles (target : Target) (content : Bytes) (t : Turn) : Prop where
  succeeds_iff : t.patched.result.isOk = true ↔ target.Fits content ∧ t.call.interruption = none
  undone : ∀ fault, t.patched.result = .error fault →
    target.Tells content t.call.interruption fault ∧ t.Undone

variable {target : Target} {content : Bytes} {last : Option String}

/-- The content is always the base and the section of which the patcher knows the length. -/
lemma contentAfter_eq (fits : target.Fits content) (last : Option String) :
    ∃ tail, target.contentAfter content last = target.base content ++ tail ∧
      (target.patcher last).appendedLength.getD 0 = tail.length := by
  cases last with
  | none =>
    refine ⟨content.drop (content.length - target.recorded.getD 0), ?_, ?_⟩
    · exact (List.take_append_drop _ _).symm
    · have size : (content.drop (content.length - target.recorded.getD 0)).length =
          target.recorded.getD 0 := by
        unfold Fits at fits
        rw [List.length_drop]
        omega
      rw [size]
      exact Option.getD_map Int.ofNat 0 target.recorded
  | some url => exact ⟨UrlSection.encode target.name url, rfl, rfl⟩

lemma eight_le_base (fits : target.Fits content) : 8 ≤ (target.base content).length := by
  unfold Fits at fits
  unfold base
  rw [List.length_take]
  omega

lemma cutLength_of_fits (fits : target.Fits content) (last : Option String) :
    (target.patcher last).cutLength target.name (target.contentAfter content last).length =
      .ok (target.base content).length := by
  obtain ⟨tail, same, known⟩ := contentAfter_eq fits last
  have := eight_le_base fits
  have cut : ((target.contentAfter content last).length : Int) -
      (target.patcher last).appendedLength.getD 0 = (target.base content).length := by
    rw [known, same, List.length_append]
    omega
  unfold cutLength
  dsimp only
  rw [cut, if_neg (by omega), if_pos (by rw [same, List.length_append]; omega)]
  rfl

/-- A file that is too small stays so, since no patch of it succeeds. -/
lemma cutLength_of_not_fits (short : ¬ target.Fits content) :
    (target.patcher none).cutLength target.name content.length =
      .error (.tooSmall target.path.toString target.name) := by
  have known : (target.patcher none).appendedLength.getD 0 = (target.recorded.getD 0 : Nat) :=
    Option.getD_map Int.ofNat 0 target.recorded
  unfold Fits at short
  unfold cutLength
  dsimp only
  rw [known, if_pos (by omega)]
  rfl

end Target

/-- What a patcher of a module records is a length, so it is the patcher of a target. -/
lemma ofModule_target (m : Module) (path : FilePath) (shownPath : WideString)
    (name : String) :
    ∃ recorded, (ofModule m path shownPath (some name)).1 =
      Target.patcher ⟨path, name, recorded⟩ none := by
  unfold ofModule
  rw [Option.bind_some]
  cases m.sectionNamed name with
  | none => exact ⟨none, rfl⟩
  | some s => exact ⟨some s.totalSize, rfl⟩

section

variable {fs : FileSystem} {location : Location} {url : String} {base tail newSection : Bytes}
  {interruption : Interruption}

lemma resize_base (base : Bytes) : resize base.length base = base := by
  have cut := resize_append base []
  rwa [List.append_nil] at cut

/-- Whatever a failure leaves, the base is in front of it. -/
lemma resize_halfDone :
    resize base.length (halfDone (base ++ tail) newSection base.length interruption) = base := by
  cases interruption with
  | opening _ | sizing | reading | cutting _ => exact resize_append base tail
  | seeking _ =>
    show resize base.length (resize base.length (base ++ tail)) = base
    rw [resize_append, resize_base]
  | writing written _ | flushing written _ =>
    show resize base.length (resize base.length (base ++ tail) ++ newSection.take written) = base
    rw [resize_append, resize_append]
  | syncing _ =>
    show resize base.length (resize base.length (base ++ tail) ++ newSection) = base
    rw [resize_append, resize_append]

/-- Putting back what was cut off gives the content there was. -/
lemma afterFailure_restored (restored : interruption.isRestored = true) :
    afterFailure (base ++ tail) newSection base.length interruption = base ++ tail := by
  unfold afterFailure
  dsimp only
  rw [if_pos restored, putBack, resize_halfDone, List.drop_left]

variable {target : Target} {content : Bytes} {last : Option String}

/-- A patch that nothing interrupts writes the section behind the base. -/
lemma patchFile_ok (fits : target.Fits content) :
    (target.patcher last).patchFile fs target.name url location (target.contentAfter content last)
        none =
      ⟨.ok (target.patcher (some url)), [],
        fs.put location (target.contentAfter content (some url))⟩ := by
  obtain ⟨tail, same, _⟩ := target.contentAfter_eq fits last
  unfold patchFile
  rw [Target.cutLength_of_fits fits]
  dsimp only
  rw [same, resize_append]
  rfl

/-- A patch that is interrupted puts back what it cut off. -/
lemma patchFile_interrupted (fits : target.Fits content)
    (restored : interruption.isRestored = true) :
    ∃ fault files notices, (target.patcher last).patchFile fs target.name url location
        (target.contentAfter content last) (some interruption) = ⟨.error fault, notices, files⟩ ∧
      target.Tells content (some interruption) fault ∧
      fs.Rewritten location (target.contentAfter content last) files := by
  obtain ⟨tail, same, _⟩ := target.contentAfter_eq fits last
  have back := @afterFailure_restored (target.base content) tail
    (UrlSection.encode target.name url) interruption restored
  unfold patchFile
  rw [Target.cutLength_of_fits fits, same]
  cases interruption with
  | opening _ | sizing | reading => exact ⟨_, _, _, rfl, .refused (by decide), .kept⟩
  | cutting _ | seeking _ | writing _ _ | flushing _ _ | syncing _ =>
    exact ⟨_, _, _, rfl, .refused (by decide), .put back⟩

/-- A file that is too small is refused before anything is written. -/
lemma patchFile_short (short : ¬ target.Fits content) (interruption : Option Interruption) :
    ∃ fault, (target.patcher none).patchFile fs target.name url location content interruption =
        ⟨.error fault, [], fs⟩ ∧
      target.Tells content interruption fault := by
  unfold patchFile
  rw [Target.cutLength_of_not_fits short]
  cases interruption with
  | none => exact ⟨_, rfl, .tooSmall short⟩
  | some interruption =>
    cases interruption with
    | opening _ | sizing => exact ⟨_, rfl, .refused (by decide)⟩
    | _ => exact ⟨_, rfl, .tooSmall short⟩

end

/-- Where a run of calls stands: the patcher and the file are as the last patch that succeeded left
them, or as they were at first. -/
structure Stands (target : Target) (fs : FileSystem) (location : Location) (content : Bytes)
    (last : Option String) (s : Situation) : Prop where
  patcher : s.patcher = target.patcher last
  inFile : s.files.openFile target.path.toString =
    .ok (location, target.contentAfter content last)
  others : fs.SameBut location s.files
  fits : last ≠ none → target.Fits content

section

variable {target : Target} {fs : FileSystem} {location : Location} {content : Bytes}
  {last : Option String} {t : Turn}

lemma Stands.patched (h : Stands target fs location content last t.before) :
    t.patched = (target.patcher last).patchFile t.before.files target.name t.call.url location
      (target.contentAfter content last) t.call.interruption := by
  unfold Turn.patched patch
  rw [h.patcher]
  dsimp only [Target.patcher]
  rw [h.inFile]

/-- A call that fails and leaves the files as they were is undone, and the run stands where it did.
-/
lemma Stands.undone (h : Stands target fs location content last t.before) {fault : Fault}
    {notices : List Notice} {files : FileSystem}
    (fails : t.patched = ⟨.error fault, notices, files⟩)
    (rewritten : t.before.files.Rewritten location (target.contentAfter content last) files) :
    t.Undone ∧ Stands target fs location content last t.after := by
  have same := rewritten.same h.inFile
  have after : t.after = ⟨t.before.patcher, files⟩ := by
    unfold Turn.after
    rw [fails]
    rfl
  refine ⟨⟨?_, ?_⟩, ⟨?_, ?_, ?_, h.fits⟩⟩
  · rw [after]
  · rw [after]
    exact same
  · rw [after]
    exact h.patcher
  · rw [after]
    exact rewritten.openFile h.inFile
  · rw [after]
    exact h.others.trans same.sameBut

/-- A call that nothing interrupts succeeds if the file fits, and is the last one then. -/
lemma Stands.written (h : Stands target fs location content last t.before)
    (fits : target.Fits content) (uninterrupted : t.call.interruption = none) :
    ∃ p, t.patched.result = .ok p ∧ t.url? = some t.call.url ∧
      Stands target fs location content (some t.call.url) t.after := by
  have done := h.patched
  rw [uninterrupted, patchFile_ok fits] at done
  have after : t.after = ⟨target.patcher (some t.call.url),
      t.before.files.put location (target.contentAfter content (some t.call.url))⟩ := by
    unfold Turn.after
    rw [done]
    rfl
  refine ⟨_, by rw [done], ?_, ⟨?_, ?_, ?_, fun _ => fits⟩⟩
  · unfold Turn.url?
    rw [done]
    rfl
  · rw [after]
  · rw [after]
    exact FileSystem.openFile_put h.inFile _
  · rw [after]
    exact h.others.trans (FileSystem.sameBut_put _)

/-- A call that is interrupted, or that finds the file too small, is undone. -/
lemma Stands.failed (h : Stands target fs location content last t.before)
    (restored : ∀ i ∈ t.call.interruption, i.isRestored = true)
    (fails : ¬ (target.Fits content ∧ t.call.interruption = none)) :
    ∃ fault, t.patched.result = .error fault ∧
      target.Tells content t.call.interruption fault ∧ t.Undone ∧
      Stands target fs location content last t.after := by
  have done := h.patched
  by_cases fits : target.Fits content
  · cases interrupted : t.call.interruption with
    | none => exact absurd ⟨fits, interrupted⟩ fails
    | some i =>
      rw [interrupted] at done
      obtain ⟨fault, files, notices, same, tells, rewritten⟩ :=
        patchFile_interrupted fits (restored i interrupted)
      rw [same] at done
      exact ⟨fault, by rw [done], tells, h.undone done rewritten⟩
  · have first : last = none := by
      by_contra later
      exact fits (h.fits later)
    subst first
    obtain ⟨fault, same, tells⟩ := patchFile_short fits t.call.interruption
    have done := done.trans same
    exact ⟨fault, by rw [done], tells, h.undone done .kept⟩

/-- What one call preserves. -/
lemma Turn.stands (h : Stands target fs location content last t.before)
    (restored : ∀ i ∈ t.call.interruption, i.isRestored = true) :
    target.Settles content t ∧ Stands target fs location content (t.url?.or last) t.after := by
  by_cases succeeds : target.Fits content ∧ t.call.interruption = none
  · obtain ⟨p, done, url, stands⟩ := h.written succeeds.1 succeeds.2
    rw [url]
    refine ⟨⟨?_, ?_⟩, stands⟩
    · rw [done]
      exact ⟨fun _ => succeeds, fun _ => rfl⟩
    · intro fault fails
      cases done.symm.trans fails
  · obtain ⟨fault, fails, tells, undone, stands⟩ := h.failed restored succeeds
    have noUrl : t.url? = none := by
      unfold Turn.url?
      rw [fails]
      rfl
    rw [noUrl]
    refine ⟨⟨?_, ?_⟩, stands⟩
    · rw [fails]
      exact ⟨nofun, fun both => absurd both succeeds⟩
    · intro other told
      cases fails.symm.trans told
      exact ⟨tells, undone⟩

/-- What a run of calls preserves. -/
lemma run_stands {calls : List Call} {s : Situation}
    (h : Stands target fs location content last s)
    (restored : ∀ call ∈ calls, ∀ i ∈ call.interruption, i.isRestored = true) :
    (∀ t ∈ s.turns calls, target.Settles content t) ∧
      Stands target fs location content ((s.lastUrl? calls).or last) (s.run calls) := by
  induction calls generalizing s last with
  | nil => exact ⟨nofun, h⟩
  | cons call rest ih =>
    obtain ⟨here, later⟩ := List.forall_mem_cons.1 restored
    obtain ⟨settled, stands⟩ := @Turn.stands target fs location content last ⟨s, call⟩ h here
    obtain ⟨others, ends⟩ := ih stands later
    refine ⟨List.forall_mem_cons.2 ⟨settled, others⟩, ?_⟩
    rw [Situation.lastUrl?_cons, Option.or_assoc]
    exact ends

end

/-- A call without a file fails and creates none. -/
lemma Turn.missing {target : Target} {t : Turn} {fault : FileFault}
    (patcher : t.before.patcher = target.patcher none)
    (noFile : t.before.files.openFile target.path.toString = .error fault) :
    t.patched.result = .error (.file .openForPatching target.path.toString fault) ∧
      t.after = t.before := by
  have done : t.patched =
      ⟨.error (.file .openForPatching target.path.toString fault), [], t.before.files⟩ := by
    unfold patched patch
    rw [patcher]
    dsimp only [Target.patcher]
    rw [noFile]
  unfold after
  rw [done]
  exact ⟨rfl, rfl⟩

lemma run_missing {target : Target} {fault : FileFault} {s : Situation}
    (patcher : s.patcher = target.patcher none)
    (noFile : s.files.openFile target.path.toString = .error fault) (calls : List Call) :
    (∀ t ∈ s.turns calls, t.after = t.before ∧
      t.patched.result = .error (.file .openForPatching target.path.toString fault)) ∧
      s.run calls = s := by
  induction calls with
  | nil => exact ⟨nofun, rfl⟩
  | cons call rest ih =>
    obtain ⟨fails, stays⟩ := @Turn.missing target ⟨s, call⟩ fault patcher noFile
    unfold Situation.run Situation.turns
    rw [List.foldl_cons, stays]
    exact ⟨List.forall_mem_cons.2 ⟨⟨stays, fails⟩, ih.1⟩, ih.2⟩

/-- Whatever fails in a run of patches of a file, as long as what was cut off can be put back each
time: a call that fails tells why and is undone, and after the run the file holds its first content
without the recorded tail and the section of the last patch that succeeded, or just its first
content if none did. If there is no file, all calls fail and none is created. -/
theorem run_undone (target : Target) (fs : FileSystem) (calls : List Call)
    (restored : ∀ call ∈ calls, ∀ i ∈ call.interruption, i.isRestored = true) :
    let start : Situation := ⟨target.patcher none, fs⟩
    (∀ location content, fs.openFile target.path.toString = .ok (location, content) →
      (∀ t ∈ start.turns calls, target.Settles content t) ∧
      (start.run calls).patcher = target.patcher (start.lastUrl? calls) ∧
      (start.run calls).files.openFile target.path.toString =
        .ok (location, target.contentAfter content (start.lastUrl? calls)) ∧
      fs.SameBut location (start.run calls).files) ∧
    ∀ fault, fs.openFile target.path.toString = .error fault →
      (∀ t ∈ start.turns calls, t.after = t.before ∧
        t.patched.result = .error (.file .openForPatching target.path.toString fault)) ∧
      start.run calls = start ∧
      (target.path.toString.nameBytes?.isSome = true → .char '\x00' ∉ target.path.toString.points →
        ∃ cause, fault = .refused cause (some target.path.toString)) := by
  intro start
  refine ⟨fun location content inFile => ?_, fun fault noFile => ?_⟩
  · have first : Stands target fs location content none start :=
      ⟨rfl, inFile, ⟨fun _ _ => rfl, rfl⟩, fun other => absurd rfl other⟩
    obtain ⟨settled, ends⟩ := run_stands first restored
    rw [Option.or_none] at ends
    exact ⟨settled, ends.patcher, ends.inFile, ends.others⟩
  · obtain ⟨fails, stays⟩ := @run_missing target fault start rfl noFile calls
    exact ⟨fails, stays, FileSystem.refused_of_openFile noFile⟩

/-- A file of ten bytes of which the last two are recorded as its tail. -/
def shortFile : FileSystem :=
  FileSystem.empty.addFile (.of ["app.wasm"])
    [0x00, 0x61, 0x73, 0x6d, 0x01, 0x00, 0x00, 0x00, 0xa0, 0xa1]

/-- The first call fails after three bytes of the section, and the last one when all is written. -/
theorem run_undone_shortFile :
    let target : Target := ⟨.ofString "app.wasm", "map", some 2⟩
    let calls : List Call :=
      [⟨"a", some (.writing 3 true)⟩, ⟨"b", none⟩, ⟨"c", some (.syncing true)⟩]
    (∀ call ∈ calls, ∀ i ∈ call.interruption, i.isRestored = true) ∧
      (Situation.run ⟨target.patcher none, shortFile⟩ calls).files.openFile "app.wasm" =
        .ok (.of ["app.wasm"], [0x00, 0x61, 0x73, 0x6d, 0x01, 0x00, 0x00, 0x00] ++
          UrlSection.encode "map" "b") := by
  intro target calls
  have restored : ∀ call ∈ calls, ∀ i ∈ call.interruption, i.isRestored = true := by decide
  have inFile : shortFile.openFile target.path.toString = .ok (.of ["app.wasm"],
      [0x00, 0x61, 0x73, 0x6d, 0x01, 0x00, 0x00, 0x00, 0xa0, 0xa1]) := by
    decide +kernel
  have second : Situation.lastUrl? ⟨target.patcher none, shortFile⟩ calls = some "b" := by
    decide +kernel
  obtain ⟨present, _⟩ := run_undone target shortFile calls restored
  obtain ⟨_, _, ends, _⟩ := present _ _ inFile
  rw [second] at ends
  exact ⟨restored, ends⟩

end Patcher

end WasmSourceMap
