import WasmSourceMap.Proofs.FileSystem.Writing
import WasmSourceMap.Proofs.Patching.Failures
import WasmSourceMap.Session

/-!
# What a patch leaves of the files

A patch opens one file and gives at most this file another content (`Patcher.patch_leaves`). The
patch of a session that was loaded from a file opens that file; if it fails, and what was cut off
could be put back, no file has another content (`Session.patch_undone`).
-/

namespace WasmSourceMap

open Container (Module)

lemma FileAction.ok_of_lift {α : Type} {action : FileAction} {path : WideString}
    {x : Except FileFault α} {a : α} (h : action.lift path x = .ok a) : x = .ok a := by
  cases x with
  | error fault => cases h
  | ok b => exact congrArg Except.ok (Except.ok.inj h)

namespace FileSystem

/-- Nothing was written, or the file that can be opened under a path has another content. -/
inductive Leaves (fs : FileSystem) (path : WideString) : FileSystem → Prop where
  | kept : Leaves fs path fs
  | put {location : Location} {old new : Bytes} (opened : fs.openFile path = .ok (location, old)) :
      Leaves fs path (fs.put location new)

variable {fs fs' : FileSystem} {path other : WideString} {location l : Location}
  {old content : Bytes}

lemma Leaves.sameBut (h : fs.Leaves path fs') (opened : fs.openFile path = .ok (location, old)) :
    fs.SameBut location fs' := by
  cases h with
  | kept => exact ⟨fun _ _ => rfl, rfl⟩
  | put opened' =>
    cases opened.symm.trans opened'
    exact sameBut_put _

/-- Another file is opened as before. -/
lemma Leaves.openFile (h : fs.Leaves path fs') (opened : fs.openFile path = .ok (location, old))
    (opened' : fs.openFile other = .ok (l, content)) (away : l ≠ location) :
    fs'.openFile other = .ok (l, content) := by
  cases h with
  | kept => exact opened'
  | put here =>
    cases opened.symm.trans here
    have after := openFile_put_of_writable (leadsTo_of_openFile opened).writable opened'
    rw [after, if_neg away]

end FileSystem

namespace Patcher

variable {p : Patcher} {fs : FileSystem} {name url : String} {location : Location} {content : Bytes}
  {interruption : Option Interruption}

lemma patchFile_leaves (opened : fs.openFile p.path.toString = .ok (location, content)) :
    fs.Leaves p.path.toString (p.patchFile fs name url location content interruption).files := by
  unfold patchFile
  dsimp only
  split
  · exact .kept
  · exact .kept
  · exact .kept
  · exact .kept
  · exact .put opened
  · exact .put opened

lemma patch_leaves (p : Patcher) (fs : FileSystem) (url : String)
    (interruption : Option Interruption) :
    fs.Leaves p.path.toString (p.patch fs url interruption).files := by
  unfold patch
  split
  · exact .kept
  · dsimp only
    split
    · exact .kept
    · exact patchFile_leaves ‹_›

/-- If what was cut off could not be put back this is told. -/
lemma patch_told {i : Interruption} (lost : i.isRestored = false) :
    (p.patch fs url (some i)).files = fs ∨
      .notRestored p.path.toString (.refused .inputOutput none) ∈
        (p.patch fs url (some i)).notices := by
  unfold patch
  split
  · exact .inl rfl
  dsimp only
  split
  · exact .inl rfl
  unfold patchFile
  dsimp only
  split
  · exact .inl rfl
  · exact .inl rfl
  · exact .inl rfl
  · exact .inl rfl
  · rename_i same _
    cases same
    rw [lost]
    exact .inr (List.mem_singleton.2 rfl)
  · rename_i none _
    cases none

/-- Nothing but this is told. -/
lemma patch_notices (p : Patcher) (fs : FileSystem) (url : String)
    (interruption : Option Interruption) :
    (p.patch fs url interruption).notices = [] ∨ ∃ i ∈ interruption, i.isRestored = false ∧
      (p.patch fs url interruption).notices =
        [.notRestored p.path.toString (.refused .inputOutput none)] := by
  unfold patch
  split
  · exact .inl rfl
  dsimp only
  split
  · exact .inl rfl
  unfold patchFile
  dsimp only
  split
  case h_5 i _ _ _ _ _ =>
    cases restored : i.isRestored with
    | true => exact .inl rfl
    | false => exact .inr ⟨i, rfl, restored, rfl⟩
  all_goals exact .inl rfl

/-- A patcher of a module that fails leaves all files as they are, if what it cut off could be put
back. -/
lemma ofModule_undone {m : Module} {path : FilePath} {shown : WideString}
    {sectionName : Option String}
    (restored : ∀ i ∈ interruption, i.isRestored = true) {fault : Fault}
    (fails : ((ofModule m path shown sectionName).1.patch fs url interruption).result =
      .error fault) :
    fs.Same ((ofModule m path shown sectionName).1.patch fs url interruption).files := by
  have kept : fs.Same fs := ⟨fun _ => rfl, rfl⟩
  cases sectionName with
  | none => exact kept
  | some name =>
    obtain ⟨recorded, isTarget⟩ := ofModule_target m path shown name
    let target : Target := ⟨path, name, recorded⟩
    let turn : Turn := ⟨⟨target.patcher none, fs⟩, ⟨url, interruption⟩⟩
    rw [isTarget] at fails ⊢
    cases opened : fs.openFile path.toString with
    | error noFile =>
      have stays := (@Turn.missing target turn noFile rfl opened).2
      have files : turn.patched.files = fs := congrArg Situation.files stays
      change fs.Same turn.patched.files
      rw [files]
      exact kept
    | ok found =>
      have stands : Stands target fs found.1 found.2 none turn.before :=
        ⟨rfl, opened, ⟨fun _ _ => rfl, rfl⟩, fun other => absurd rfl other⟩
      have settles := (Turn.stands stands restored).1
      exact (settles.undone fault fails).2.files

end Patcher

namespace Session

variable {fs : FileSystem} {path : WideString} {url : String}
  {parent supplementary : Option WideString}
  {sectionName : Option String}
  {file : FilePath} {s : Session} {interruption : Option Interruption}

/-- The session can patch the file of the path. -/
def IsOf (s : Session) (path : FilePath) : Prop :=
  ∃ m sectionName, s.patcher = some (Patcher.ofModule m path path.toString sectionName).1

lemma ofModule_path (m : Module) (path : FilePath) (shown : WideString)
    (sectionName : Option String) :
    (Patcher.ofModule m path shown sectionName).1.path = path := by
  unfold Patcher.ofModule
  split <;> rfl

/-- A session is loaded from a file that can be opened. -/
lemma load_ok {notices : List Notice}
    (h : load fs path parent supplementary sectionName = .ok (s, notices)) :
    (∃ location data, fs.openFile (FilePath.ofString path).toString = .ok (location, data)) ∧
      s.IsOf (.ofString path) := by
  unfold load at h
  obtain ⟨data, read, h⟩ := Except.bind_ok h
  obtain ⟨_, _, h⟩ := Except.bind_ok h
  obtain ⟨_, _, h⟩ := Except.bind_ok h
  obtain ⟨parsed, _, h⟩ := Except.bind_ok h
  refine ⟨?_, ?_⟩
  · unfold bytesOfFile at read
    obtain ⟨location, opened⟩ := FileSystem.openFile_of_read (FileAction.ok_of_lift read)
    exact ⟨location, data, opened⟩
  · have loaded : (parsed.withFile (.ofString path) sectionName).1 = s :=
      congrArg Prod.fst (Except.ok.inj h)
    rw [← loaded]
    exact ⟨parsed.module, sectionName, rfl⟩

/-- Building a map leaves the file of a session. -/
lemma IsOf.sourceMap (h : s.IsOf file) (fs : FileSystem) (bundled : Bool) (name : Option String) :
    (s.sourceMap fs bundled name).session.IsOf file := h

/-- A patch gives at most the file of the session another content. -/
lemma IsOf.patch_leaves (h : s.IsOf file) (fs : FileSystem) (url : String)
    (interruption : Option Interruption) :
    fs.Leaves file.toString (s.patch fs url interruption).2 := by
  obtain ⟨m, sectionName, isPatcher⟩ := h
  have leaves := Patcher.patch_leaves (Patcher.ofModule m file file.toString sectionName).1 fs url
    interruption
  rw [ofModule_path] at leaves
  unfold patch
  rw [isPatcher]
  dsimp only
  split <;> exact leaves

/-- A patch tells nothing but that what was cut off could not be put back. -/
lemma IsOf.patch_notices (h : s.IsOf file) (fs : FileSystem) (url : String)
    (interruption : Option Interruption) :
    (s.patch fs url interruption).1.notices = [] ∨ ∃ i ∈ interruption, i.isRestored = false ∧
      (s.patch fs url interruption).1.notices =
        [.notRestored file.toString (.refused .inputOutput none)] := by
  obtain ⟨m, sectionName, isPatcher⟩ := h
  have told := Patcher.patch_notices (Patcher.ofModule m file file.toString sectionName).1 fs url
    interruption
  rw [ofModule_path] at told
  unfold patch
  rw [isPatcher]
  dsimp only
  split <;> exact told

/-- A patch that fails is undone, or it is told that what was cut off could not be put back. -/
lemma IsOf.patch_undone (h : s.IsOf file)
    (fails : (s.patch fs url interruption).1.result ≠ .ok ()) :
    fs.Same (s.patch fs url interruption).2 ∨ ∃ i ∈ interruption, i.isRestored = false ∧
      .notRestored file.toString (.refused .inputOutput none) ∈
        (s.patch fs url interruption).1.notices := by
  obtain ⟨m, sectionName, isPatcher⟩ := h
  unfold patch at fails ⊢
  rw [isPatcher] at fails ⊢
  dsimp only at fails ⊢
  split at fails
  · exact absurd rfl fails
  rename_i failed
  by_cases restored : ∀ i ∈ interruption, i.isRestored = true
  · exact .inl (Patcher.ofModule_undone restored failed)
  · push Not at restored
    obtain ⟨i, rfl, lost⟩ := restored
    have lost := Bool.eq_false_iff.2 lost
    rcases Patcher.patch_told lost with kept | told
    · exact .inl (by rw [kept]; exact ⟨fun _ => rfl, rfl⟩)
    · rw [ofModule_path] at told
      exact .inr ⟨i, rfl, lost, told⟩

end Session

end WasmSourceMap
