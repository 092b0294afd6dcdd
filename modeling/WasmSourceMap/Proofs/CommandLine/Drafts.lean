import WasmSourceMap.Proofs.CommandLine.Steps
import WasmSourceMap.Proofs.Results
import WasmSourceMap.Proofs.Text.Wide

/-!
# Drafts

What a run does before it writes anything: it reads files, prints lines that announce no source map,
and stops or has a draft, whose parts are what the options and the files say (`prepare_prints`).
-/

namespace WasmSourceMap.CommandLine

/-- A line that announces no source map. -/
def IsSilent (line : WideString) : Prop := ∀ mapPath, line ≠ announcement mapPath

/-- What the announcement of a source map begins with. -/
def announcementStart : WideString := "Source map written to "

lemma isSilent_of_not_prefix {line : WideString} (h : ¬ announcementStart.points <+: line.points) :
    IsSilent line := by
  rintro mapPath rfl
  exact h ⟨mapPath.toString.points, rfl⟩

/-- Lines that start in another way than an announcement are silent. -/
lemma isSilent_append {front : WideString} (notStart : ¬ front.points <+: announcementStart.points)
    (notLonger : ¬ announcementStart.points <+: front.points) (rest : WideString) :
    IsSilent (front ++ rest) := by
  apply isSilent_of_not_prefix
  intro isAnnounced
  have start : front.points <+: (front ++ rest).points := ⟨rest.points, rfl⟩
  exact (List.prefix_or_prefix_of_prefix start isAnnounced).elim notStart notLonger

lemma isSilent_error (text : WideString) : IsSilent ("ERROR: " ++ text) :=
  isSilent_append (by decide) (by decide) text

lemma isSilent_notice (notice : Notice) : IsSilent notice.text := by
  cases notice with
  | skippedUnit offset => exact isSilent_append (by decide) (by decide) _
  | sectionNotLast name path =>
    show IsSilent ("WARNING: " ++ _ ++ _ ++ _ ++ _)
    simp only [WideString.append_assoc]
    exact isSilent_append (by decide) (by decide) _
  | notRestored path fault =>
    show IsSilent ("ERROR: Could not restore " ++ _ ++ _ ++ _)
    simp only [WideString.append_assoc]
    exact isSilent_append (by decide) (by decide) _

/-- The path of the source map, if the configuration can be read. -/
def Options.mapTarget (o : Options) (package : FilePath) (files : FileSystem) :
    Except Fault FilePath :=
  o.configuration package files >>= o.mapFile

/-- The source map that the options ask for. -/
def Options.sourceMap (o : Options) (package : FilePath) (files : FileSystem) :
    Except Fault SourceMap := do
  let config ← o.configuration package files
  let (session, _) ← Session.load files o.wasm o.splitParent o.supplementary config.sectionName?
  (session.sourceMap files config.bundleSources.isTruthy o.name?).result

/-- A draft is what the options ask for, from the files. -/
structure Options.Drafts (o : Options) (package : FilePath) (files : FileSystem) (d : Draft) :
    Prop where
  config : o.configuration package files = .ok d.config
  mapPath : o.mapFile d.config = .ok d.mapPath
  session : ∃ s notices,
    Session.load files o.wasm o.splitParent o.supplementary d.config.sectionName? =
      .ok (s, notices) ∧
    let answer := s.sourceMap files d.config.bundleSources.isTruthy o.name?
    answer.result = .ok d.map ∧ answer.session = d.session

section

variable {o : Options} {package : FilePath} {files : FileSystem} {d : Draft}

lemma Options.Drafts.mapTarget (h : o.Drafts package files d) :
    o.mapTarget package files = .ok d.mapPath := by
  unfold Options.mapTarget
  rw [h.config]
  exact h.mapPath

lemma Options.Drafts.sourceMap (h : o.Drafts package files d) :
    o.sourceMap package files = .ok d.map := by
  obtain ⟨s, notices, loaded, built, _⟩ := h.session
  unfold Options.sourceMap
  rw [h.config, Except.ok_bind, loaded, Except.ok_bind]
  exact built

end

section

variable {o : Options} {package : FilePath} {c : Console} {config : Config} {s : Session}

lemma tell_prints (notices : List Notice) :
    (Run.tell notices).Prints IsSilent c fun _ => True := by
  apply Run.Prints.print
  intro line mem
  obtain ⟨notice, _, rfl⟩ := List.mem_map.1 mem
  exact isSilent_notice notice

/-- Sessions are loaded from the files as they are. -/
lemma loadSession_prints : (loadSession o config).Prints IsSilent c fun s =>
    ∃ notices, Session.load c.files o.wasm o.splitParent o.supplementary config.sectionName? =
      .ok (s, notices) := by
  unfold loadSession
  refine .bind (.print (List.forall_mem_singleton.2 ?_)) fun _ _ => ?_
  · exact isSilent_of_not_prefix (by decide)
  refine .bind .get fun c' same => ?_
  refine .bind (.ofExcept isSilent_error) fun loaded isLoaded => ?_
  refine .bind (tell_prints _) fun _ _ => ?_
  refine .bind (.print (List.forall_mem_cons.2 ⟨?_, List.forall_mem_singleton.2 ?_⟩)) fun _ _ => ?_
  · exact isSilent_of_not_prefix (by decide)
  · exact isSilent_append (by decide) (by decide) _
  rw [← same]
  exact .pure ⟨loaded.2, isLoaded⟩

lemma buildMap_prints : (buildMap o config s).Prints IsSilent c fun built =>
    let answer := s.sourceMap c.files config.bundleSources.isTruthy o.name?
    answer.result = .ok built.1 ∧ answer.session = built.2 := by
  unfold buildMap
  refine .bind (.print (List.forall_mem_singleton.2 ?_)) fun _ _ => ?_
  · exact isSilent_of_not_prefix (by decide)
  refine .bind .get fun c' same => ?_
  refine .bind (tell_prints _) fun _ _ => ?_
  refine .bind (.ofExcept isSilent_error) fun map isMap => ?_
  refine .bind (.print (List.forall_mem_singleton.2 ?_)) fun _ _ => ?_
  · exact isSilent_append (by decide) (by decide) _
  rw [← same]
  exact .pure ⟨isMap, rfl⟩

/-- Before anything is written a run only prints, and no line announces a source map; if it goes on,
it has a draft. -/
lemma prepare_prints : (prepare o package).Prints IsSilent c (o.Drafts package c.files) := by
  unfold prepare
  dsimp only
  split
  · exact .bind (.stop isSilent_error) fun _ stops => stops.elim
  split
  · exact .bind (.stop isSilent_error) fun _ stops => stops.elim
  refine .bind .get fun _ _ => ?_
  refine .bind (.ofExcept isSilent_error) fun found _ => ?_
  split
  · exact .bind (.stop isSilent_error) fun _ stops => stops.elim
  refine .bind .get fun c' same => ?_
  refine .bind (.ofExcept isSilent_error) fun config isConfig => ?_
  refine .bind (.ofExcept isSilent_error) fun mapPath isPath => ?_
  refine .bind loadSession_prints fun s isLoaded => ?_
  refine .bind buildMap_prints fun built isBuilt => ?_
  rw [same] at isConfig
  obtain ⟨notices, isLoaded⟩ := isLoaded
  exact .pure ⟨isConfig, isPath, s, notices, isLoaded, isBuilt⟩

end

end WasmSourceMap.CommandLine
