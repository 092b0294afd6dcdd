import WasmSourceMap.Config
import WasmSourceMap.Proofs.FileSystem
import WasmSourceMap.Proofs.Text.Utf8

/-!
# Options that a file sets

The object of a configuration file sets each option to the value of the last member with a
spelling of its name, and leaves the others at their defaults (`options_ofMembers`). So the bytes
of a file decide between three outcomes: a configuration, a fault that is reported, and, if the
text is a value but no object, a fault that is not.
-/

namespace WasmSourceMap.Config

/-- The value of the last member with a spelling of a name. -/
def setting? (members : List (String × Json)) (name : String) : Option Json :=
  (members.reverse.find? fun m => snakeCase m.1 == name).map Prod.snd

lemma setting?_cons (m : String × Json) (rest : List (String × Json)) (name : String) :
    setting? (m :: rest) name =
      (setting? rest name).or (if snakeCase m.1 = name then some m.2 else none) := by
  unfold setting?
  rw [List.reverse_cons, List.find?_append, List.find?_singleton, Option.map_or]
  by_cases h : snakeCase m.1 = name
  · rw [if_pos h, if_pos (beq_iff_eq.2 h), Option.map_some]
  · rw [if_neg h, if_neg (mt beq_iff_eq.1 h), Option.map_none]

/-- Setting an option changes the one with the name. -/
lemma options_set (c : Config) (name : String) (value : Json) :
    (c.set name value).options =
      c.options.map fun o => (o.1, if name = o.1 then value else o.2) := by
  simp only [options, List.map_cons, List.map_nil]
  grind [set]

lemma options_foldl_set (c : Config) (members : List (String × Json)) :
    (members.foldl (fun c m => c.set (snakeCase m.1) m.2) c).options =
      c.options.map fun o => (o.1, (setting? members o.1).getD o.2) := by
  induction members generalizing c with
  | nil => rfl
  | cons m rest ih =>
    rw [List.foldl_cons, ih, options_set, List.map_map]
    refine List.map_congr_left fun o _ => ?_
    rw [Function.comp_apply, setting?_cons]
    cases setting? rest o.1 with
    | some later => rfl
    | none =>
      rw [Option.none_or]
      split <;> rfl

/-- The options of an object are set by its members and else have their defaults. -/
lemma options_ofMembers (members : List (String × Json)) :
    (ofMembers members).options =
      ({} : Config).options.map fun o => (o.1, (setting? members o.1).getD o.2) :=
  options_foldl_set {} members

lemma options_injective {c d : Config} (h : c.options = d.options) : c = d := by
  cases c
  cases d
  simpa [options] using h

lemma ofMembers_eq_iff {c : Config} {members : List (String × Json)} :
    ofMembers members = c ↔
      c.options = ({} : Config).options.map fun o => (o.1, (setting? members o.1).getD o.2) := by
  rw [← options_ofMembers]
  exact ⟨fun h => h ▸ rfl, fun h => (options_injective h).symm⟩

/-- The text of a file is a value. -/
def Holds (data : Bytes) (value : Json) : Prop :=
  ∃ text, data = Text.Utf8.encode text ∧ Json.parse? text = some value

lemma holds_iff {data : Bytes} {value : Json} :
    Holds data value ↔ (Text.Utf8.decode? data).bind Json.parse? = some value := by
  simp only [Holds, Option.bind_eq_some_iff, Text.Utf8.decode?_eq_some_iff]

section

variable {path : WideString} {data : Bytes}

lemma ofBytes_ok_iff {c : Config} :
    ofBytes path data = .ok c ↔
      ∃ members, Holds data (.object members) ∧ ofMembers members = c := by
  simp only [holds_iff]
  unfold ofBytes
  cases (Text.Utf8.decode? data).bind Json.parse? with
  | none => simp
  | some value => cases value <;> simp

lemma ofBytes_error_iff {fault : Fault} :
    ofBytes path data = .error fault ↔
      fault = .badConfig path ∧ (∀ value, ¬Holds data value) ∨
        fault = .configNotObject ∧
          ∃ value, Holds data value ∧ ∀ members, value ≠ .object members := by
  simp only [holds_iff]
  unfold ofBytes
  cases (Text.Utf8.decode? data).bind Json.parse? with
  | none => simp [eq_comm]
  | some value => cases value <;> simp [eq_comm]

end

section

variable (package : FilePath) {fs : FileSystem} {path : FilePath} {data : Bytes}

/-- The configuration of a file that can be read is that of its bytes. -/
lemma load_of_read (readable : fs.read path.toString = .ok data) :
    load package fs (some path) = ofBytes path.toString data := by
  unfold load
  rw [Option.getD_some]
  dsimp only
  rw [FileSystem.pathExists_of_read readable, readable]
  rfl

/-- What comes of a file that can be read: with an object the options that its members set, the
others at their defaults; with another value a fault that is not reported; with no value one that
is. -/
theorem load_outcomes (readable : fs.read path.toString = .ok data) :
    (∀ c, load package fs (some path) = .ok c ↔ ∃ members, Holds data (.object members) ∧
      c.options = ({} : Config).options.map fun o => (o.1, (setting? members o.1).getD o.2)) ∧
    (∀ fault, load package fs (some path) = .error fault ∧ fault.isReported = true ↔
      fault = .badConfig path.toString ∧ ∀ value, ¬Holds data value) ∧
    ((∃ fault, load package fs (some path) = .error fault ∧ fault.isReported = false) ↔
      ∃ value, Holds data value ∧ ∀ members, value ≠ .object members) := by
  simp only [load_of_read package readable, ofBytes_error_iff]
  refine ⟨fun c => ?_, fun fault => ⟨?_, ?_⟩, ?_, ?_⟩
  · simp only [ofBytes_ok_iff, ofMembers_eq_iff]
  · rintro ⟨bad | ⟨rfl, _⟩, reported⟩
    · exact bad
    · cases reported
  · rintro ⟨rfl, noValue⟩
    exact ⟨.inl ⟨rfl, noValue⟩, rfl⟩
  · rintro ⟨fault, ⟨rfl, _⟩ | ⟨_, other⟩, reported⟩
    · cases reported
    · exact other
  · intro other
    exact ⟨.configNotObject, .inr ⟨rfl, other⟩, rfl⟩

end

/-- A configuration file and nothing else. -/
def oneFile (data : Bytes) : FileSystem where
  files := [(.of ["c.json"], data)]
  directories := []

lemma read_oneFile (data : Bytes) :
    (oneFile data).read (FilePath.ofString "c.json").toString = .ok data := by
  rfl

/-- Members with two spellings of one name, with a value that is no option and with none. -/
def spellings : List (String × Json) :=
  [("DumpMappings", .bool true), ("use_mmap", .integer 1), ("useMmap", .null), ("x", .array [])]

/-- The last spelling counts. Bytes that are no text are reported. -/
theorem load_outcomes_spellings :
    let data := Text.Utf8.encode (Json.object spellings).indented
    let package := FilePath.ofString "p"
    let path := FilePath.ofString "c.json"
    (oneFile data).read path.toString = .ok data ∧
      load package (oneFile data) (some path) =
        .ok { dumpMappings := .bool true, useMmap := .null } ∧
      (oneFile [0xff]).read path.toString = .ok [0xff] ∧
      load package (oneFile [0xff]) (some path) = .error (.badConfig path.toString) := by
  intro data package path
  refine ⟨read_oneFile data, ?_, read_oneFile _, ?_⟩
  · rw [(load_outcomes package (read_oneFile data)).1]
    exact ⟨spellings, ⟨_, rfl, rfl⟩, rfl⟩
  · refine (((load_outcomes package (read_oneFile [0xff])).2.1 _).2 ⟨rfl, fun value h => ?_⟩).1
    cases holds_iff.1 h

/-- A list is a value that is not reported. -/
theorem load_list :
    let fs := oneFile (Text.Utf8.encode "[]")
    let package := FilePath.ofString "p"
    let path := FilePath.ofString "c.json"
    fs.read path.toString = .ok (Text.Utf8.encode "[]") ∧
      load package fs (some path) = .error .configNotObject ∧
        Fault.configNotObject.isReported = false :=
  ⟨read_oneFile _, rfl, rfl⟩

end WasmSourceMap.Config
