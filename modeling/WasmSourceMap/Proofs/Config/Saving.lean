import Mathlib
import WasmSourceMap.Proofs.Config.Members
import WasmSourceMap.Proofs.FileSystem.Writing
import WasmSourceMap.Proofs.Json.Indented

/-!
# Saved configurations

A saved configuration is read back (`load_save`). The names of the options come back from their
spelling in the file, as every name of lower-case words does (`snakeCase_camelCase`); the values
come back as every well-formed value does; and the path leads to what was written. Members that
are no option change nothing, wherever they are added.
-/

namespace WasmSourceMap

namespace Text

lemma joinWith_eq_flatMap (sep : Char) (first : List Char) (rest : List (List Char)) :
    joinWith sep (first :: rest) = first ++ rest.flatMap (sep :: ·) := by
  induction rest generalizing first with
  | nil => exact (List.append_nil first).symm
  | cons next more ih => rw [joinWith, ih, List.flatMap_cons, List.cons_append]

end Text

namespace Json

lemma wellFormedMembers_map {α : Type} {f : α → String × Json} {items : List α}
    (h : ∀ x ∈ items, (f x).2.WellFormed) : WellFormedMembers (items.map f) := by
  induction items with
  | nil => trivial
  | cons x rest ih =>
    obtain ⟨first, others⟩ := List.forall_mem_cons.1 h
    exact ⟨first, ih others⟩

end Json

namespace Config

/-- A word of lower-case letters. -/
def isWord (cs : List Char) : Bool := !cs.isEmpty && cs.all Char.isLower

section

variable {word : List Char}

lemma isWord_iff : isWord word = true ↔ word ≠ [] ∧ ∀ c ∈ word, c.isLower = true := by
  simp [isWord]

lemma separate_append (first second : List Char) :
    separate (first ++ second) = separate first ++ separate second :=
  List.flatMap_append

/-- Lower-case letters have no word among them. -/
lemma separate_of_isLower (lower : ∀ c ∈ word, c.isLower = true) : separate word = word := by
  induction word with
  | nil => rfl
  | cons c rest ih =>
    obtain ⟨first, others⟩ := List.forall_mem_cons.1 lower
    rw [separate, List.flatMap_cons, if_neg (Char.not_isUpper_of_isLower first)]
    exact congrArg (c :: ·) (ih others)

/-- A word that was given a capital is a word of its own again. -/
lemma separate_capitalize (h : isWord word = true) : separate (capitalize word) = '_' :: word := by
  obtain ⟨nonempty, lower⟩ := isWord_iff.1 h
  cases word with
  | nil => exact absurd rfl nonempty
  | cons c rest =>
    obtain ⟨first, others⟩ := List.forall_mem_cons.1 lower
    have upper : c.toUpper.isUpper = true := by simp [Char.isAlpha, first]
    have back {d : Char} (h : d.isLower = true) : d.toLower = d :=
      Char.toLower_eq_of_not_isUpper (Char.not_isUpper_of_isLower h)
    have stays : rest.map Char.toLower = rest :=
      (List.map_congr_left fun d mem => back (others d mem)).trans (List.map_id rest)
    rw [capitalize, stays, separate, List.flatMap_cons, if_pos upper]
    rw [Char.toLower_toUpper_eq_toLower, back first]
    exact congrArg (['_', c] ++ ·) (separate_of_isLower others)

end

/-- A name of words of lower-case letters comes back from its spelling with capitals. -/
lemma snakeCase_camelCase {name : String}
    (words : ∀ word ∈ Text.splitOn '_' name.toList, isWord word = true) :
    snakeCase (camelCase name) = name := by
  have whole := Text.joinWith_splitOn '_' name.toList
  unfold camelCase
  cases pieces : Text.splitOn '_' name.toList with
  | nil => exact absurd pieces (Text.splitOn_ne_nil '_' name.toList)
  | cons first rest =>
    rw [pieces] at words whole
    obtain ⟨isFirst, others⟩ := List.forall_mem_cons.1 words
    obtain ⟨nonempty, lower⟩ := isWord_iff.1 isFirst
    rw [Text.joinWith_eq_flatMap] at whole
    have later : separate (rest.flatMap capitalize) = rest.flatMap ('_' :: ·) := by
      rw [separate, List.flatMap_assoc]
      exact List.flatMap_congr fun word mem => separate_capitalize (others word mem)
    obtain ⟨c, more, rfl⟩ := List.exists_cons_of_ne_nil nonempty
    obtain ⟨head, tail⟩ := List.forall_mem_cons.1 lower
    dsimp only
    rw [snakeCase, String.toList_ofList]
    dsimp only [List.cons_append]
    rw [Char.toLower_eq_of_not_isUpper (Char.not_isUpper_of_isLower head), separate_append,
      separate_of_isLower tail, later]
    rw [← List.cons_append, whole, String.ofList_toList]

/-- The names of the options. -/
def names : List String := ({} : Config).options.map Prod.fst

lemma map_fst_options (c : Config) : c.options.map Prod.fst = names := rfl

lemma mem_names {c : Config} {o : String × Json} (mem : o ∈ c.options) : o.1 ∈ names :=
  map_fst_options c ▸ List.mem_map_of_mem mem

/-- The names of the options come back from their spelling. -/
lemma snakeCase_camelCase_of_mem {name : String} (mem : name ∈ names) :
    snakeCase (camelCase name) = name := by
  have all : names.all (fun name => (Text.splitOn '_' name.toList).all isWord) = true := by
    decide +kernel
  exact snakeCase_camelCase (List.all_eq_true.1 (List.all_eq_true.1 all name mem))

lemma names_nodup : names.Nodup := by decide

/-- The only member with a spelling of a name sets the option. -/
lemma setting?_of_unique {members : List (String × Json)} {m : String × Json} (mem : m ∈ members)
    (only : ∀ other ∈ members, snakeCase other.1 = snakeCase m.1 → other = m) :
    setting? members (snakeCase m.1) = some m.2 := by
  unfold setting?
  cases found : members.reverse.find? fun other => snakeCase other.1 == snakeCase m.1 with
  | none =>
    have unlike := List.find?_eq_none.1 found m (List.mem_reverse.2 mem)
    exact absurd (beq_iff_eq.2 rfl) unlike
  | some other =>
    have known := List.mem_reverse.1 (List.mem_of_find?_eq_some found)
    have named := List.find?_some found
    rw [only other known (beq_iff_eq.1 named), Option.map_some]

/-- Members that are no option set none. -/
lemma setting?_filter (members : List (String × Json)) {name : String} (known : name ∈ names) :
    setting? (members.filter fun m => snakeCase m.1 ∈ names) name = setting? members name := by
  unfold setting?
  rw [← List.filter_reverse, List.find?_filter]
  congr 2
  funext m
  by_cases here : snakeCase m.1 = name
  · simp [here, known]
  · simp [here]

variable {c : Config}

/-- A saved option is set to what it was. -/
lemma setting?_members {o : String × Json} (mem : o ∈ c.options) :
    setting? c.members o.1 = some o.2 := by
  have back {o : String × Json} (mem : o ∈ c.options) : snakeCase (camelCase o.1) = o.1 :=
    snakeCase_camelCase_of_mem (mem_names mem)
  have distinct : (c.options.map Prod.fst).Nodup := names_nodup
  have only : ∀ m ∈ c.members, snakeCase m.1 = snakeCase (camelCase o.1) →
      m = (camelCase o.1, o.2) := by
    intro m inSaved same
    obtain ⟨other, mem', rfl⟩ := List.mem_map.1 inSaved
    rw [back mem, back mem'] at same
    rw [List.inj_on_of_nodup_map distinct mem' mem same]
  have set := setting?_of_unique (List.mem_map_of_mem mem) only
  rwa [back mem] at set

/-- The members of a saved configuration, with others that are no option, make the configuration. -/
lemma ofMembers_eq {members : List (String × Json)}
    (same : (members.filter fun m => snakeCase m.1 ∈ names) = c.members) :
    ofMembers members = c := by
  have set : ∀ o ∈ c.options, setting? members o.1 = some o.2 := fun o mem => by
    rw [← setting?_filter members (mem_names mem), same, setting?_members mem]
  rw [ofMembers_eq_iff]
  simp only [options, List.forall_mem_cons] at set
  obtain ⟨bundle, suffix, dump, name, mmap, _⟩ := set
  simp only [options, List.map_cons, List.map_nil, bundle, suffix, dump, name, mmap,
    Option.getD_some]

/-- The members that are saved are options. -/
lemma filter_members (c : Config) :
    (c.members.filter fun m => snakeCase m.1 ∈ names) = c.members := by
  refine List.filter_eq_self.2 fun m inSaved => ?_
  obtain ⟨o, mem, rfl⟩ := List.mem_map.1 inSaved
  have known : o.1 ∈ names := mem_names mem
  rw [snakeCase_camelCase_of_mem known]
  exact decide_eq_true known

lemma toJson_wellFormed (wellFormed : ∀ o ∈ c.options, o.2.WellFormed) : c.toJson.WellFormed := by
  refine ⟨?_, Json.wellFormedMembers_map wellFormed⟩
  have spelled : c.members.map Prod.fst = names.map camelCase := by
    unfold members
    rw [← map_fst_options c, List.map_map, List.map_map]
    rfl
  rw [spelled]
  refine names_nodup.map_on fun x known y known' same => ?_
  rw [← snakeCase_camelCase_of_mem known, same, snakeCase_camelCase_of_mem known']

section

variable (package : FilePath) {fs fs' : FileSystem} {path : FilePath}

/-- What was written is loaded as its options. -/
lemma load_of_write {text : String} {members : List (String × Json)}
    (written : fs.write path.toString (Text.Utf8.encode text) = .ok fs')
    (isObject : Json.parse? text = some (.object members)) :
    load package fs' (some path) = .ok (ofMembers members) := by
  rw [load_of_read package (FileSystem.read_of_write written), ofBytes_ok_iff]
  exact ⟨members, ⟨text, rfl, isObject⟩, rfl⟩

lemma write_of_save (saved : c.save fs path = .ok fs') :
    fs.write path.toString (Text.Utf8.encode c.toJson.indented) = .ok fs' := by
  unfold save at saved
  dsimp only at saved
  cases written : fs.write path.toString (Text.Utf8.encode c.toJson.indented) with
  | error fault =>
    rw [written] at saved
    cases saved
  | ok after =>
    rw [written] at saved
    exact congrArg Except.ok (Except.ok.inj saved)

/-- A saved configuration is loaded as it was. It still is when the file is written anew with
members that are no option among those that were saved, in whatever form. -/
theorem load_save (wellFormed : ∀ o ∈ c.options, o.2.WellFormed)
    (saved : c.save fs path = .ok fs') :
    load package fs' (some path) = .ok c ∧
      ∀ members, (members.filter fun m => snakeCase m.1 ∈ names) = c.members →
        ∀ text, Json.parse? text = some (.object members) →
          ∃ fs'', fs'.write path.toString (Text.Utf8.encode text) = .ok fs'' ∧
            load package fs'' (some path) = .ok c := by
  have written := write_of_save saved
  have isObject := Json.parse?_indented (toJson_wellFormed wellFormed)
  refine ⟨?_, fun members same text isObject' => ?_⟩
  · rw [load_of_write package written isObject, ofMembers_eq c.filter_members]
  · obtain ⟨fs'', rewritten⟩ := FileSystem.write_of_write written (Text.Utf8.encode text)
    refine ⟨fs'', rewritten, ?_⟩
    rw [load_of_write package rewritten isObject', ofMembers_eq same]

end

lemma save_empty (c : Config) :
    c.save .empty (FilePath.ofString "c.json") =
      .ok (oneFile (Text.Utf8.encode c.toJson.indented)) := by
  rfl

/-- Texts with quotes, a control character, a character beyond 16 bits and one that a line may end
with. -/
def unusual : Config where
  bundleSources := .bool true
  sourceMapSuffix := .string "\"\\\x01\x7F😀\u2028"
  sectionName := .string ""

/-- The saved members among others, whose names are almost those of options. -/
def withOthers : List (String × Json) :=
  ("bundle-sources", .bool false) :: unusual.members ++ [("", .null), ("sectionname", .array [])]

/-- The configuration is saved where no file was, loaded, and loaded with the others. -/
theorem load_save_unusual :
    let package := FilePath.ofString "p"
    let path := FilePath.ofString "c.json"
    ∃ fs', (∀ o ∈ unusual.options, o.2.WellFormed) ∧ unusual.save .empty path = .ok fs' ∧
      load package fs' (some path) = .ok unusual ∧
      ∃ fs'', fs'.write path.toString (Text.Utf8.encode (Json.object withOthers).indented) =
          .ok fs'' ∧
        load package fs'' (some path) = .ok unusual := by
  intro package path
  have wellFormed : ∀ o ∈ unusual.options, o.2.WellFormed := by
    simp [unusual, options, Json.WellFormed]
  have saved := save_empty unusual
  obtain ⟨same, more⟩ := load_save package wellFormed saved
  have distinct : (Json.object withOthers).WellFormed := by
    refine ⟨by decide +kernel, ?_⟩
    simp [withOthers, unusual, members, options, Json.WellFormedMembers, Json.WellFormed,
      Json.WellFormedItems]
  exact ⟨_, wellFormed, saved, same, more withOthers (by rfl) _ (Json.parse?_indented distinct)⟩

end Config

end WasmSourceMap
