import Mathlib.Tactic.ByContra
import Mathlib.Tactic.Lemma
import WasmSourceMap.FileSystem

/-!
# Walks

A walk that leads somewhere is a chain of steps (`Walks`), each of them within a directory, into
one, up from one or on behind a symbolic link, the last one possibly to a file or to a free
location. A new content changes no walk but those that end at its location (`Walks.put`). A walk
whose last name is no link leads to the location of this name in a directory that the names before
it lead to (`Walks.last`).
-/

namespace WasmSourceMap.FileSystem

section

variable {fs : FileSystem} {location l : Location} {content : Bytes}

lemma content?_put_self (fs : FileSystem) (location : Location) (content : Bytes) :
    (fs.put location content).content? location = some content := by
  have gone : (fs.files.filter fun entry => entry.1 != location).find?
      (fun entry => entry.1 == location) = none := by
    rw [List.find?_eq_none]
    intro entry m
    have other := (List.mem_filter.1 m).2
    rw [bne, Bool.not_eq_true'] at other
    rw [other]
    exact Bool.false_ne_true
  unfold content? put
  rw [List.find?_append, gone, Option.none_or, List.find?_singleton]
  rw [if_pos (beq_self_eq_true location)]
  rfl

lemma content?_put_of_ne (other : l ≠ location) :
    (fs.put location content).content? l = fs.content? l := by
  -- Taking out the entries of the file takes out none of another location.
  have stays : (fun entry : Location × Bytes =>
      decide ((entry.1 != location) = true ∧ (entry.1 == l) = true)) =
        fun entry => entry.1 == l := by
    funext entry
    by_cases here : entry.1 = l
    · simp [here, other]
    · simp [here]
  have last : [(location, content)].find? (fun entry => entry.1 == l) = none := by
    rw [List.find?_singleton, if_neg (fun e => other (beq_iff_eq.1 e).symm)]
  unfold content? put
  rw [List.find?_append, List.find?_filter, last, Option.or_none]
  exact congrArg (fun accept => (fs.files.find? accept).map (·.2)) stays

end

/-- The home of what a location names: its own, or that of a hard link. -/
inductive Names (fs : FileSystem) (l : Location) : Location → Prop where
  | own (noLink : fs.link? l = none) : Names fs l l
  | hard {home : Location} (isLink : fs.link? l = some (.hard home)) : Names fs l home

/-- There is no file, no directory and no link at a location. -/
structure Free (fs : FileSystem) (location : Location) : Prop where
  noLink : fs.link? location = none
  noFile : fs.content? location = none
  noDirectory : fs.hasDirectory location = false

/-- There is a directory at a location. -/
structure IsDirectory (fs : FileSystem) (location : Location) : Prop where
  noLink : fs.link? location = none
  noFile : fs.content? location = none
  isDirectory : fs.hasDirectory location = true

/-- A name that leads from a directory to what is in it. -/
structure IsEntry (name : FileName) : Prop where
  notIdle : ¬ (name = [] ∨ name = dot)
  notUp : name ≠ dotDot
  short : ¬ maxNameBytes < name.length

/-- What a name in a directory can be, by what is there. -/
inductive Enters (fs : FileSystem) (l : Location) (rest : List FileName) : Entry → Prop where
  | link {link : SymbolicLink} (isLink : fs.link? l = some (.symbolic link)) :
      Enters fs l rest (.link link)
  | file {home : Location} {content : Bytes} (names : fs.Names l home)
      (found : fs.content? home = some content) : Enters fs l rest (.place (.file home content))
  | directory (isDirectory : fs.IsDirectory l) : Enters fs l rest (.place (.directory l))
  | missing (free : fs.Free l) (blank : rest.all (· == []) = true) :
      Enters fs l rest (.place (.missing l))

/-- Where the file is, or can be made. -/
def Place.target? : Place → Option Location
  | .file l _ => some l
  | .missing l => some l
  | .directory _ => none

/-- The place after a content was put at a location. -/
def Place.written (location : Location) (content : Bytes) : Place → Place
  | .file l old => .file l (if l = location then content else old)
  | .missing l => if l = location then .file l content else .missing l
  | .directory l => .directory l

/-- The location is that of a file, or one that nothing but a file can have. -/
def Writable (fs : FileSystem) (location : Location) : Prop :=
  fs.content? location ≠ none ∨ fs.Free location

/-- The walks that lead somewhere past at most so many symbolic links. -/
inductive Walks (fs : FileSystem) : Nat → Place → List FileName → Place → Prop where
  | done {links : Nat} (place : Place) : Walks fs links place [] place
  | idle {links : Nat} {l : Location} {name : FileName} {rest : List FileName} {goal : Place}
      (stays : name = [] ∨ name = dot) (later : Walks fs links (.directory l) rest goal) :
      Walks fs links (.directory l) (name :: rest) goal
  | up {links : Nat} {l : Location} {rest : List FileName} {goal : Place}
      (later : Walks fs links (.directory l.above) rest goal) :
      Walks fs links (.directory l) (dotDot :: rest) goal
  | enter {links : Nat} {l : Location} {name : FileName} {rest : List FileName} {goal : Place}
      (isEntry : IsEntry name) (isDirectory : fs.IsDirectory (l.entry name))
      (later : Walks fs links (.directory (l.entry name)) rest goal) :
      Walks fs links (.directory l) (name :: rest) goal
  | follow {links : Nat} {l : Location} {name : FileName} {rest : List FileName} {goal : Place}
      {link : SymbolicLink} (isEntry : IsEntry name)
      (isLink : fs.link? (l.entry name) = some (.symbolic link))
      (later : Walks fs links (.directory (link.start l)) (link.names ++ rest) goal) :
      Walks fs (links + 1) (.directory l) (name :: rest) goal
  | file {links : Nat} {l home : Location} {name : FileName} {content : Bytes}
      (isEntry : IsEntry name) (names : fs.Names (l.entry name) home)
      (found : fs.content? home = some content) :
      Walks fs links (.directory l) [name] (.file home content)
  | missing {links : Nat} {l : Location} {name : FileName} {rest : List FileName}
      (isEntry : IsEntry name) (free : fs.Free (l.entry name))
      (blank : rest.all (· == []) = true) :
      Walks fs links (.directory l) (name :: rest) (.missing (l.entry name))

section

variable {fs : FileSystem} {links : Nat} {l location : Location} {name : FileName}
  {rest names : List FileName} {place goal : Place} {entry : Entry} {content old : Bytes}

lemma enter_ok (h : fs.enter l name rest = .ok entry) :
    ¬ maxNameBytes < name.length ∧ fs.Enters (l.entry name) rest entry := by
  unfold enter at h
  dsimp only at h
  split at h
  · cases h
  rename_i short
  refine ⟨short, ?_⟩
  split at h
  · rename_i isLink
    cases h
    exact .link isLink
  · rename_i isLink
    split at h
    · rename_i found
      cases h
      exact .file (.hard isLink) found
    · cases h
  · rename_i noLink
    split at h
    · rename_i found
      cases h
      exact .file (.own noLink) found
    rename_i noFile
    split at h
    · rename_i isDirectory
      cases h
      exact .directory ⟨noLink, noFile, isDirectory⟩
    rename_i noDirectory
    split at h
    · rename_i blank
      cases h
      exact .missing ⟨noLink, noFile, Bool.eq_false_iff.2 noDirectory⟩ blank
    · cases h

lemma enter_of_enters (short : ¬ maxNameBytes < name.length)
    (h : fs.Enters (l.entry name) rest entry) : fs.enter l name rest = .ok entry := by
  unfold enter
  dsimp only
  rw [if_neg short]
  cases h with
  | link isLink => rw [isLink]
  | file names found =>
    cases names with
    | own noLink => rw [noLink, found]
    | hard isLink =>
      rw [isLink]
      dsimp only
      rw [found]
  | directory isDirectory =>
    rw [isDirectory.noLink, isDirectory.noFile]
    exact if_pos isDirectory.isDirectory
  | missing free blank =>
    rw [free.noLink, free.noFile]
    dsimp only
    rw [if_neg (Bool.eq_false_iff.1 free.noDirectory), if_pos blank]

/-- What is behind a symbolic link. -/
def follow (fs : FileSystem) :
    Nat → Location → SymbolicLink → List FileName → Except FileCause Place
  | 0, _, _, _ => .error .tooManyLinks
  | links + 1, l, link, rest => fs.walk links (.directory (link.start l)) (link.names ++ rest)

lemma walk_eq (fs : FileSystem) (links : Nat) : fs.walk links = fs.walkWith (fs.follow links) := by
  cases links <;> rfl

lemma walk_nil : fs.walk links place [] = .ok place := by
  rw [walk_eq, walkWith]

lemma walk_file : fs.walk links (.file l content) (name :: rest) = .error .notDirectory := by
  rw [walk_eq]
  rfl

lemma walk_missing : fs.walk links (.missing l) (name :: rest) = .error .notFound := by
  rw [walk_eq]
  rfl

lemma walk_idle (stays : name = [] ∨ name = dot) :
    fs.walk links (.directory l) (name :: rest) = fs.walk links (.directory l) rest := by
  rw [walk_eq, walkWith, if_pos stays]

lemma walk_up :
    fs.walk links (.directory l) (dotDot :: rest) = fs.walk links (.directory l.above) rest := by
  rw [walk_eq, walkWith, if_neg (by decide), if_pos rfl]

/-- How a walk goes on from what a name is. -/
def goOn (fs : FileSystem) (links : Nat) (l : Location) (rest : List FileName) :
    Entry → Except FileCause Place
  | .link link => fs.follow links l link rest
  | .place (.missing target) => .ok (.missing target)
  | .place place => fs.walk links place rest

lemma IsEntry.walk (isEntry : IsEntry name) (enters : fs.Enters (l.entry name) rest entry) :
    fs.walk links (.directory l) (name :: rest) = fs.goOn links l rest entry := by
  rw [walk_eq, walkWith, if_neg isEntry.notIdle, if_neg isEntry.notUp,
    enter_of_enters isEntry.short enters]
  unfold goOn
  rw [walk_eq]
  rcases entry with (_ | _ | _) | _ <;> rfl

/-- What a walk does with its first name. -/
lemma walk_cons (h : fs.walk links (.directory l) (name :: rest) = .ok goal) :
    ((name = [] ∨ name = dot) ∧ fs.walk links (.directory l) rest = .ok goal) ∨
      (name = dotDot ∧ fs.walk links (.directory l.above) rest = .ok goal) ∨
      IsEntry name ∧ ∃ entry, fs.Enters (l.entry name) rest entry ∧
        fs.goOn links l rest entry = .ok goal := by
  by_cases notIdle : name = [] ∨ name = dot
  · rw [walk_idle notIdle] at h
    exact .inl ⟨notIdle, h⟩
  by_cases notUp : name = dotDot
  · rw [notUp, walk_up] at h
    exact .inr (.inl ⟨notUp, h⟩)
  have entered : ∃ entry, fs.enter l name rest = .ok entry := by
    rw [walk_eq, walkWith, if_neg notIdle, if_neg notUp] at h
    cases found : fs.enter l name rest with
    | ok entry => exact ⟨entry, rfl⟩
    | error cause =>
      rw [found] at h
      cases h
  obtain ⟨entry, entered⟩ := entered
  obtain ⟨short, enters⟩ := enter_ok entered
  have isEntry : IsEntry name := ⟨notIdle, notUp, short⟩
  rw [isEntry.walk enters] at h
  exact .inr (.inr ⟨isEntry, entry, enters, h⟩)

/-- The steps of a walk, given those behind a symbolic link. -/
lemma walks_of_follow
    (behind : ∀ {l : Location} {link : SymbolicLink} {rest : List FileName},
      fs.follow links l link rest = .ok goal → ∃ fewer, links = fewer + 1 ∧
        fs.Walks fewer (.directory (link.start l)) (link.names ++ rest) goal)
    (h : fs.walk links place names = .ok goal) : fs.Walks links place names goal := by
  induction names generalizing place with
  | nil =>
    cases walk_nil.symm.trans h
    exact .done _
  | cons name rest ih =>
    cases place with
    | file => cases walk_file.symm.trans h
    | missing => cases walk_missing.symm.trans h
    | directory l =>
      obtain ⟨stays, later⟩ | ⟨rfl, later⟩ | ⟨isEntry, entry, enters, found⟩ := walk_cons h
      · exact .idle stays (ih later)
      · exact .up (ih later)
      cases enters with
      | link isLink =>
        obtain ⟨fewer, rfl, later⟩ := behind found
        exact .follow isEntry isLink later
      | file names holds =>
        -- Nothing can follow a file.
        cases rest with
        | nil =>
          cases walk_nil.symm.trans found
          exact .file isEntry names holds
        | cons => cases walk_file.symm.trans found
      | directory isDirectory => exact .enter isEntry isDirectory (ih found)
      | missing free blank =>
        cases found
        exact .missing isEntry free blank

lemma walks_of_walk (h : fs.walk links place names = .ok goal) :
    fs.Walks links place names goal := by
  -- Behind a symbolic link there may be more names than before, but fewer links can follow.
  induction links generalizing place names goal with
  | zero => exact walks_of_follow nofun h
  | succ links ih => exact walks_of_follow (fun found => ⟨links, rfl, ih found⟩) h

lemma Walks.walk (h : fs.Walks links place names goal) : fs.walk links place names = .ok goal := by
  induction h with
  | done => exact walk_nil
  | idle stays _ ih => rw [walk_idle stays, ih]
  | up _ ih => rw [walk_up, ih]
  | enter isEntry isDirectory _ ih =>
    rw [isEntry.walk (.directory isDirectory)]
    exact ih
  | follow isEntry isLink _ ih =>
    rw [isEntry.walk (.link isLink)]
    exact ih
  | file isEntry names found =>
    rw [isEntry.walk (.file names found)]
    exact walk_nil
  | missing isEntry free blank => rw [isEntry.walk (.missing free blank), goOn]

/-- A walk ends at a location that can be written, if it does not start there. -/
lemma Walks.writable (h : fs.Walks links place names goal) (start : place.target? = none)
    (leads : goal.target? = some location) : fs.Writable location := by
  induction h with
  | done => cases start.symm.trans leads
  | idle _ _ ih | up _ ih | enter _ _ _ ih | follow _ _ _ ih => exact ih rfl leads
  | file _ _ found =>
    obtain rfl := Option.some.inj leads
    exact .inl (by rw [found]; exact Option.some_ne_none _)
  | missing _ free =>
    obtain rfl := Option.some.inj leads
    exact .inr free

/-- The names do not end with a slash. -/
def IsNamed (names : List FileName) : Prop := names.getLast? ≠ some []

lemma IsNamed.tail (named : IsNamed (name :: rest)) : IsNamed rest := by
  cases rest with
  | nil => exact nofun
  | cons => exact named

lemma IsNamed.eq_nil (named : IsNamed (name :: rest)) (blank : rest.all (· == []) = true) :
    rest = [] := by
  by_contra more
  have last := List.all_eq_true.1 blank _ (List.getLast_mem more)
  apply named.tail
  rw [List.getLast?_eq_some_getLast more, beq_iff_eq.1 last]

/-- Nor do those that follow a symbolic link with what it holds in front. -/
lemma IsNamed.follow (named : IsNamed (name :: rest)) (link : SymbolicLink) :
    IsNamed (link.names ++ rest) := by
  cases rest with
  | nil =>
    rw [List.append_nil]
    exact link.named
  | cons next others =>
    unfold IsNamed
    rw [List.getLast?_append, List.getLast?_cons, Option.some_or, ← List.getLast?_cons]
    exact named.tail

/-- After a content is put at a location a walk leads to the same place, where the content may be.
-/
lemma Walks.put (h : fs.Walks links place names goal) (start : place.target? = none)
    (writable : fs.Writable location) (named : goal = .missing location → IsNamed names)
    (content : Bytes) :
    (fs.put location content).Walks links place names (goal.written location content) := by
  induction h with
  | done place =>
    cases place with
    | directory => exact .done _
    | file | missing => cases start
  | idle stays _ ih => exact .idle stays (ih rfl fun e => (named e).tail)
  | up _ ih => exact .up (ih rfl fun e => (named e).tail)
  | @enter _ l name _ _ isEntry isDirectory _ ih =>
    have other : l.entry name ≠ location := by
      rintro rfl
      rcases writable with file | free
      · exact file isDirectory.noFile
      · cases isDirectory.isDirectory.symm.trans free.noDirectory
    refine .enter isEntry ⟨isDirectory.noLink, ?_, isDirectory.isDirectory⟩
      (ih rfl fun e => (named e).tail)
    rw [content?_put_of_ne other, isDirectory.noFile]
  | @follow _ _ _ _ _ link isEntry isLink _ ih =>
    exact .follow isEntry isLink (ih rfl fun e => (named e).follow link)
  | @file _ l home name old isEntry names found =>
    have names : (fs.put location content).Names (l.entry name) home := by
      cases names with
      | own noLink => exact .own noLink
      | hard isLink => exact .hard isLink
    refine .file isEntry names ?_
    by_cases here : home = location
    · rw [if_pos here, here, content?_put_self]
    · rw [if_neg here, content?_put_of_ne here, found]
  | @missing _ l name rest isEntry free blank =>
    by_cases here : l.entry name = location
    · subst here
      obtain rfl := (named rfl).eq_nil blank
      have made : (Place.missing (l.entry name)).written (l.entry name) content =
          .file (l.entry name) content := if_pos rfl
      rw [made]
      exact .file isEntry (.own free.noLink) (content?_put_self _ _ _)
    · have stays : (Place.missing (l.entry name)).written location content =
          .missing (l.entry name) := if_neg here
      rw [stays]
      refine .missing isEntry ⟨free.noLink, ?_, free.noDirectory⟩ blank
      rw [content?_put_of_ne here, free.noFile]

/-- A file that a walk leads to is known, if the walk does not start there. -/
lemma Walks.content? (h : fs.Walks links place names (.file location content))
    (start : place.target? = none) : fs.content? location = some content := by
  generalize ends : Place.file location content = goal at h
  induction h with
  | done =>
    subst ends
    cases start
  | idle _ _ ih | up _ ih | enter _ _ _ ih | follow _ _ _ ih => exact ih rfl ends
  | file _ _ found =>
    cases ends
    exact found
  | missing => cases ends

lemma Walks.ne_nil (h : fs.Walks links place names goal) (start : place.target? = none)
    (leads : goal.target? = some location) : names ≠ [] := by
  rintro rfl
  cases h with
  | done => cases start.symm.trans leads

/-- A walk to a file or to a free location goes from a directory to what its last name is there.
This is at the location of the name, if it is no link. -/
lemma Walks.last (h : fs.Walks links place names goal) (start : place.target? = none)
    (leads : goal.target? = some location) {front : List FileName} (split : names = front ++ [name])
    (notBlank : name ≠ []) :
    ∃ directory, IsEntry name ∧ fs.Walks links place front (.directory directory) ∧
      (fs.link? (directory.entry name) = none → location = directory.entry name) := by
  -- What leads on from a directory is not the last name.
  have before {first : FileName} {rest front : List FileName} (more : rest ≠ [])
      (split : first :: rest = front ++ [name]) :
      ∃ others, front = first :: others ∧ rest = others ++ [name] := by
    rcases List.cons_eq_append_iff.1 split with ⟨_, last⟩ | both
    · exact absurd (List.cons.inj last).2.symm more
    · exact both
  induction h generalizing front with
  | done =>
    cases start.symm.trans leads
  | idle stays later ih =>
    obtain ⟨others, rfl, rfl⟩ := before (later.ne_nil rfl leads) split
    obtain ⟨directory, known, walks, own⟩ := ih rfl leads rfl
    exact ⟨directory, known, .idle stays walks, own⟩
  | up later ih =>
    obtain ⟨others, rfl, rfl⟩ := before (later.ne_nil rfl leads) split
    obtain ⟨directory, known, walks, own⟩ := ih rfl leads rfl
    exact ⟨directory, known, .up walks, own⟩
  | enter isEntry isDirectory later ih =>
    obtain ⟨others, rfl, rfl⟩ := before (later.ne_nil rfl leads) split
    obtain ⟨directory, known, walks, own⟩ := ih rfl leads rfl
    exact ⟨directory, known, .enter isEntry isDirectory walks, own⟩
  | @follow _ l _ _ _ link isEntry isLink later ih =>
    rcases List.cons_eq_append_iff.1 split with ⟨rfl, last⟩ | ⟨others, rfl, rfl⟩
    · cases last
      exact ⟨l, isEntry, .done _, fun noLink => by cases noLink.symm.trans isLink⟩
    · obtain ⟨directory, known, walks, own⟩ := ih rfl leads (List.append_assoc _ _ _).symm
      exact ⟨directory, known, .follow isEntry isLink walks, own⟩
  | @file _ l home _ _ isEntry names found =>
    rcases List.cons_eq_append_iff.1 split with ⟨rfl, last⟩ | ⟨others, _, none⟩
    case inr => exact absurd none.symm (List.append_ne_nil_of_right_ne_nil _ (List.cons_ne_nil _ _))
    cases last
    obtain rfl := Option.some.inj leads
    refine ⟨l, isEntry, .done _, fun noLink => ?_⟩
    cases names with
    | own => rfl
    | hard isLink => cases noLink.symm.trans isLink
  | @missing _ l _ rest isEntry free blank =>
    obtain rfl := Option.some.inj leads
    rcases List.cons_eq_append_iff.1 split with ⟨rfl, last⟩ | ⟨others, rfl, rfl⟩
    · cases last
      exact ⟨l, isEntry, .done _, fun _ => rfl⟩
    · have mem : name ∈ others ++ [name] := List.mem_append_right _ (List.mem_singleton.2 rfl)
      exact absurd (beq_iff_eq.1 (List.all_eq_true.1 blank name mem)) notBlank

end

end WasmSourceMap.FileSystem
