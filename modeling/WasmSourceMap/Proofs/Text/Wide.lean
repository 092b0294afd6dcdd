import Mathlib.Tactic.Lemma
import WasmSourceMap.Text.Wide

/-!
# Strings as wide strings

A string is a wide string without surrogates: its text is the string (`text?_ofString`), it is shown
as it is, and it has bytes as the name of a file. A part of a wide string that has bytes has bytes
(`isSome_nameBytes?_of_subset`).
-/

namespace WasmSourceMap

lemma isSome_mapM {α β : Type} (f : α → Option β) (items : List α) :
    (items.mapM f).isSome = items.all fun a => (f a).isSome := by
  induction items with
  | nil => rfl
  | cons a rest ih =>
    rw [List.mapM_cons, List.all_cons, ← ih]
    cases f a with
    | none => rfl
    | some b => cases rest.mapM f <;> rfl

lemma mapM_concat {α β : Type} {f : α → Option β} {front : List α} {a : α} {results : List β}
    (h : (front ++ [a]).mapM f = some results) :
    ∃ others b, front.mapM f = some others ∧ f a = some b ∧ results = others ++ [b] := by
  rw [List.mapM_append, Option.bind_eq_bind] at h
  obtain ⟨others, isFront, h⟩ := Option.bind_eq_some_iff.1 h
  obtain ⟨last, isLast, h⟩ := Option.bind_eq_some_iff.1 h
  rw [List.mapM_cons] at isLast
  obtain ⟨b, known, rest⟩ := Option.bind_eq_some_iff.1 isLast
  cases rest
  exact ⟨others, b, isFront, known, (Option.some.inj h).symm⟩

lemma Text.Utf8.encodeChar_ne_nil (c : Char) : encodeChar c ≠ [] := by
  unfold encodeChar
  dsimp only
  split
  · exact List.cons_ne_nil _ _
  split
  · exact List.cons_ne_nil _ _
  split <;> exact List.cons_ne_nil _ _

lemma CodePoint.ne_nil_of_nameBytes? {p : CodePoint} {bytes : Bytes}
    (h : p.nameBytes? = some bytes) : bytes ≠ [] := by
  unfold nameBytes? at h
  split at h
  · rw [← Option.some.inj h]
    exact Text.Utf8.encodeChar_ne_nil _
  split at h
  · rw [← Option.some.inj h]
    exact List.cons_ne_nil _ _
  · cases h

namespace WideString

@[simp] lemma points_append (s t : WideString) : (s ++ t).points = s.points ++ t.points := rfl

lemma append_assoc (s t u : WideString) : s ++ t ++ u = s ++ (t ++ u) :=
  congrArg WideString.mk (List.append_assoc _ _ _)

@[simp] lemma text?_ofString (s : String) : (ofString s).text? = some s := by
  have each (cs : List Char) : (cs.map CodePoint.char).mapM CodePoint.char? = some cs := by
    induction cs with
    | nil => rfl
    | cons c rest ih =>
      rw [List.map_cons, List.mapM_cons, ih]
      rfl
  unfold text? ofString
  rw [each, Option.map_some, String.ofList_toList]

@[simp] lemma isText_ofString (s : String) : (ofString s).isText = true := by
  rw [isText, text?_ofString, Option.isSome_some]

@[simp] lemma shown_ofString (s : String) : (ofString s).shown = s := by
  unfold shown ofString
  rw [List.map_map]
  exact (congrArg String.ofList (List.map_id _)).trans String.ofList_toList

lemma isText_append (s t : WideString) : (s ++ t).isText = (s.isText && t.isText) := by
  have each (u : WideString) : u.isText = u.points.all fun p => p.char?.isSome := by
    rw [isText, text?, Option.isSome_map, isSome_mapM]
  rw [each, each s, each t, points_append, List.all_append]

/-- A string has bytes as the name of a file if each of its code points has. -/
lemma isSome_nameBytes? (s : WideString) :
    s.nameBytes?.isSome = s.points.all fun p => p.nameBytes?.isSome := by
  unfold nameBytes?
  rw [Option.isSome_map, isSome_mapM]

lemma isSome_nameBytes?_of_subset {s t : WideString} (part : s.points ⊆ t.points)
    (inBytes : t.nameBytes?.isSome = true) : s.nameBytes?.isSome = true := by
  rw [isSome_nameBytes?, List.all_eq_true] at inBytes ⊢
  exact fun p mem => inBytes p (part mem)

/-- Each code point of the name of a file has a byte. -/
lemma eq_empty_of_nameBytes? {s : WideString} (h : s.nameBytes? = some []) : s = "" := by
  obtain ⟨parts, each, none⟩ := Option.map_eq_some_iff.1 h
  match s with
  | ⟨[]⟩ => rfl
  | ⟨p :: rest⟩ =>
    rw [List.mapM_cons, Option.bind_eq_bind] at each
    obtain ⟨bytes, known, each⟩ := Option.bind_eq_some_iff.1 each
    obtain ⟨others, _, each⟩ := Option.bind_eq_some_iff.1 each
    cases each
    rw [List.flatten_cons, List.append_eq_nil_iff] at none
    exact absurd none.1 (CodePoint.ne_nil_of_nameBytes? known)

/-- The name of a file with something behind it has the bytes of both. -/
lemma nameBytes?_append {s t : WideString} {bytes : Bytes} (h : (s ++ t).nameBytes? = some bytes) :
    ∃ front back, s.nameBytes? = some front ∧ t.nameBytes? = some back ∧ bytes = front ++ back := by
  obtain ⟨parts, each, rfl⟩ := Option.map_eq_some_iff.1 h
  rw [points_append, List.mapM_append, Option.bind_eq_bind] at each
  obtain ⟨front, isFront, each⟩ := Option.bind_eq_some_iff.1 each
  obtain ⟨back, isBack, each⟩ := Option.bind_eq_some_iff.1 each
  cases each
  refine ⟨front.flatten, back.flatten, ?_, ?_, List.flatten_append⟩
  · rw [nameBytes?, isFront, Option.map_some]
  · rw [nameBytes?, isBack, Option.map_some]

@[simp] lemma isSome_nameBytes?_ofString (s : String) : (ofString s).nameBytes?.isSome = true := by
  rw [isSome_nameBytes?, List.all_eq_true]
  intro p mem
  obtain ⟨c, _, rfl⟩ := List.mem_map.1 mem
  rfl

end WideString

end WasmSourceMap
