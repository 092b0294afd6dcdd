import Mathlib.Data.List.TakeWhile
import Mathlib.Tactic.ByContra
import Mathlib.Tactic.Lemma
import Mathlib.Tactic.Push
import WasmSourceMap.CommandLine.Run

/-!
# Steps of a run

A run is followed from console to console: `Run.Ends` says what holds of its value and of the
console after it, or of the console if it stops, and goes through its steps one by one
(`Ends.bind`). Steps that only print are put together on their own (`Prints.bind`).
-/

namespace WasmSourceMap.CommandLine

/-- The files are the same, and the lines that were added are allowed. -/
structure Console.Adds (allowed : WideString → Prop) (c c' : Console) : Prop where
  files : c'.files = c.files
  strict : c'.strict = c.strict
  lines : ∃ more, c'.lines = c.lines ++ more ∧ ∀ line ∈ more, allowed line

section

variable {c c' after : Console} {allowed : WideString → Prop}

lemma Console.Adds.refl : c.Adds allowed c :=
  ⟨rfl, rfl, [], (List.append_nil _).symm, nofun⟩

lemma Console.Adds.lines_prefix (h : c.Adds allowed c') : c.lines <+: c'.lines := by
  obtain ⟨more, lines, _⟩ := h.lines
  exact ⟨more, lines.symm⟩

lemma Console.Adds.imp {allowed' : WideString → Prop} (h : c.Adds allowed c')
    (also : ∀ line, allowed line → allowed' line) : c.Adds allowed' c' := by
  obtain ⟨more, lines, isAllowed⟩ := h.lines
  exact ⟨h.files, h.strict, more, lines, fun line mem => also line (isAllowed line mem)⟩

lemma Console.Adds.trans (h : c.Adds allowed c') (later : c'.Adds allowed after) :
    c.Adds allowed after := by
  obtain ⟨more, lines, isAllowed⟩ := h.lines
  obtain ⟨more', lines', isAllowed'⟩ := later.lines
  refine ⟨later.files.trans h.files, later.strict.trans h.strict, more ++ more', ?_, ?_⟩
  · rw [lines', lines, List.append_assoc]
  · exact fun line mem => (List.mem_append.1 mem).elim (isAllowed line) (isAllowed' line)

/-- From no lines there are only the lines that were added. -/
lemma Console.Adds.of_none (h : c.Adds allowed after) (noLines : c.lines = []) :
    ∀ line ∈ after.lines, allowed line := by
  obtain ⟨more, lines, isAllowed⟩ := h.lines
  rw [lines, noLines]
  exact isAllowed

end

namespace Run

variable {α β : Type}

/-- What a run that starts at a console ends with: a value and a console, or just a console if it
stops, which is no success. -/
def Ends (x : Run α) (c : Console) (success : α → Console → Prop) (failure : Console → Prop) :
    Prop :=
  match x.run c with
  | (.ok a, after) => success a after
  | (.error exit, after) => exit ≠ .status 0 ∧ failure after

/-- A run that changes no file, adds allowed lines and ends with a value of which something holds.
-/
structure Prints (x : Run α) (allowed : WideString → Prop) (c : Console) (value : α → Prop) :
    Prop where
  ends : ∀ c', c.Adds allowed c' →
    x.Ends c' (fun a after => c.Adds allowed after ∧ value a) (c.Adds allowed)

variable {x : Run α} {f : α → Run β} {c c' : Console} {middle : α → Console → Prop}
  {success : β → Console → Prop} {failure : Console → Prop} {allowed : WideString → Prop}
  {value : α → Prop} {later : β → Prop}

lemma Ends.imp {success' : α → Console → Prop} {failure' : Console → Prop}
    (h : x.Ends c middle failure) (succeeds : ∀ a after, middle a after → success' a after)
    (fails : ∀ after, failure after → failure' after) : x.Ends c success' failure' := by
  unfold Ends at h ⊢
  revert h
  rcases x.run c with ⟨exit | a, after⟩
  · exact fun stops => ⟨stops.1, fails after stops.2⟩
  · exact succeeds a after

lemma run_bind (x : Run α) (f : α → Run β) (c : Console) :
    (x >>= f).run c = match x.run c with
      | (.ok a, after) => (f a).run after
      | (.error exit, after) => (.error exit, after) := by
  show (ExceptT.bindCont f (x.run c).1 : StateM Console _) (x.run c).2 = _
  rcases x.run c with ⟨exit | a, after⟩ <;> rfl

lemma Ends.bind (first : x.Ends c middle failure)
    (next : ∀ a after, middle a after → (f a).Ends after success failure) :
    (x >>= f).Ends c success failure := by
  unfold Ends at first ⊢
  rw [run_bind]
  revert first
  rcases x.run c with ⟨exit | a, after⟩
  · exact fun stops => stops
  · exact next a after

/-! What the single steps do to the console. -/

lemma get_ends : (get : Run Console).Ends c (fun seen after => seen = c ∧ after = c) failure :=
  ⟨rfl, rfl⟩

lemma set_ends (new : Console) : (set new : Run Unit).Ends c (fun _ after => after = new) failure :=
  rfl

/-- Lines are printed, or those before one that is no text if the output does not take it. -/
lemma print_ends (lines : List WideString) : (print lines).Ends c
    (fun _ after => after = { c with lines := c.lines ++ lines })
    fun after => c.Adds (fun line => line ∈ lines ∧ line.isText = true) after ∧ c.strict = true ∧
      ∃ line ∈ lines, line.isText = false := by
  unfold print
  refine get_ends.bind ?_
  rintro _ c ⟨rfl, rfl⟩
  refine (set_ends _).bind ?_
  rintro _ _ rfl
  by_cases strict : c.strict = true
  · rw [if_pos strict]
    by_cases allText : ∀ line ∈ lines, line.isText = true
    · rw [List.takeWhile_eq_self_iff.2 allText, if_neg (Nat.lt_irrefl _)]
      rfl
    · have fewer : (lines.takeWhile WideString.isText).length < lines.length := by
        refine lt_of_le_of_ne (List.takeWhile_prefix _).length_le fun same => allText ?_
        exact List.takeWhile_eq_self_iff.1 ((List.takeWhile_prefix _).eq_of_length same)
      push Not at allText
      obtain ⟨line, mem, notText⟩ := allText
      rw [if_pos fewer]
      refine ⟨nofun, ⟨rfl, rfl, _, rfl, fun line mem => ⟨?_, ?_⟩⟩, strict, line, mem, ?_⟩
      · exact (List.takeWhile_prefix _).subset mem
      · exact List.mem_takeWhile_imp mem
      · exact Bool.eq_false_iff.2 notText
  · rw [if_neg strict, if_neg (Nat.lt_irrefl _)]
    rfl

lemma putFiles_ends (files : FileSystem) :
    (putFiles files).Ends c (fun _ after => after = { c with files }) failure := rfl

lemma Prints.bind (first : x.Prints allowed c value)
    (next : ∀ a, value a → (f a).Prints allowed c later) : (x >>= f).Prints allowed c later :=
  ⟨fun c' adds => (first.ends c' adds).bind fun a after holds =>
    (next a holds.2).ends after holds.1⟩

lemma Prints.pure {a : α} (h : value a) : (Pure.pure a : Run α).Prints allowed c value :=
  ⟨fun _ adds => ⟨adds, h⟩⟩

lemma Prints.get : (get : Run Console).Prints allowed c fun c' => c'.files = c.files :=
  ⟨fun _ adds => ⟨adds, adds.files⟩⟩

lemma Prints.print {lines : List WideString} (h : ∀ line ∈ lines, allowed line) :
    (Run.print lines).Prints allowed c fun _ => True := by
  refine ⟨fun c' adds => (print_ends lines).imp ?_ ?_⟩
  · rintro _ _ rfl
    exact ⟨adds.trans ⟨rfl, rfl, lines, rfl, h⟩, trivial⟩
  · exact fun after fails => adds.trans (fails.1.imp fun line both => h line both.1)

lemma Prints.throw {exit : Exit} (fails : exit ≠ .status 0) :
    (throw exit : Run α).Prints allowed c value :=
  ⟨fun _ adds => ⟨fails, adds⟩⟩

section

variable (errors : ∀ text : WideString, allowed ("ERROR: " ++ text))

include errors

lemma Prints.stop {message : WideString} : (Run.stop message).Prints allowed c fun _ => False := by
  refine .bind (.print ?_) fun _ _ => .throw (by decide)
  rintro _ (_ | ⟨_, ⟨⟩⟩)
  exact errors message

lemma Prints.ofExcept {result : Except Fault α} :
    (Run.ofExcept result).Prints allowed c fun a => result = .ok a := by
  cases result with
  | ok a => exact .pure rfl
  | error fault =>
    unfold Run.ofExcept
    dsimp only
    split
    · refine .bind (.print ?_) fun _ _ => .throw (by decide)
      rintro _ (_ | ⟨_, ⟨⟩⟩)
      exact errors fault.message
    · exact .throw nofun

end

end Run

end WasmSourceMap.CommandLine
