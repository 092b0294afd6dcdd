import Mathlib.Data.List.Chain
import Mathlib.Data.List.TakeWhile
import Mathlib.Tactic.ByContra
import WasmSourceMap.Proofs.Vlq.Acceptance
import WasmSourceMap.Text.Split

/-!
# The grammar of mappings

Mappings are segments of digits between marks, commas and semicolons. A text is `Grammatical` if it
has digits and marks only and every number in it is ended by a digit. This is a property of the
characters and their neighbours; it says the same as that no segment has a defect
(`grammatical_iff`). Proofs go along the marks of a text (`marks_induction`).
-/

namespace WasmSourceMap

/-- A front without separator belongs to the first piece. -/
lemma Text.splitOn_append {sep : Char} {front cs piece : List Char} {pieces : List (List Char)}
    (h : sep ∉ front) (e : splitOn sep cs = piece :: pieces) :
    splitOn sep (front ++ cs) = (front ++ piece) :: pieces := by
  induction front with
  | nil => exact e
  | cons c rest ih =>
    have other : c ≠ sep := fun same => h (same ▸ List.mem_cons_self)
    rw [List.cons_append, splitOn, if_neg other, ih fun mem => h (List.mem_cons_of_mem c mem)]
    rfl

namespace Mapping

/-- The marks between segments and between lines. -/
def isMark (c : Char) : Bool := c = ',' || c = ';'

def isDigit (c : Char) : Bool := c ∈ Vlq.alphabet

/-- The texts between the marks; a segment is one that is not empty. -/
def segmentTexts (text : List Char) : List (List Char) := text.splitOnP isMark

/-- Digits and marks, where a digit that goes on to another one is followed neither by a mark nor by
the end of the text. -/
structure Grammatical (text : List Char) : Prop where
  characters : ∀ c ∈ text, isDigit c = true ∨ isMark c = true
  followed : text.IsChain fun d c => Vlq.continues d = true → isMark c = false
  ended : ∀ d ∈ text.getLast?, Vlq.continues d = false

lemma eq_of_isMark {c : Char} (h : isMark c = true) : c = ',' ∨ c = ';' := by
  simpa [isMark] using h

lemma isDigit_eq_false {c : Char} (h : isMark c = true) : isDigit c = false := by
  rcases eq_of_isMark h with rfl | rfl <;> decide

lemma continues_eq_false {c : Char} (h : isMark c = true) : Vlq.continues c = false := by
  rcases eq_of_isMark h with rfl | rfl <;> rfl

lemma digits_of_sound {piece : List Char} (h : Vlq.defect? piece = none) :
    ∀ c ∈ piece, isDigit c = true := fun c mem =>
  decide_eq_true ((Vlq.defect?_eq_none_iff.1 h).1 c mem)

/-- A text without marks, or one that begins with such a text and a mark. -/
lemma marks_induction {P : List Char → Prop}
    (last : ∀ piece, (∀ c ∈ piece, isMark c = false) → P piece)
    (more : ∀ piece mark rest, (∀ c ∈ piece, isMark c = false) → isMark mark = true → P rest →
      P (piece ++ mark :: rest)) (text : List Char) : P text := by
  induction size : text.length using Nat.strongRecOn generalizing text with
  | ind n ih =>
    have whole : text.takeWhile (fun c => !isMark c) ++ text.dropWhile (fun c => !isMark c) = text :=
      List.takeWhile_append_dropWhile
    have noMark : ∀ c ∈ text.takeWhile fun c => !isMark c, isMark c = false := fun c mem => by
      simpa using List.mem_takeWhile_imp mem
    have first := List.head?_dropWhile_not (fun c => !isMark c) text
    cases behind : text.dropWhile fun c => !isMark c with
    | nil =>
      rw [← whole, behind, List.append_nil]
      exact last _ noMark
    | cons mark rest =>
      rw [behind] at whole first
      have shorter : rest.length < n := by
        rw [← size, ← whole, List.length_append, List.length_cons]
        omega
      rw [← whole]
      exact more _ mark rest noMark (by simpa using first) (ih _ shorter rest rfl)

lemma segmentTexts_of_noMark {piece : List Char} (noMark : ∀ c ∈ piece, isMark c = false) :
    segmentTexts piece = [piece] :=
  List.splitOnP_eq_singleton noMark

lemma segmentTexts_append_cons (front : List Char) {mark : Char} (h : isMark mark = true)
    (rest : List Char) :
    segmentTexts (front ++ mark :: rest) = segmentTexts front ++ segmentTexts rest :=
  List.splitOnP_append_cons front rest h

lemma grammatical_of_noMark {piece : List Char} (noMark : ∀ c ∈ piece, isMark c = false) :
    Grammatical piece ↔ Vlq.defect? piece = none := by
  rw [Vlq.defect?_eq_none_iff]
  constructor
  · rintro ⟨characters, -, ended⟩
    refine ⟨fun c mem => ?_, ended⟩
    rcases characters c mem with digit | mark
    · exact of_decide_eq_true digit
    · exact absurd mark (by simp [noMark c mem])
  · rintro ⟨digits, ended⟩
    have apart : piece.Pairwise fun d c => Vlq.continues d = true → isMark c = false :=
      List.pairwise_of_forall_mem_list fun _ _ c mem _ => noMark c mem
    exact ⟨fun c mem => .inl (decide_eq_true (digits c mem)), apart.isChain, ended⟩

/-- A mark keeps apart what stands before and behind it. -/
lemma grammatical_append_cons {piece : List Char} (noMark : ∀ c ∈ piece, isMark c = false)
    {mark : Char} (marks : isMark mark = true) (rest : List Char) :
    Grammatical (piece ++ mark :: rest) ↔ Vlq.defect? piece = none ∧ Grammatical rest := by
  rw [← grammatical_of_noMark noMark]
  have last : ∀ d ∈ (piece ++ mark :: rest).getLast?, d ∈ rest.getLast? ∨ d = mark := by
    intro d mem
    rw [List.getLast?_append, List.getLast?_cons] at mem
    cases h : rest.getLast? with
    | none => simp_all
    | some b => simp_all
  constructor
  · rintro ⟨characters, followed, ended⟩
    obtain ⟨before, behind, between⟩ := List.isChain_append.1 followed
    constructor
    · refine ⟨fun c mem => characters c (List.mem_append_left _ mem), before, fun d mem => ?_⟩
      -- A digit in front of the mark ends its number.
      have ends := between d mem mark rfl
      by_contra goesOn
      exact absurd (ends (by simpa using goesOn)) (by simp [marks])
    · refine ⟨fun c mem => characters c ?_, (List.isChain_cons.1 behind).2, fun d mem => ended d ?_⟩
      · exact List.mem_append_right _ (List.mem_cons_of_mem mark mem)
      · rw [List.getLast?_append, List.getLast?_cons, Option.mem_def.1 mem]
        rfl
  · rintro ⟨⟨charactersBefore, before, endedBefore⟩, ⟨characters, behind, ended⟩⟩
    refine ⟨fun c mem => ?_, List.isChain_append.2 ⟨before, ?_, ?_⟩, fun d mem => ?_⟩
    · rcases List.mem_append.1 mem with mem | mem
      · exact charactersBefore c mem
      · rcases List.mem_cons.1 mem with rfl | mem
        · exact .inr marks
        · exact characters c mem
    · refine List.isChain_cons.2 ⟨fun c _ goesOn => ?_, behind⟩
      exact absurd goesOn (by simp [continues_eq_false marks])
    · intro d mem c _ goesOn
      exact absurd goesOn (by simp [endedBefore d mem])
    · rcases last d mem with mem | rfl
      · exact ended d mem
      · exact continues_eq_false marks

/-- A text is grammatical when none of its segments has a defect. -/
lemma grammatical_iff (text : List Char) :
    Grammatical text ↔ (segmentTexts text).findSome? Vlq.defect? = none := by
  induction text using marks_induction with
  | last piece noMark =>
    rw [grammatical_of_noMark noMark, segmentTexts_of_noMark noMark, List.findSome?_singleton]
  | more piece mark rest noMark marks ih =>
    rw [grammatical_append_cons noMark marks, ih, segmentTexts_append_cons _ marks,
      segmentTexts_of_noMark noMark, List.singleton_append, List.findSome?_cons]
    cases Vlq.defect? piece <;> simp

end Mapping

end WasmSourceMap
