import WasmSourceMap.Json.Printer
import WasmSourceMap.Proofs.Json.Words

/-!
# Scanning a printed value

The compact form of a value is cut into the tokens that the value is made of (`tokens`). The scanner
is a machine over characters, so each lemma says where it stands after some characters in front of
any text: after the escape of a character it has read the character (`ReadsBack`), after a quoted
string it is between tokens again (`scanFrom_quoted`), and a word ends where the next character ends
it (`scanFrom_word`). `scanFrom_compactChars` follows the printer through a value.
-/

namespace WasmSourceMap

namespace Text.Hexadecimal

/-- One more place of a padded number holds its lowest digit. -/
lemma padded_digits (width n : Nat) :
    padded (width + 2) (digits n) =
      padded (width + 1) (digits (n / 16)) ++
        [(n % 16).digitChar] := by
  rw [digits, Nat.toDigits_eq_if (by decide)]
  split
  · rename_i small
    rw [Nat.mod_eq_of_lt small, Nat.div_eq_of_lt small, digits, Nat.toDigits_zero]
    simp [padded, List.replicate_succ']
  · simp [padded, digits]

end Text.Hexadecimal

namespace Text.Quoted

lemma hex_four {n : Nat} (h : n < 0x10000) :
    hex 4 n =
      [(n / 4096).digitChar, (n / 256 % 16).digitChar, (n / 16 % 16).digitChar,
        (n % 16).digitChar] := by
  have lead : n / 16 / 16 / 16 < 16 := by omega
  rw [hex, Hexadecimal.padded_digits 2, Hexadecimal.padded_digits 1, Hexadecimal.padded_digits 0]
  rw [Hexadecimal.digits, Nat.toDigits_of_lt_base lead]
  simp only [Hexadecimal.padded, List.length_singleton, Nat.sub_self, List.replicate_zero,
    List.nil_append, List.cons_append]
  simp only [Nat.div_div_eq_div_mul]

end Text.Quoted

namespace Json

namespace Token

/-- A character that completes no token only changes the state. -/
lemma scanFrom_of_step {s next : State} {c : Char} (h : step s c = some (next, []))
    (rest : List Char) : scanFrom s (c :: rest) = scanFrom next rest := by
  rw [scanFrom, h]
  exact Option.map_id'

/-- A character that completes a token adds it in front. -/
lemma scanFrom_of_step_token {s next : State} {c : Char} {token : Token}
    (h : step s c = some (next, [token])) (rest : List Char) :
    scanFrom s (c :: rest) = (scanFrom next rest).map (token :: ·) := by
  rw [scanFrom, h]
  rfl

lemma hexDigit?_digitChar {d : Nat} (h : d < 16) : hexDigit? d.digitChar = some d := by
  revert d
  decide

/-- The four digits of a unit are read back as the unit. -/
lemma scanFrom_unit {n : Nat} (h : n < 0x10000) (read : List CodePoint) (half : Option Nat)
    (rest : List Char) :
    scanFrom (.inString read half) (unitEscape n ++ rest) =
      scanFrom (afterUnit read half n) rest := by
  have digit : ∀ {d : Nat} (digits value : Nat), d < 16 → digits < 3 →
      step (.unit read half digits value) d.digitChar =
        some (.unit read half (digits + 1) (16 * value + d), []) := by
    intro d digits value hd short
    rw [step, hexDigit?_digitChar hd, Option.map_some, if_neg (by omega)]
  have last : ∀ {d : Nat} (value : Nat), d < 16 →
      step (.unit read half 3 value) d.digitChar =
        some (afterUnit read half (16 * value + d), []) := by
    intro d value hd
    rw [step, hexDigit?_digitChar hd, Option.map_some, if_pos rfl]
  rw [unitEscape, Text.Quoted.hex_four h]
  simp only [List.cons_append, List.nil_append]
  rw [scanFrom_of_step rfl, scanFrom_of_step rfl]
  rw [scanFrom_of_step (digit 0 0 (by omega) (by omega))]
  rw [scanFrom_of_step (digit 1 _ (by omega) (by omega))]
  rw [scanFrom_of_step (digit 2 _ (by omega) (by omega))]
  rw [scanFrom_of_step (last _ (by omega))]
  rw [show 16 * (16 * (16 * (16 * 0 + n / 4096) + n / 256 % 16) + n / 16 % 16) + n % 16 = n by omega]

/-- The escape of one letter is read back. -/
lemma ofEscape?_of_letterEscape? {c : Char} {escaped : List Char}
    (h : letterEscape? c = some escaped) :
    ∃ letter, escaped = ['\\', letter] ∧ letter ≠ 'u' ∧ ofEscape? letter = some c := by
  unfold letterEscape? at h
  split at h
  case h_8 => cases h
  all_goals
    cases h
    exact ⟨_, rfl, by decide, rfl⟩

/-- After the escape of a character in a string the scanner has read the character. -/
def ReadsBack (escape : Char → List Char) : Prop :=
  ∀ (read : List CodePoint) (c : Char) (rest : List Char),
    scanFrom (.inString read none) (escape c ++ rest) =
      scanFrom (.inString (.char c :: read) none) rest

section

variable {c : Char} (read : List CodePoint)

lemma scanFrom_letter {escaped : List Char} (h : letterEscape? c = some escaped)
    (rest : List Char) :
    scanFrom (.inString read none) (escaped ++ rest) =
      scanFrom (.inString (.char c :: read) none) rest := by
  obtain ⟨l, rfl, notUnit, e⟩ := ofEscape?_of_letterEscape? h
  rw [List.cons_append, List.cons_append, List.nil_append, scanFrom_of_step rfl]
  refine scanFrom_of_step ?_ rest
  rw [step, if_neg notUnit, e]
  rfl

/-- A character of 16 bits is read from its unit, which is no half of a pair. -/
lemma scanFrom_alone (h : c.toNat < 0x10000) (rest : List Char) :
    scanFrom (.inString read none) (unitEscape c.toNat ++ rest) =
      scanFrom (.inString (.char c :: read) none) rest := by
  have valid : c.toNat < 0xD800 ∨ 0xDFFF < c.toNat ∧ c.toNat < 0x110000 := c.valid
  have low : (decide (0xDC00 ≤ c.toNat) && decide (c.toNat < 0xE000)) = false := by
    simp only [Bool.and_eq_false_iff, decide_eq_false_iff_not]
    omega
  have alone : afterUnit read none c.toNat = .inString (.char (Char.ofNat c.toNat) :: read) none := by
    simp only [afterUnit, low, settle]
    rw [if_neg (by simp only [Bool.and_eq_true, decide_eq_true_eq]; omega)]
  rw [scanFrom_unit h, alone, Char.ofNat_toNat]

/-- A character that needs no escape is read as it is. -/
lemma scanFrom_plain (noLetter : letterEscape? c = none) (printable : ¬c.toNat < 0x20)
    (rest : List Char) :
    scanFrom (.inString read none) (c :: rest) =
      scanFrom (.inString (.char c :: read) none) rest := by
  refine scanFrom_of_step ?_ rest
  have quote : c ≠ '"' := by
    rintro rfl
    cases noLetter
  have backslash : c ≠ '\\' := by
    rintro rfl
    cases noLetter
  rw [step, if_neg quote, if_neg backslash, if_neg printable]
  rfl

end

lemma readsBack_escapeChar : ReadsBack escapeChar := by
  intro read c rest
  rw [escapeChar]
  cases letter : letterEscape? c with
  | some escaped => exact scanFrom_letter read letter rest
  | none =>
    rw [Option.getD_none]
    split
    · exact scanFrom_alone read (by omega) rest
    · exact scanFrom_plain read letter ‹_› rest

section

variable {escape : Char → List Char} (readsBack : ReadsBack escape)

include readsBack

lemma scanFrom_escaped (read : List CodePoint) (cs rest : List Char) :
    scanFrom (.inString read none) (cs.flatMap escape ++ rest) =
      scanFrom (.inString ((cs.map .char).reverse ++ read) none) rest := by
  induction cs generalizing read with
  | nil => rfl
  | cons c cs ih =>
    rw [List.flatMap_cons, List.append_assoc, readsBack, ih, List.map_cons, List.reverse_cons,
      List.append_assoc, List.singleton_append]

/-- A quoted string is one token. -/
lemma scanFrom_quoted (s : String) (rest : List Char) :
    scanFrom .between (quoted escape s ++ rest) =
      (scanFrom .between rest).map (.string s :: ·) := by
  rw [quoted, List.cons_append, List.cons_append, List.append_assoc]
  rw [scanFrom_of_step rfl, scanFrom_escaped readsBack, List.append_nil]
  refine scanFrom_of_step_token ?_ rest
  rw [step, if_pos rfl, settle, List.reverse_reverse]
  rfl

end

/-- The text begins with a character that ends a word, if it does not end itself. -/
def Closed (cs : List Char) : Prop := ∀ c rest, cs = c :: rest → endsWord c = true

lemma Closed.nil : Closed [] := nofun

lemma Closed.cons {c : Char} (h : endsWord c = true) (rest : List Char) : Closed (c :: rest) := by
  intro d more e
  rw [← (List.cons.inj e).1, h]

/-- The rest of a word is read to its end. -/
lemma scanFrom_inWord {word rest : List Char} (inside : ∀ c ∈ word, endsWord c = false)
    (closed : Closed rest) (read : List Char) :
    scanFrom (.inWord read) (word ++ rest) =
      (scanFrom .between rest).map (.word (read.reverse ++ word) :: ·) := by
  induction word generalizing read with
  | nil =>
    rw [List.nil_append, List.append_nil]
    cases rest with
    | nil => rfl
    | cons c more =>
      -- The character that ends the word also does what it does between tokens.
      have ends : step (.inWord read) c = some ((start c).1, .word read.reverse :: (start c).2) := by
        rw [step, if_pos (closed c more rfl)]
      rw [scanFrom, scanFrom, ends, step]
      obtain ⟨next, tokens⟩ := start c
      show (scanFrom next more).map _ = ((scanFrom next more).map _).map _
      rw [Option.map_map]
      rfl
  | cons c more ih =>
    have goes := inside c List.mem_cons_self
    have next : step (.inWord read) c = some (.inWord (c :: read), []) := by
      rw [step, if_neg (by rw [goes]; exact Bool.false_ne_true)]
    rw [List.cons_append, scanFrom_of_step next, ih fun d m => inside d (List.mem_cons_of_mem c m)]
    rw [List.reverse_cons, List.append_assoc, List.singleton_append]

/-- A word is one token. -/
lemma scanFrom_word {word rest : List Char} (nonempty : word ≠ [])
    (inside : ∀ c ∈ word, endsWord c = false) (closed : Closed rest) :
    scanFrom .between (word ++ rest) = (scanFrom .between rest).map (.word word :: ·) := by
  cases word with
  | nil => exact absurd rfl nonempty
  | cons c more =>
    have goes := inside c List.mem_cons_self
    simp only [endsWord, Bool.or_eq_false_iff, beq_eq_false_iff_ne, Option.isSome_eq_false_iff,
      Option.isNone_iff_eq_none] at goes
    obtain ⟨⟨blank, mark⟩, quote⟩ := goes
    have first : step .between c = some (.inWord [c], []) := by
      rw [step, start, blank, mark, if_neg Bool.false_ne_true]
      simp only [if_neg quote]
    rw [List.cons_append, scanFrom_of_step first]
    exact scanFrom_inWord (fun d m => inside d (List.mem_cons_of_mem c m)) closed [c]

end Token

mutual

/-- The tokens of a value. -/
def tokens : Json → List Token
  | .null => [.word ['n', 'u', 'l', 'l']]
  | .bool true => [.word ['t', 'r', 'u', 'e']]
  | .bool false => [.word ['f', 'a', 'l', 's', 'e']]
  | .integer n => [.word (toString n).toList]
  | .decimal text => [.word text.toList]
  | .string s => [.string s]
  | .wide s => [.string s]
  | .array items => .arrayOpen :: itemTokens items ++ [.arrayClose]
  | .object members => .objectOpen :: memberTokens members ++ [.objectClose]

/-- The tokens of the items of an array. -/
def itemTokens : List Json → List Token
  | [] => []
  | [item] => tokens item
  | item :: next :: rest => tokens item ++ .comma :: itemTokens (next :: rest)

/-- The tokens of the members of an object. -/
def memberTokens : List (String × Json) → List Token
  | [] => []
  | [(name, value)] => .string name :: .colon :: tokens value
  | (name, value) :: next :: rest =>
    .string name :: .colon :: tokens value ++ .comma :: memberTokens (next :: rest)

end

mutual

/-- A value that a text can hold: a number that is not an integer is the word of itself, a string
has no surrogates, two of which can be read as one character, and an object has each name once. -/
def WellFormed : Json → Prop
  | .decimal text =>
    ofWord? text.toList = some (.decimal text) ∧ ∀ c ∈ text.toList, Token.endsWord c = false
  | .wide _ => False
  | .array items => WellFormedItems items
  | .object members => (members.map Prod.fst).Nodup ∧ WellFormedMembers members
  | _ => True

/-- All items of an array are well formed. -/
def WellFormedItems : List Json → Prop
  | [] => True
  | item :: rest => WellFormed item ∧ WellFormedItems rest

/-- The values of all members of an object are well formed. -/
def WellFormedMembers : List (String × Json) → Prop
  | [] => True
  | m :: rest => WellFormed m.2 ∧ WellFormedMembers rest

end

/-- A number that is its own word is not the empty text. -/
lemma ne_nil_of_ofWord? {cs : List Char} {v : Json} (h : ofWord? cs = some v) : cs ≠ [] := by
  rintro rfl
  revert h
  rw [show ofWord? [] = none from by decide]
  exact nofun

/-- Tokens in front of tokens. -/
lemma map_cons_map_append (token : Token) (before : List Token) (x : Option (List Token)) :
    (x.map (before ++ ·)).map (token :: ·) = x.map (token :: before ++ ·) := by
  rw [Option.map_map]
  rfl

lemma map_append_map_append (first second : List Token) (x : Option (List Token)) :
    (x.map (second ++ ·)).map (first ++ ·) = x.map (first ++ second ++ ·) := by
  rw [Option.map_map]
  congr 1
  funext after
  exact (List.append_assoc first second after).symm

lemma map_append_map_cons (before : List Token) (token : Token) (x : Option (List Token)) :
    (x.map (token :: ·)).map (before ++ ·) = x.map (before ++ [token] ++ ·) :=
  map_append_map_append before [token] x

open Token in
mutual

/-- The compact form of a value is scanned as the tokens of the value. -/
theorem scanFrom_compactChars : ∀ (v : Json) (rest : List Char), v.WellFormed → Closed rest →
    scanFrom .between (compactChars v ++ rest) = (scanFrom .between rest).map (tokens v ++ ·)
  | .null, _, _, closed => scanFrom_word (List.cons_ne_nil _ _) (endsWord_of_all rfl) closed
  | .bool true, _, _, closed => scanFrom_word (List.cons_ne_nil _ _) (endsWord_of_all rfl) closed
  | .bool false, _, _, closed => scanFrom_word (List.cons_ne_nil _ _) (endsWord_of_all rfl) closed
  | .integer n, _, _, closed =>
    scanFrom_word (ne_nil_of_ofWord? (ofWord?_toString n)) (fun _ m => endsWord_of_mem_toString m)
      closed
  | .decimal _, _, ⟨own, inside⟩, closed =>
    scanFrom_word (ne_nil_of_ofWord? own) inside closed
  | .string s, rest, _, _ => scanFrom_quoted readsBack_escapeChar s rest
  | .wide _, _, wf, _ => wf.elim
  | .array items, rest, wf, _ => by
    have items := scanFrom_compactItems items (']' :: rest) wf (.cons rfl rest)
    rw [compactChars, tokens, List.cons_append, List.cons_append, List.append_assoc]
    rw [scanFrom_of_step_token rfl, List.singleton_append, items, scanFrom_of_step_token rfl]
    rw [map_append_map_cons, map_cons_map_append]
    rfl
  | .object members, rest, ⟨_, wf⟩, _ => by
    have members := scanFrom_compactMembers members ('\x7d' :: rest) wf (.cons rfl rest)
    rw [compactChars, tokens, List.cons_append, List.cons_append, List.append_assoc]
    rw [scanFrom_of_step_token rfl, List.singleton_append, members, scanFrom_of_step_token rfl]
    rw [map_append_map_cons, map_cons_map_append]
    rfl

/-- The items of an array in compact form are scanned as the tokens of the items. -/
theorem scanFrom_compactItems : ∀ (items : List Json) (rest : List Char), WellFormedItems items →
    Closed rest →
    scanFrom .between (compactItems items ++ rest) =
      (scanFrom .between rest).map (itemTokens items ++ ·)
  | [], _, _, _ => Option.map_id'.symm
  | [item], rest, wf, closed => scanFrom_compactChars item rest wf.1 closed
  | item :: next :: more, rest, wf, closed => by
    have later := scanFrom_compactItems (next :: more) rest wf.2 closed
    rw [compactItems, itemTokens, List.append_assoc, List.cons_append]
    rw [scanFrom_compactChars item _ wf.1 (.cons rfl _), scanFrom_of_step_token rfl, later]
    rw [map_cons_map_append, map_append_map_append]

/-- The members of an object in compact form are scanned as the tokens of the members. -/
theorem scanFrom_compactMembers : ∀ (members : List (String × Json)) (rest : List Char),
    WellFormedMembers members → Closed rest →
    scanFrom .between (compactMembers members ++ rest) =
      (scanFrom .between rest).map (memberTokens members ++ ·)
  | [], _, _, _ => Option.map_id'.symm
  | [(name, value)], rest, wf, closed => by
    have value := scanFrom_compactChars value rest wf.1 closed
    rw [compactMembers, memberTokens, List.append_assoc, List.cons_append]
    rw [scanFrom_quoted readsBack_escapeChar, scanFrom_of_step_token rfl, value]
    rw [map_cons_map_append, map_cons_map_append]
  | (name, value) :: next :: more, rest, wf, closed => by
    have later := scanFrom_compactMembers (next :: more) rest wf.2 closed
    have value := scanFrom_compactChars value (',' :: compactMembers (next :: more) ++ rest) wf.1
      (.cons rfl _)
    rw [compactMembers, memberTokens]
    simp only [List.append_assoc, List.cons_append] at value ⊢
    rw [scanFrom_quoted readsBack_escapeChar, scanFrom_of_step_token rfl, value]
    rw [scanFrom_of_step_token rfl, later]
    simp only [map_cons_map_append, map_append_map_append]
    simp only [List.append_assoc, List.cons_append]

end

end Json

end WasmSourceMap
