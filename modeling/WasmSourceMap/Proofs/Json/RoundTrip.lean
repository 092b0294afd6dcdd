import WasmSourceMap.Proofs.Json.Scanning
import WasmSourceMap.Proofs.Text.Wide

/-!
# Parsing a printed value

The parser reads the tokens of a value as the value, whatever is open around it
(`foldlM_tokens`): it stands before the value, and after the tokens of the value the value is
complete. In an array and in an object the items that are read so far wait on the stack in reverse
order, so the lemmas for the rest of the items and members speak of any items read before.

With the scanner this gives `parse?_compact`: the compact form of a well-formed value is read back.
-/

namespace WasmSourceMap.Json

lemma ofWide_ofString (s : String) : ofWide s = .string s := by
  rw [ofWide, WideString.text?_ofString]

lemma insertMember_of_not_mem {name : String} {value : Json} {members : List (String × Json)}
    (h : name ∉ members.map Prod.fst) :
    insertMember name value members = members ++ [(name, value)] := by
  induction members with
  | nil => rfl
  | cons m rest ih =>
    have other : m.1 ≠ name := fun e => h (e ▸ List.mem_cons_self)
    have later : name ∉ rest.map Prod.fst := fun hm => h (List.mem_cons_of_mem _ hm)
    rw [insertMember, if_neg other, ih later]
    rfl

lemma membersOfList_of_nodup {members : List (String × Json)}
    (h : (members.map Prod.fst).Nodup) : membersOfList members = members := by
  -- The members are inserted after those inserted before, which have other names.
  suffices all : ∀ before : List (String × Json), ((before ++ members).map Prod.fst).Nodup →
      members.foldl (fun done m => insertMember m.1 m.2 done) before = before ++ members from
    all [] h
  clear h
  induction members with
  | nil =>
    intro before _
    exact (List.append_nil before).symm
  | cons m rest ih =>
    intro before distinct
    have fresh : m.1 ∉ before.map Prod.fst := by
      intro hm
      rw [List.map_append, List.nodup_append] at distinct
      exact distinct.2.2 m.1 hm m.1 List.mem_cons_self rfl
    rw [List.foldl_cons, insertMember_of_not_mem fresh]
    rw [ih (before ++ [m]) (by rw [List.append_assoc]; exact distinct), List.append_assoc]
    rfl

/-- The tokens of a value do not begin with the end of an array. -/
lemma tokens_eq_cons (v : Json) : ∃ first rest, tokens v = first :: rest ∧ first ≠ .arrayClose := by
  cases v with
  | bool b => cases b <;> exact ⟨_, _, rfl, Token.noConfusion⟩
  | _ => exact ⟨_, _, rfl, Token.noConfusion⟩

/-- Nor do the tokens of the items of an array. -/
lemma itemTokens_eq_cons (item : Json) (rest : List Json) :
    ∃ first later, itemTokens (item :: rest) = first :: later ∧ first ≠ .arrayClose := by
  obtain ⟨first, later, e, notClose⟩ := tokens_eq_cons item
  cases rest with
  | nil => exact ⟨first, later, by rw [itemTokens, e], notClose⟩
  | cons next rest => exact ⟨first, _, by rw [itemTokens, e, List.cons_append], notClose⟩

namespace Expect

/-- Where the first item of an array is expected, the items are read. -/
lemma foldlM_firstItem (item : Json) (rest : List Json) (stack : List Frame) (more : List Token) :
    (itemTokens (item :: rest) ++ more).foldlM step (.firstItem stack) =
      (itemTokens (item :: rest) ++ more).foldlM step (.value (.array [] :: stack)) := by
  obtain ⟨first, later, e, notClose⟩ := itemTokens_eq_cons item rest
  have same : step (.firstItem stack) first = step (.value (.array [] :: stack)) first := by
    cases first with
    | arrayClose => exact absurd rfl notClose
    | _ => rfl
  rw [e, List.cons_append, List.foldlM_cons, List.foldlM_cons, same]

/-- Where the first name of an object is expected, the names of members are read. -/
lemma foldlM_firstName (name : String) (v : Json) (rest : List (String × Json))
    (stack : List Frame) (more : List Token) :
    (memberTokens ((name, v) :: rest) ++ more).foldlM step (.firstName stack) =
      (memberTokens ((name, v) :: rest) ++ more).foldlM step (.memberName [] stack) := by
  cases rest <;> rfl

/-- A token that is understood leads on. -/
lemma foldlM_of_step {e next : Expect} {token : Token} (h : step e token = some next)
    (more : List Token) : (token :: more).foldlM step e = more.foldlM step next := by
  rw [List.foldlM_cons, h]
  rfl

/-- A word is read as its value. -/
lemma foldlM_word {cs : List Char} {v : Json} (h : ofWord? cs = some v) (stack : List Frame)
    (more : List Token) :
    (.word cs :: more).foldlM step (.value stack) = more.foldlM step (complete v stack) := by
  refine foldlM_of_step ?_ more
  rw [step, stepValue, h]
  rfl

mutual

/-- The tokens of a value are read as the value. -/
theorem foldlM_tokens : ∀ (v : Json) (stack : List Frame) (more : List Token), v.WellFormed →
    (tokens v ++ more).foldlM step (.value stack) = more.foldlM step (complete v stack)
  | .null, stack, more, _ => foldlM_word rfl stack more
  | .bool true, stack, more, _ => foldlM_word rfl stack more
  | .bool false, stack, more, _ => foldlM_word rfl stack more
  | .integer n, stack, more, _ => foldlM_word (ofWord?_toString n) stack more
  | .decimal _, stack, more, ⟨own, _⟩ => foldlM_word own stack more
  | .string s, stack, more, _ => by
    rw [tokens, List.singleton_append, foldlM_of_step rfl, ofWide_ofString]
  | .wide _, _, _, wf => wf.elim
  | .array [], stack, more, _ => by
    rw [tokens, itemTokens, List.singleton_append, List.cons_append, List.singleton_append]
    rw [foldlM_of_step rfl, foldlM_of_step rfl]
  | .array (item :: rest), stack, more, wf => by
    have items := foldlM_itemTokens (item :: rest) [] stack more (List.cons_ne_nil _ _) wf
    rw [tokens, List.cons_append, List.cons_append, List.append_assoc, List.singleton_append]
    rw [foldlM_of_step rfl, foldlM_firstItem, items]
    rfl
  | .object [], stack, more, _ => by
    rw [tokens, memberTokens, List.singleton_append, List.cons_append, List.singleton_append]
    rw [foldlM_of_step rfl, foldlM_of_step rfl]
  | .object ((name, v) :: rest), stack, more, ⟨distinct, wf⟩ => by
    have members := foldlM_memberTokens ((name, v) :: rest) [] stack more (List.cons_ne_nil _ _) wf
    rw [tokens, List.cons_append, List.cons_append, List.append_assoc, List.singleton_append]
    rw [foldlM_of_step rfl, foldlM_firstName, members]
    rw [List.reverse_nil, List.nil_append, membersOfList_of_nodup distinct]

/-- The tokens of some items are read as the rest of an array. -/
theorem foldlM_itemTokens : ∀ (items done : List Json) (stack : List Frame) (more : List Token),
    items ≠ [] → WellFormedItems items →
    (itemTokens items ++ .arrayClose :: more).foldlM step (.value (.array done :: stack)) =
      more.foldlM step (complete (.array (done.reverse ++ items)) stack)
  | [], _, _, _, nonempty, _ => absurd rfl nonempty
  | [item], done, stack, more, _, wf => by
    rw [itemTokens, foldlM_tokens item _ _ wf.1, foldlM_of_step rfl, List.reverse_cons]
  | item :: next :: rest, done, stack, more, _, wf => by
    have later := foldlM_itemTokens (next :: rest) (item :: done) stack more
      (List.cons_ne_nil _ _) wf.2
    rw [itemTokens, List.append_assoc, List.cons_append, foldlM_tokens item _ _ wf.1]
    rw [foldlM_of_step rfl, later, List.reverse_cons, List.append_assoc, List.singleton_append]

/-- The tokens of some members are read as the rest of an object. -/
theorem foldlM_memberTokens : ∀ (members done : List (String × Json)) (stack : List Frame)
    (more : List Token), members ≠ [] → WellFormedMembers members →
    (memberTokens members ++ .objectClose :: more).foldlM step (.memberName done stack) =
      more.foldlM step (complete (.object (membersOfList (done.reverse ++ members))) stack)
  | [], _, _, _, nonempty, _ => absurd rfl nonempty
  | [(name, v)], done, stack, more, _, wf => by
    rw [memberTokens, List.cons_append, List.cons_append]
    rw [foldlM_of_step rfl, foldlM_of_step rfl, WideString.shown_ofString]
    rw [foldlM_tokens v _ _ wf.1, foldlM_of_step rfl, List.reverse_cons]
  | (name, v) :: next :: rest, done, stack, more, _, wf => by
    have later := foldlM_memberTokens (next :: rest) ((name, v) :: done) stack more
      (List.cons_ne_nil _ _) wf.2
    rw [memberTokens, List.cons_append, List.cons_append, List.cons_append, List.cons_append]
    rw [List.append_assoc, List.cons_append]
    rw [foldlM_of_step rfl, foldlM_of_step rfl, WideString.shown_ofString]
    rw [foldlM_tokens v _ _ wf.1, foldlM_of_step rfl, later]
    rw [List.reverse_cons, List.append_assoc, List.singleton_append]

end

end Expect

/-- What is scanned as the tokens of a well-formed value is parsed as the value. -/
lemma parseChars_of_scan {cs : List Char} {v : Json} (scanned : Token.scan cs = some (tokens v))
    (wf : v.WellFormed) : parseChars cs = some v := by
  have read := Expect.foldlM_tokens v [] [] wf
  rw [List.append_nil] at read
  rw [parseChars, scanned]
  show (tokens v).foldlM Expect.step (.value []) >>= _ = _
  rw [read]
  rfl

/-- The compact form of a well-formed value is read back. -/
theorem parse?_compact {v : Json} (wf : v.WellFormed) : parse? (compact v) = some v := by
  have all := scanFrom_compactChars v [] wf .nil
  rw [List.append_nil] at all
  rw [parse?, compact, String.toList_ofList]
  refine parseChars_of_scan ?_ wf
  rw [Token.scan, all]
  exact congrArg some (List.append_nil (tokens v))

end WasmSourceMap.Json
