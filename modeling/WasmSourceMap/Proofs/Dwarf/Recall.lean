import Mathlib.Tactic.Lemma
import WasmSourceMap.Dwarf.LineTable

/-!
# What a reading leaves in memory

A step of reading a unit, run on a memory, gives a result and the memory after it. The equations
here say both for each step, so that proofs about units that are read one after the other do not
look into the steps.
-/

namespace WasmSourceMap.Dwarf

section

variable {ε ε' α β : Type} {x : ExceptT ε (StateM Memory) α} {m after : Memory}

lemma run_bind (f : α → ExceptT ε (StateM Memory) β) (m : Memory) :
    (x >>= f).run m =
      match x.run m with
      | (.ok a, after) => (f a).run after
      | (.error fault, after) => (.error fault, after) := by
  have continued : (x >>= f).run m = ExceptT.bindCont f (x.run m).1 (x.run m).2 := rfl
  rw [continued]
  rcases x.run m with ⟨_ | a, after⟩ <;> rfl

lemma run_bind_of_ok {f : α → ExceptT ε (StateM Memory) β} {a : α}
    (h : x.run m = (.ok a, after)) : (x >>= f).run m = (f a).run after := by
  rw [run_bind, h]

lemma run_bind_of_error {f : α → ExceptT ε (StateM Memory) β} {fault : ε}
    (h : x.run m = (.error fault, after)) : (x >>= f).run m = (.error fault, after) := by
  rw [run_bind, h]

lemma run_adapt (f : ε → ε') (m : Memory) :
    (x.adapt f).run m = ((x.run m).1.mapError f, (x.run m).2) := rfl

lemma run_adapt_of_ok {f : ε → ε'} {a : α} (h : x.run m = (.ok a, after)) :
    (x.adapt f).run m = (.ok a, after) := by
  rw [run_adapt, h]
  rfl

lemma run_adapt_of_error {f : ε → ε'} {fault : ε} (h : x.run m = (.error fault, after)) :
    (x.adapt f).run m = (.error (f fault), after) := by
  rw [run_adapt, h]
  rfl

end

namespace Memory

/-- The memory after a unit is entered. -/
def enter (m : Memory) (unit : Nat) : Memory := { m with entered := unit :: m.entered }

/-- The memory after a read of the line section. -/
def stoppedAt (m : Memory) (position : Nat) : Memory := { m with linePosition := position }

variable (m : Memory) (position unit other : Nat) (offset : Int) (t : LineTable)

@[simp] lemma table?_stoppedAt : (m.stoppedAt position).table? offset = m.table? offset := rfl

lemma contains_enter :
    (m.enter unit).entered.contains other = (other == unit || m.entered.contains other) := rfl

lemma table?_keep (kept : Int) :
    (m.keep kept t).table? offset = if offset = kept then some t else m.table? offset := by
  unfold keep table?
  by_cases here : offset = kept
  · simp [here]
  · have different : ¬(kept == offset) = true := by simpa using Ne.symm here
    rw [if_neg here, List.find?_cons_of_neg (a := (kept, t)) different, List.find?_filter]
    congr 2
    funext entry
    by_cases found : entry.1 = offset <;> simp [found, here]

end Memory

namespace LineTable

/-- The run of the program of the table. -/
def run (t : LineTable) (data : Bytes) : LineRun :=
  .from t.header t.layout t.stop data t.start ⟨{}, t.files⟩

/-- The table after its program was run. -/
def ran (t : LineTable) (data : Bytes) : LineTable :=
  { t with files := (t.run data).files, rows := (t.run data).rows.toOption }

end LineTable

namespace View

/-- The attributes of a unit that is entered first, unless one of them cannot be looked up. -/
def lookedUp (found : Attributes) : Option Fault → Except Fault Attributes
  | none => .ok found
  | some fault => .error fault

variable (v : View) (u : UnitHeader) (l : Layout) (data : Bytes) (offset : Int) (m : Memory)

lemma run_attributes :
    (v.attributes u).run m =
      match v.entry u with
      | .error fault => (.error fault, m)
      | .ok (found, fault) =>
        if m.entered.contains u.offset then (.ok found, m)
        else (lookedUp found fault, m.enter u.offset) := by
  unfold attributes
  rcases v.entry u with own | ⟨found, fault⟩
  · rfl
  · show (if m.entered.contains u.offset then _ else _ : Recall Attributes).run m =
      if m.entered.contains u.offset then _ else _
    split
    · rfl
    · cases fault <;> rfl

section

variable {v : View} {u : UnitHeader} {m after : Memory} {found : Attributes} {fault : Option Fault}

lemma run_attributes_of_entered (read : v.entry u = .ok (found, fault))
    (entered : m.entered.contains u.offset = true) :
    (v.attributes u).run m = (.ok found, m) := by
  rw [run_attributes, read]
  exact if_pos entered

lemma run_attributes_of_new (read : v.entry u = .ok (found, fault))
    (new : m.entered.contains u.offset = false) :
    (v.attributes u).run m = (lookedUp found fault, m.enter u.offset) := by
  rw [run_attributes, read]
  exact if_neg (ne_true_of_eq_false new)

/-- Attributes that are told are those of the unit, which is entered by then. -/
lemma run_attributes_ok (h : (v.attributes u).run m = (.ok found, after)) :
    (∃ fault, v.entry u = .ok (found, fault)) ∧ after.entered.contains u.offset = true := by
  cases read : v.entry u with
  | error own =>
    rw [run_attributes, read] at h
    cases h
  | ok entry =>
    obtain ⟨own, fault⟩ := entry
    cases entered : m.entered.contains u.offset with
    | true =>
      rw [run_attributes_of_entered read entered] at h
      cases h
      exact ⟨⟨fault, rfl⟩, entered⟩
    | false =>
      rw [run_attributes_of_new read entered] at h
      cases fault with
      | none =>
        cases h
        refine ⟨⟨none, rfl⟩, ?_⟩
        rw [Memory.contains_enter, beq_self_eq_true, Bool.true_or]
      | some own => cases h

end

section

variable {v : View} {u : UnitHeader} {m after : Memory}

/-- To tell the attributes of a unit leaves no mark but that the unit is entered. -/
lemma run_attributes_memory {result : Except Fault Attributes}
    (h : (v.attributes u).run m = (result, after)) : after = m ∨ after = m.enter u.offset := by
  cases read : v.entry u with
  | error own =>
    rw [run_attributes, read] at h
    cases h
    exact .inl rfl
  | ok entry =>
    obtain ⟨found, fault⟩ := entry
    cases entered : m.entered.contains u.offset with
    | true =>
      rw [run_attributes_of_entered read entered] at h
      cases h
      exact .inl rfl
    | false =>
      rw [run_attributes_of_new read entered] at h
      cases h
      exact .inr rfl

/-- Attributes are not told if the entry cannot be read, or one of its indexes. -/
lemma run_attributes_error {fault : Fault} (h : (v.attributes u).run m = (.error fault, after)) :
    v.entry u = .error fault ∨ ∃ found, v.entry u = .ok (found, some fault) := by
  cases read : v.entry u with
  | error own =>
    rw [run_attributes, read] at h
    cases h
    exact .inl rfl
  | ok entry =>
    obtain ⟨found, ended⟩ := entry
    cases entered : m.entered.contains u.offset with
    | true =>
      rw [run_attributes_of_entered read entered] at h
      cases h
    | false =>
      rw [run_attributes_of_new read entered] at h
      cases ended <;> cases h
      exact .inr ⟨found, rfl⟩

end

/-- The directory that the attributes of a unit give. -/
def directoryOf (attributes : Attributes) : Option String :=
  (attributes.get? AttributeName.compilationDirectory).bind Value.text?

lemma run_compilationDirectory {u : UnitHeader} {m after : Memory} {found : Attributes}
    (h : (v.attributes u).run m = (.ok found, after)) :
    (v.compilationDirectory u).run m = (.ok (directoryOf found), after) := by
  unfold compilationDirectory
  rw [run_bind_of_ok h]
  rfl

lemma run_parseLineHeader (position : Nat) :
    (v.parseLineHeader l data position).run m =
      match v.readLineHeader l data position with
      | .done header next => (.ok (header, next), m.stoppedAt next)
      | .failed fault next => (.error fault, m.stoppedAt next) := by
  unfold parseLineHeader
  cases v.readLineHeader l data position <;> rfl

lemma run_parseLineTable :
    (v.parseLineTable l data offset).run m =
      match seekTo offset data 0 with
      | .failed fault _ => (.error fault, m)
      | .done _ position =>
        match v.readLineHeader l data position with
        | .failed fault next => (.error fault, m.stoppedAt next)
        | .done header start =>
          let t : LineTable :=
            { layout := l, header, start, stop := position + header.length + l.lengthWidth,
              files := header.files, rows := none }
          (.ok t, (m.stoppedAt start).keep offset t) := by
  unfold parseLineTable
  cases seekTo offset data 0 with
  | failed fault next => rfl
  | done _ position =>
    dsimp only
    unfold parseLineHeader
    cases v.readLineHeader l data position <;> rfl

/-- An offset that can be gone to is the position there. -/
lemma seekTo_done {target : Int} {position next : Nat} {gone : Unit}
    (h : seekTo target data position = .done gone next) : target = next := by
  unfold seekTo at h
  split at h
  · rename_i inside
    rw [Reader.seek_done (Reader.mapFault_done h)]
    exact (Int.toNat_of_nonneg inside).symm
  · split at h <;> cases h

lemma run_lineTableAt :
    (v.lineTableAt l data offset).run m =
      match m.table? offset with
      | some t => (.ok t, m)
      | none => (v.parseLineTable l data offset).run m := by
  unfold lineTableAt
  show (match m.table? offset with | some t => _ | none => _ : Recall LineTable).run m = _
  cases m.table? offset <;> rfl

section

variable {v : View} {l : Layout} {data : Bytes} {offset : Int} {m after : Memory} {t : LineTable}

lemma run_lineTableAt_of_some (h : m.table? offset = some t) :
    (v.lineTableAt l data offset).run m = (.ok t, m) := by
  rw [run_lineTableAt, h]

lemma run_lineTableAt_of_none (h : m.table? offset = none) :
    (v.lineTableAt l data offset).run m = (v.parseLineTable l data offset).run m := by
  rw [run_lineTableAt, h]

/-- A table that is parsed is kept, without rows yet. -/
lemma run_parseLineTable_ok (h : (v.parseLineTable l data offset).run m = (.ok t, after)) :
    after = (m.stoppedAt t.start).keep offset t ∧ t.layout = l ∧ t.files = t.header.files ∧
      ∃ position : Nat, offset = position ∧
        v.readLineHeader l data position = .done t.header t.start ∧
        t.stop = position + t.header.length + l.lengthWidth := by
  rw [run_parseLineTable] at h
  split at h
  · cases h
  · rename_i position sought
    split at h
    · cases h
    · rename_i header start read
      cases h
      exact ⟨rfl, rfl, rfl, position, seekTo_done data sought, read, rfl⟩

/-- A table that cannot be parsed is not kept. -/
lemma run_parseLineTable_error {fault : Fault}
    (h : (v.parseLineTable l data offset).run m = (.error fault, after)) :
    (∃ position, after = m.stoppedAt position) ∧
      ((∃ next, seekTo offset data 0 = .failed fault next) ∨
        ∃ (position : Nat) (next : Nat), offset = position ∧
          v.readLineHeader l data position = .failed fault next) := by
  rw [run_parseLineTable] at h
  split at h
  · rename_i own next outside
    cases h
    exact ⟨⟨m.linePosition, rfl⟩, .inl ⟨next, outside⟩⟩
  · rename_i position sought
    split at h
    · rename_i own next unread
      cases h
      exact ⟨⟨next, rfl⟩, .inr ⟨position, next, seekTo_done data sought, unread⟩⟩
    · cases h

/-- A table that is told was kept before, or it is parsed and kept. -/
lemma run_lineTableAt_ok (h : (v.lineTableAt l data offset).run m = (.ok t, after)) :
    m.table? offset = some t ∧ after = m ∨
      m.table? offset = none ∧ (v.parseLineTable l data offset).run m = (.ok t, after) := by
  cases kept : m.table? offset with
  | some t' =>
    rw [run_lineTableAt_of_some kept] at h
    cases h
    exact .inl ⟨rfl, rfl⟩
  | none =>
    rw [run_lineTableAt_of_none kept] at h
    exact .inr ⟨rfl, h⟩

lemma run_lineTableAt_error {fault : Fault}
    (h : (v.lineTableAt l data offset).run m = (.error fault, after)) :
    (∃ position, after = m.stoppedAt position) ∧
      ((∃ next, seekTo offset data 0 = .failed fault next) ∨
        ∃ (position : Nat) (next : Nat), offset = position ∧
          v.readLineHeader l data position = .failed fault next) := by
  cases kept : m.table? offset with
  | some t =>
    rw [run_lineTableAt_of_some kept] at h
    cases h
  | none =>
    rw [run_lineTableAt_of_none kept] at h
    exact run_parseLineTable_error h

/-- To look for a table enters no unit. -/
lemma entered_lineTableAt (h : (v.lineTableAt l data offset).run m = (.ok t, after)) :
    after.entered = m.entered := by
  rcases run_lineTableAt_ok h with ⟨_, rfl⟩ | ⟨_, parsed⟩
  · rfl
  · obtain ⟨rfl, _⟩ := run_parseLineTable_ok parsed
    rfl

end

lemma run_rows_of_some {t : LineTable} {rows : List Row} (h : t.rows = some rows) :
    (v.rows offset t).run m = (.ok (rows, t), m) := by
  unfold View.rows
  rw [h]
  rfl

/-- Where the reading of the line section stops when a program is run. -/
def stopAfter (t : LineTable) (m : Memory) : Nat :=
  if t.start < t.stop then (t.run data).position else m.linePosition

lemma run_runLineTable (t : LineTable) :
    (runLineTable data offset t).run m =
      ((t.run data).rows, (m.keep offset (t.ran data)).stoppedAt (stopAfter data t m)) := by
  have same : LineRun.from t.header t.layout t.stop data t.start ⟨{}, t.files⟩ = t.run data := rfl
  unfold runLineTable LineTable.ran
  dsimp only
  rw [same]
  cases (t.run data).rows <;> rfl

lemma run_rows_of_none {t : LineTable} {found : DebugSection} (h : t.rows = none)
    (inLine : v.sections.get? .line = some found) :
    (v.rows offset t).run m =
      ((t.run found.data).rows.map (·, t.ran found.data),
        (m.keep offset (t.ran found.data)).stoppedAt (stopAfter found.data t m)) := by
  unfold View.rows
  rw [h, inLine]
  dsimp only
  cases decoded : (t.run found.data).rows with
  | ok rows =>
    have ran := run_runLineTable found.data offset m t
    rw [decoded] at ran
    rw [run_bind_of_ok ran]
    have kept : ((m.keep offset (t.ran found.data)).stoppedAt
        (stopAfter found.data t m)).table? offset = some (t.ran found.data) := by
      rw [Memory.table?_stoppedAt, Memory.table?_keep, if_pos rfl]
    exact congrArg (fun kept => (Except.ok (rows, Option.getD kept t), _)) kept
  | error fault =>
    have ran := run_runLineTable found.data offset m t
    rw [decoded] at ran
    rw [run_bind_of_error ran]
    rfl

end View

end WasmSourceMap.Dwarf
