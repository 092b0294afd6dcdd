/-!
# Position tables

A point ties an address to a source position. A table holds one point per address, in ascending
order of the addresses; a point that is inserted replaces the one at its address.
-/

namespace WasmSourceMap

/-- The source position of an address. Line zero means that the code has no source. -/
structure Point where
  source : Option String
  address : Int
  line : Int
  column : Int
  endSequence : Bool := false
deriving DecidableEq, Repr

def Point.hasSource (p : Point) : Bool := p.line != 0

/-- Points in strictly ascending order of their addresses. -/
def Ascending (points : List Point) : Prop := points.Pairwise fun p q => p.address < q.address

/-- Put a point in its place among ascending ones. -/
def insertPoint (p : Point) : List Point → List Point
  | [] => [p]
  | q :: rest =>
    if p.address < q.address then p :: q :: rest
    else if p.address = q.address then p :: rest
    else q :: insertPoint p rest

/-- A point after the insertion is the new one or was there. -/
theorem mem_insertPoint {p q : Point} {points : List Point} (h : q ∈ insertPoint p points) :
    q = p ∨ q ∈ points := by
  induction points with
  | nil => simpa [insertPoint] using h
  | cons first rest ih =>
    unfold insertPoint at h
    split at h
    · simpa using h
    · split at h
      · rcases List.mem_cons.1 h with e | e
        · exact .inl e
        · exact .inr (List.mem_cons_of_mem _ e)
      · rcases List.mem_cons.1 h with e | e
        · exact .inr (by simp [e])
        · rcases ih e with e | e
          · exact .inl e
          · exact .inr (List.mem_cons_of_mem _ e)

/-- Insertion keeps the order. -/
theorem Ascending.insertPoint {p : Point} {points : List Point} (h : Ascending points) :
    Ascending (insertPoint p points) := by
  unfold Ascending at *
  induction points with
  | nil => simp [WasmSourceMap.insertPoint]
  | cons first rest ih =>
    obtain ⟨below, h⟩ := List.pairwise_cons.1 h
    unfold WasmSourceMap.insertPoint
    split
    · refine List.pairwise_cons.2 ⟨?_, List.pairwise_cons.2 ⟨below, h⟩⟩
      intro q hq
      rcases List.mem_cons.1 hq with rfl | hq
      · assumption
      · exact Int.lt_trans ‹_› (below q hq)
    · split
      · rename_i e
        exact List.pairwise_cons.2 ⟨fun q hq => e ▸ below q hq, h⟩
      · refine List.pairwise_cons.2 ⟨fun q hq => ?_, ih h⟩
        rcases mem_insertPoint hq with rfl | hq
        · omega
        · exact below q hq

/-- One point per address, in ascending order of the addresses. -/
structure PositionTable where
  points : List Point
  ascending : Ascending points

namespace PositionTable

def empty : PositionTable := ⟨[], .nil⟩

/-- Insert a point in the place of the one at its address. -/
def insert (t : PositionTable) (p : Point) : PositionTable :=
  ⟨insertPoint p t.points, t.ascending.insertPoint⟩

/-- The table with some points inserted one after the other. -/
def insertAll (t : PositionTable) (points : List Point) : PositionTable := points.foldl insert t

/-- The table of some points. -/
def ofList (points : List Point) : PositionTable := empty.insertAll points

def get? (t : PositionTable) (address : Int) : Option Point :=
  t.points.find? fun p => p.address == address

def contains (t : PositionTable) (address : Int) : Bool := (t.get? address).isSome

def addresses (t : PositionTable) : List Int := t.points.map (·.address)

def size (t : PositionTable) : Nat := t.points.length

end PositionTable

end WasmSourceMap
