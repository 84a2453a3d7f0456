/-
Module: DatasetLineage.Digraph.Circuit
Purpose: A shortest circuit through a vertex of a digraph that is given by successor lists. A search
  in breadth among the members of a set records for every vertex that it discovers the vertex from
  which it did so. The first arc that leads back to the start closes a circuit, which is read off
  the records backwards. Arcs of a vertex to itself are left out. Every access to a table has to
  stay inside of it, or there is no result. Each round takes a vertex off the queue, and only
  members that have not been discovered come to it, so the search ends.
Main exports: Discovery, parentOf?, walkWithin, walkBack, BreadthSearch, BreadthSearch.look,
  BreadthSearch.pending_lt, BreadthSearch.run, shortestCircuit?
-/

namespace DatasetLineage.Digraph

/-- A discovery: a vertex and the one from which it was reached. -/
structure Discovery where
  vertex : Nat
  parent : Nat
deriving DecidableEq, Repr

/-- The vertex from which a vertex was reached, if it has been discovered. -/
def parentOf? (found : List Discovery) (v : Nat) : Option Nat :=
  (found.find? (·.vertex = v)).map Discovery.parent

/-- The way from `v` back to `start` along discoveries, if it has no more links than `steps`. There
    is none if a vertex on it has not been discovered. -/
def walkWithin (start : Nat) (found : List Discovery) (steps v : Nat) : Option (List Nat) :=
  if v = start then some [v]
  else match steps with
    | 0 => none
    | steps + 1 => do
      let parent ← parentOf? found v
      let rest ← walkWithin start found steps parent
      return v :: rest

/-- The way from `v` back to `start`. A way that has more links than there are discoveries comes to
    a vertex again, and so never to `start`. -/
def walkBack (start : Nat) (found : List Discovery) (v : Nat) : Option (List Nat) :=
  walkWithin start found found.length v

/-- A search in breadth: the discoveries, latest first, and the vertices whose arcs are to be looked
    at, in order. -/
structure BreadthSearch where
  found : List Discovery := []
  queue : List Nat
deriving DecidableEq, Repr

namespace BreadthSearch

/-- The vertices that have been discovered, latest first. -/
def discovered (search : BreadthSearch) : List Nat := search.found.map Discovery.vertex

/-- Records a vertex that has been reached from `v`. -/
def discover (search : BreadthSearch) (w v : Nat) : BreadthSearch :=
  { found := ⟨w, v⟩ :: search.found, queue := search.queue ++ [w] }

/-- Looks at the arcs of `v` in turn, and tells whether one of them leads back to `start`, which is
    then the last one. -/
def look (members : List Nat) (start v : Nat) : List Nat → BreadthSearch → BreadthSearch × Bool
  | [], search => (search, false)
  | w :: rest, search =>
    if w = v then look members start v rest search
    else if w = start then (search, true)
    else if w ∈ members ∧ w ∉ search.discovered then
      look members start v rest (search.discover w v)
    else look members start v rest search

/-- How many members have not been discovered, and how many vertices are queued. -/
def pending (members : List Nat) (search : BreadthSearch) : Nat :=
  (members.filter (· ∉ search.discovered)).length + search.queue.length

theorem pending_discover_le {members : List Nat} {search : BreadthSearch} {w : Nat}
    (member : w ∈ members) (new : w ∉ search.discovered) (v : Nat) :
    (search.discover w v).pending members ≤ search.pending members := by
  have fewer : members.filter (· ∉ (search.discover w v).discovered) =
      (members.filter (· ∉ search.discovered)).filter (· ≠ w) := by
    rw [List.filter_filter]
    apply List.filter_congr
    intro u _
    simp [discovered, discover]
  have listed : w ∈ members.filter (· ∉ search.discovered) := by simp [member, new]
  have less : ((members.filter (· ∉ search.discovered)).filter (· ≠ w)).length <
      (members.filter (· ∉ search.discovered)).length :=
    List.length_filter_lt_length_iff_exists.mpr ⟨w, listed, by simp⟩
  rw [pending, pending, fewer, discover, List.length_append, List.length_singleton]
  omega

/-- A look at arcs leaves no more pending than there was. -/
theorem look_pending_le (members : List Nat) (start v : Nat) (arcs : List Nat)
    (search : BreadthSearch) :
    (look members start v arcs search).1.pending members ≤ search.pending members := by
  induction arcs generalizing search with
  | nil =>
      exact Nat.le_refl _
  | cons w rest ih =>
      unfold look
      split
      · exact ih search
      · split
        · exact Nat.le_refl _
        · split
          · rename_i fresh
            exact Nat.le_trans (ih _) (pending_discover_le fresh.1 fresh.2 v)
          · exact ih search

/-- A round takes one vertex off what is pending. -/
theorem pending_lt {members : List Nat} {start v : Nat} {waiting arcs : List Nat} {isClosed : Bool}
    {search next : BreadthSearch} (queued : search.queue = v :: waiting)
    (looked : look members start v arcs { search with queue := waiting } = (next, isClosed)) :
    next.pending members < search.pending members := by
  have le := look_pending_le members start v arcs { search with queue := waiting }
  rw [looked, pending, pending] at le
  rw [pending, pending, queued, List.length_cons]
  exact Nat.lt_succ_of_le le

/-- Searches until the queue is empty or an arc leads back to `start`. -/
def run (adjacency : List (List Nat)) (members : List Nat) (start : Nat) (search : BreadthSearch) :
    Option (Option (List Nat)) :=
  match _ : search.queue with
  | [] => some none
  | v :: waiting =>
    match adjacency[v]? with
    | none => none
    | some successors =>
      match _ : look members start v successors { search with queue := waiting } with
      | (next, true) => (walkBack start next.found v).map fun path => some path.reverse
      | (next, false) => run adjacency members start next
termination_by search.pending members
decreasing_by exact pending_lt ‹_› ‹_›

theorem run_of_empty {search : BreadthSearch} (empty : search.queue = [])
    (adjacency : List (List Nat)) (members : List Nat) (start : Nat) :
    search.run adjacency members start = some none := by
  rw [run]
  split
  · rfl
  · rename_i queued
    rw [empty] at queued
    exact absurd queued (by simp)

theorem run_of_queued {search : BreadthSearch} {adjacency : List (List Nat)} {v : Nat}
    {waiting successors : List Nat} (queued : search.queue = v :: waiting)
    (listed : adjacency[v]? = some successors) (members : List Nat) (start : Nat) :
    search.run adjacency members start =
      match look members start v successors { search with queue := waiting } with
      | (next, true) => (walkBack start next.found v).map fun path => some path.reverse
      | (next, false) => next.run adjacency members start := by
  rw [run]
  split
  · rename_i empty
    rw [queued] at empty
    exact absurd empty (by simp)
  · rename_i queued'
    cases queued.symm.trans queued'
    rw [listed]
    dsimp only
    split
    · rename_i looked
      rw [looked]
    · rename_i looked
      rw [looked]

end BreadthSearch

/-- A shortest circuit of two or more vertices among `members` through `start`, beginning there. -/
def shortestCircuit? (adjacency : List (List Nat)) (members : List Nat) (start : Nat) :
    Option (Option (List Nat)) :=
  BreadthSearch.run adjacency members start { queue := [start] }

end DatasetLineage.Digraph
