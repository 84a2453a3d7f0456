/-
Module: DatasetLineage.Digraph.Component
Purpose: The strongly connected components of a digraph that is given by successor lists, found by
  one search in depth. The search numbers vertices as it visits them and keeps them on a stack
  until their component is known. The lowlink of a vertex is the smallest number on the stack that
  is known to be reached from it; a vertex that is left with its own number as lowlink closes the
  component of all that stands above it on the stack. The way of the search is a list of frames, so
  long ways need no deep recursion. Every access to a table has to stay inside of it, or there is
  no result. Each step visits a vertex or looks at one more successor, so the search ends.
Main exports: Frame, DepthSearch, DepthSearch.step, DepthSearch.step_decreases, DepthSearch.run,
  components?, components
-/

namespace DatasetLineage.Digraph

/-- The table with a new entry at a place, if the place is in the table. -/
def put? {α : Type} (table : Array α) (place : Nat) (entry : α) : Option (Array α) :=
  if place < table.size then some (table.setIfInBounds place entry) else none

theorem put?_eq_some_iff {α : Type} {table changed : Array α} {place : Nat} {entry : α} :
    put? table place entry = some changed ↔
      place < table.size ∧ table.setIfInBounds place entry = changed := by
  unfold put?
  split
  · rename_i inside
    rw [Option.some_inj, and_iff_right inside]
  · rename_i outside
    simp [outside]

/-- A vertex on the way of the search, and how many of its successors have been looked at. -/
structure Frame where
  vertex : Nat
  child : Nat
deriving DecidableEq, Repr

/-- The frame after a look at one more successor. -/
def Frame.next (frame : Frame) : Frame := { frame with child := frame.child + 1 }

/-- A search in depth.
    - `index` gives the number of each vertex that has been visited, in the order of the visits.
    - `lowlink` and `onStack` are told of visited vertices only.
    - `stack` and `frames` begin with what came last. -/
structure DepthSearch where
  index : Array (Option Nat)
  lowlink : Array Nat
  onStack : Array Bool
  stack : List Nat := []
  nextIndex : Nat := 0
  frames : List Frame := []
  components : Array (List Nat) := #[]
deriving DecidableEq, Repr

namespace DepthSearch

/-- Nothing has been visited yet. -/
def unvisited (order : Nat) : DepthSearch where
  index := Array.replicate order none
  lowlink := Array.replicate order 0
  onStack := Array.replicate order false

/-- The search at the last one of other frames. -/
def goTo (search : DepthSearch) (frames : List Frame) : DepthSearch := { search with frames }

/-- Visits a vertex, which gets the next number and a frame. -/
def discover (search : DepthSearch) (v : Nat) : Option DepthSearch := do
  let index ← put? search.index v (some search.nextIndex)
  let lowlink ← put? search.lowlink v search.nextIndex
  let onStack ← put? search.onStack v true
  return { search with
    index, lowlink, onStack
    stack := v :: search.stack
    nextIndex := search.nextIndex + 1
    frames := ⟨v, 0⟩ :: search.frames }

/-- Lowers the lowlink of a vertex to a bound. -/
def lower (search : DepthSearch) (v bound : Nat) : Option DepthSearch := do
  let low ← search.lowlink[v]?
  let lowlink ← put? search.lowlink v (min low bound)
  return { search with lowlink }

/-- Looks at the arc from `v` to `w`. -/
def follow (search : DepthSearch) (v w : Nat) : Option DepthSearch := do
  match ← search.index[w]? with
  | none => search.discover w
  | some number => if ← search.onStack[w]? then search.lower v number else return search

/-- Takes vertices off a stack down to `v`: those taken, what is left of the stack, and the marks
    of the vertices that are on it. -/
def unstack (v : Nat) : List Nat → Array Bool → Option (List Nat × List Nat × Array Bool)
  | [], onStack => some ([], [], onStack)
  | w :: rest, onStack => do
    let onStack ← put? onStack w false
    if w = v then return ([w], rest, onStack)
    let (taken, left, onStack) ← unstack v rest onStack
    return (w :: taken, left, onStack)

/-- Closes the component of `v`. -/
def close (search : DepthSearch) (v : Nat) : Option DepthSearch := do
  let (component, stack, onStack) ← unstack v search.stack search.onStack
  return { search with stack, onStack, components := search.components.push component }

/-- Goes back from `v` to the frames behind its own. What `v` reaches, the last of these reaches
    too. -/
def goBack (search : DepthSearch) (v : Nat) (callers : List Frame) : Option DepthSearch :=
  match callers with
  | [] => some (search.goTo callers)
  | caller :: _ => do (search.goTo callers).lower caller.vertex (← search.lowlink[v]?)

/-- Leaves a vertex whose successors have all been looked at. -/
def leave (search : DepthSearch) (v : Nat) (callers : List Frame) : Option DepthSearch := do
  let search ← search.goBack v callers
  let low ← search.lowlink[v]?
  let number ← search.index[v]?
  if number = some low then search.close v else return search

/-- One step at the last frame. -/
def step (adjacency : List (List Nat)) (search : DepthSearch) (frame : Frame)
    (callers : List Frame) : Option DepthSearch := do
  let successors ← adjacency[frame.vertex]?
  match successors[frame.child]? with
  | some w => (search.goTo (frame.next :: callers)).follow frame.vertex w
  | none => search.leave frame.vertex callers

/-- How many vertices have not been visited. -/
def waiting (search : DepthSearch) : Nat := search.index.count none

/-- How many steps are due at some frames if they visit nothing. -/
def due (adjacency : List (List Nat)) : List Frame → Nat
  | [] => 0
  | frame :: callers =>
    (adjacency.getD frame.vertex []).length - frame.child + 1 + due adjacency callers

theorem waiting_discover {search next : DepthSearch} {v : Nat}
    (new : search.index[v]? = some none) (found : search.discover v = some next) :
    next.waiting < search.waiting := by
  simp only [discover, Option.bind_eq_bind, Option.bind_eq_some_iff, Option.pure_def,
    Option.some_inj, put?_eq_some_iff] at found
  obtain ⟨_, ⟨inside, rfl⟩, _, _, _, _, rfl⟩ := found
  obtain ⟨_, isNone⟩ := Array.getElem?_eq_some_iff.mp new
  have counted : 0 < search.index.count none :=
    Array.count_pos_iff.mpr (isNone ▸ Array.getElem_mem inside)
  have one_less : (search.index.set v (some search.nextIndex)).count none =
      search.index.count none - 1 := by
    simp [Array.count_set, isNone]
  simp only [waiting, Array.setIfInBounds, dif_pos inside, one_less]
  omega

theorem lower_keeps {search next : DepthSearch} {v bound : Nat}
    (lowered : search.lower v bound = some next) :
    next.index = search.index ∧ next.frames = search.frames := by
  simp only [lower, Option.bind_eq_bind, Option.bind_eq_some_iff, Option.pure_def,
    Option.some_inj] at lowered
  obtain ⟨_, _, _, _, rfl⟩ := lowered
  exact ⟨rfl, rfl⟩

theorem close_keeps {search next : DepthSearch} {v : Nat}
    (closed : search.close v = some next) :
    next.index = search.index ∧ next.frames = search.frames := by
  simp only [close, Option.bind_eq_bind, Option.bind_eq_some_iff, Option.pure_def,
    Option.some_inj] at closed
  obtain ⟨_, _, rfl⟩ := closed
  exact ⟨rfl, rfl⟩

theorem goBack_keeps {search next : DepthSearch} {v : Nat} {callers : List Frame}
    (gone : search.goBack v callers = some next) :
    next.index = search.index ∧ next.frames = callers := by
  cases callers with
  | nil =>
      cases gone
      exact ⟨rfl, rfl⟩
  | cons caller rest =>
      simp only [goBack, Option.bind_eq_bind, Option.bind_eq_some_iff] at gone
      obtain ⟨_, _, lowered⟩ := gone
      exact lower_keeps lowered

theorem leave_keeps {search next : DepthSearch} {v : Nat} {callers : List Frame}
    (left : search.leave v callers = some next) :
    next.index = search.index ∧ next.frames = callers := by
  simp only [leave, Option.bind_eq_bind, Option.bind_eq_some_iff] at left
  obtain ⟨passed, gone, _, _, _, _, ended⟩ := left
  split at ended
  · obtain ⟨sameIndex, sameFrames⟩ := close_keeps ended
    exact ⟨sameIndex.trans (goBack_keeps gone).1, sameFrames.trans (goBack_keeps gone).2⟩
  · cases ended
    exact goBack_keeps gone

/-- Looking at an arc visits a vertex or leaves numbers and frames as they are. -/
theorem follow_cases {search next : DepthSearch} {v w : Nat}
    (followed : search.follow v w = some next) :
    next.waiting < search.waiting ∨ next.index = search.index ∧ next.frames = search.frames := by
  simp only [follow, Option.bind_eq_bind, Option.bind_eq_some_iff] at followed
  obtain ⟨_, listed, followed⟩ := followed
  split at followed
  · exact .inl (waiting_discover listed followed)
  · simp only [Option.bind_eq_some_iff] at followed
    obtain ⟨_, _, followed⟩ := followed
    split at followed
    · exact .inr (lower_keeps followed)
    · cases followed
      exact .inr ⟨rfl, rfl⟩

theorem due_next {adjacency : List (List Nat)} {successors : List Nat} {frame : Frame}
    (listed : adjacency[frame.vertex]? = some successors) (more : frame.child < successors.length)
    (callers : List Frame) :
    due adjacency (frame.next :: callers) < due adjacency (frame :: callers) := by
  simp only [due, Frame.next, List.getD_eq_getElem?_getD, listed, Option.getD_some]
  omega

/-- A step visits a vertex, or else it leaves less to do at the frames. -/
theorem step_decreases {adjacency : List (List Nat)} {search next : DepthSearch} {frame : Frame}
    {callers : List Frame} (path : search.frames = frame :: callers)
    (taken : step adjacency search frame callers = some next) :
    Prod.Lex (· < ·) (· < ·) (next.waiting, due adjacency next.frames)
      (search.waiting, due adjacency search.frames) := by
  have later : next.index = search.index →
      due adjacency next.frames < due adjacency search.frames →
      Prod.Lex (· < ·) (· < ·) (next.waiting, due adjacency next.frames)
        (search.waiting, due adjacency search.frames) := by
    intro sameIndex less
    rw [waiting, sameIndex]
    exact .right _ less
  simp only [step, Option.bind_eq_bind, Option.bind_eq_some_iff] at taken
  obtain ⟨successors, listed, taken⟩ := taken
  split at taken
  · rename_i w looked
    rcases follow_cases taken with fewer | ⟨sameIndex, sameFrames⟩
    · exact .left _ _ fewer
    · apply later sameIndex
      rw [sameFrames, path]
      exact due_next listed (List.getElem?_eq_some_iff.mp looked).1 callers
  · obtain ⟨sameIndex, sameFrames⟩ := leave_keeps taken
    apply later sameIndex
    rw [sameFrames, path, due]
    omega

/-- Steps until no frame is left. -/
def run (adjacency : List (List Nat)) (search : DepthSearch) : Option DepthSearch :=
  match _ : search.frames with
  | [] => some search
  | frame :: callers =>
    match _ : step adjacency search frame callers with
    | none => none
    | some next => run adjacency next
termination_by (search.waiting, due adjacency search.frames)
decreasing_by exact step_decreases ‹_› ‹_›

theorem run_of_no_frames {search : DepthSearch} (noFrames : search.frames = [])
    (adjacency : List (List Nat)) : search.run adjacency = some search := by
  rw [run]
  split
  · rfl
  · rename_i path
    rw [noFrames] at path
    exact absurd path (by simp)

theorem run_of_frames {search : DepthSearch} {frame : Frame} {callers : List Frame}
    (path : search.frames = frame :: callers) (adjacency : List (List Nat)) :
    search.run adjacency = (search.step adjacency frame callers).bind (run adjacency) := by
  rw [run]
  split
  · rename_i noFrames
    rw [path] at noFrames
    exact absurd noFrames (by simp)
  · rename_i path'
    cases path.symm.trans path'
    split
    · rename_i failed
      rw [failed, Option.bind_none]
    · rename_i taken
      rw [taken, Option.bind_some]

/-- Searches from a root, unless it has been visited. -/
def searchFrom (adjacency : List (List Nat)) (search : DepthSearch) (root : Nat) :
    Option DepthSearch := do
  match ← search.index[root]? with
  | some _ => return search
  | none => (← search.discover root).run adjacency

end DepthSearch

/-- The strongly connected components, each in the order in which it was taken off the stack. A
    successor that is no vertex leads out of the tables. -/
def components? (adjacency : List (List Nat)) : Option (List (List Nat)) := do
  let order := adjacency.length
  let search ← (List.range order).foldlM (DepthSearch.searchFrom adjacency) (.unvisited order)
  return search.components.toList

/-- The strongly connected components of a digraph whose successors are all vertices. -/
def components (adjacency : List (List Nat)) : List (List Nat) :=
  (components? adjacency).getD []

end DatasetLineage.Digraph
