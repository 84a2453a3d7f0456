/-
Module: DatasetLineage.Proofs.DigraphDepthSearch
Purpose: What a search in depth keeps at every step. The stack is cut into layers, one for each
  frame: the vertex of the frame at the bottom of its layer, and above it what the search has left
  but not closed. A vertex that is left with another lowlink than its own number reaches a vertex
  below, and through it the frame behind its own, so its layer joins the one below. The vertices of
  a layer therefore reach one another. A vertex that is left with its own number as lowlink has no
  way to anything below, so its layer is a component.
Main exports: Numbered, VisitedAfter, IsLayer, Layered, AreClosed, Searching, Searching.discover,
  Searching.step, Searching.exists_run
-/
import DatasetLineage.Digraph.Component
import DatasetLineage.Proofs.DigraphReachability
import Mathlib.Data.List.Perm.Basic
import Mathlib.Data.List.Nodup

namespace DatasetLineage.Digraph

open Relation (ReflTransGen)

/-- Whether a vertex has been visited as the one with a number. -/
def Numbered (index : Array (Option Nat)) (v number : Nat) : Prop := index[v]? = some (some number)

/-- Whether `v` has been visited after `u`. -/
def VisitedAfter (index : Array (Option Nat)) (v u : Nat) : Prop :=
  ∃ later earlier, Numbered index v later ∧ Numbered index u earlier ∧ earlier < later

/-- Whether the numbers in one table are in another one too. -/
def Grows (index grown : Array (Option Nat)) : Prop :=
  ∀ v number, Numbered index v number → Numbered grown v number

/-! ### Numbers of vertices -/

section Numbers

variable {index grown : Array (Option Nat)} {u v w number : Nat}

theorem Numbered.lt (numbered : Numbered index v number) : v < index.size :=
  (Array.getElem?_eq_some_iff.mp numbered).1

theorem Numbered.unique {other : Nat} (first : Numbered index v number)
    (second : Numbered index v other) : number = other :=
  Option.some.inj (Option.some.inj (first.symm.trans second))

theorem Grows.refl (index : Array (Option Nat)) : Grows index index := fun _ _ numbered => numbered

theorem Grows.trans {last : Array (Option Nat)} (first : Grows index grown)
    (second : Grows grown last) : Grows index last :=
  fun v number numbered => second v number (first v number numbered)

theorem VisitedAfter.mono (grows : Grows index grown) (after : VisitedAfter index v u) :
    VisitedAfter grown v u := by
  obtain ⟨later, earlier, isLater, isEarlier, less⟩ := after
  exact ⟨later, earlier, grows v later isLater, grows u earlier isEarlier, less⟩

/-- A vertex that was visited after another one has the larger number. -/
theorem VisitedAfter.lt {other : Nat} (after : VisitedAfter index v u)
    (isV : Numbered index v number) (isU : Numbered index u other) : other < number := by
  obtain ⟨later, earlier, isLater, isEarlier, less⟩ := after
  rw [isV.unique isLater, isU.unique isEarlier]
  exact less

/-- The numbers in a table with one more number. -/
theorem numbered_setIfInBounds (inside : w < index.size) {next : Nat} :
    Numbered (index.setIfInBounds w (some next)) v number ↔
      v = w ∧ number = next ∨ v ≠ w ∧ Numbered index v number := by
  rw [Numbered, Array.getElem?_setIfInBounds]
  split
  · rename_i same
    subst same
    simp [eq_comm]
  · rename_i different
    rw [Numbered]
    simp [Ne.symm different]

theorem grows_setIfInBounds (new : index[w]? = some none) (next : Nat) :
    Grows index (index.setIfInBounds w (some next)) := by
  intro v number numbered
  have inside : w < index.size := (Array.getElem?_eq_some_iff.mp new).1
  refine (numbered_setIfInBounds inside).mpr (.inr ⟨?_, numbered⟩)
  rintro rfl
  rw [Numbered, new] at numbered
  exact absurd numbered (by simp)

end Numbers

/-- Whether the search has looked at an arc to `z` from a layer: at all arcs from the vertices
    above the frame, and at the first ones from the frame itself. -/
def HasLookedAt (adjacency : List (List Nat)) (frame : Frame) (above : List Nat) (z : Nat) : Prop :=
  (∃ y ∈ above, Arc adjacency y z) ∨ z ∈ (adjacency.getD frame.vertex []).take frame.child

/-- What is known of a frame, of the vertices of its layer above it, and of those below the layer.
    - `connected` tells that the layer is a set of vertices that reach one another.
    - `reachesLow` tells where the lowlink of the frame comes from.
    - `looked` tells that arcs from the layer to vertices below it are counted in the lowlink. -/
structure IsLayer (adjacency : List (List Nat)) (index : Array (Option Nat)) (lowlink : Array Nat)
    (frame : Frame) (low : Nat) (above below : List Nat) : Prop where
  connected : ∀ y ∈ above, StronglyConnected (Arc adjacency) frame.vertex y
  isLow : lowlink[frame.vertex]? = some low
  reachesLow : ∃ t ∈ frame.vertex :: below, Numbered index t low ∧
    ReflTransGen (Arc adjacency) frame.vertex t
  looked : ∀ z, HasLookedAt adjacency frame above z →
    ∃ number, Numbered index z number ∧ (z ∈ below → low ≤ number)

/-- Whether a stack is cut into layers by frames, each of which leads to the next one. -/
inductive Layered (adjacency : List (List Nat)) (index : Array (Option Nat))
    (lowlink : Array Nat) : List Frame → List Nat → Prop where
  | nil : Layered adjacency index lowlink [] []
  | cons {frame : Frame} {callers : List Frame} {low : Nat} {above below : List Nat} :
      Layered adjacency index lowlink callers below →
      (∀ caller ∈ callers.head?, Arc adjacency caller.vertex frame.vertex) →
      IsLayer adjacency index lowlink frame low above below →
      Layered adjacency index lowlink (frame :: callers) (above ++ frame.vertex :: below)

/-! ### Layers of the stack -/

section Layers

variable {adjacency : List (List Nat)} {index grown : Array (Option Nat)}
  {lowlink changed : Array Nat} {frame caller : Frame} {frames callers : List Frame}
  {low lowBelow number w : Nat} {above below stack : List Nat}

theorem IsLayer.mono (grows : Grows index grown)
    (kept : changed[frame.vertex]? = lowlink[frame.vertex]?)
    (layer : IsLayer adjacency index lowlink frame low above below) :
    IsLayer adjacency grown changed frame low above below where
  connected := layer.connected
  isLow := kept.trans layer.isLow
  reachesLow := by
    obtain ⟨t, member, numbered, way⟩ := layer.reachesLow
    exact ⟨t, member, grows t low numbered, way⟩
  looked z hasLooked := by
    obtain ⟨number, numbered, bounded⟩ := layer.looked z hasLooked
    exact ⟨number, grows z number numbered, bounded⟩

theorem Layered.mono (grows : Grows index grown)
    (kept : ∀ frame ∈ frames, changed[frame.vertex]? = lowlink[frame.vertex]?)
    (layered : Layered adjacency index lowlink frames stack) :
    Layered adjacency grown changed frames stack := by
  induction layered with
  | nil =>
      exact .nil
  | cons _ linked layer ih =>
      rw [List.forall_mem_cons] at kept
      exact .cons (ih kept.2) linked (layer.mono grows kept.1)

/-- Frames stand on the stack. -/
theorem Layered.vertex_mem (layered : Layered adjacency index lowlink frames stack)
    (listed : frame ∈ frames) : frame.vertex ∈ stack := by
  induction layered with
  | nil =>
      exact absurd listed List.not_mem_nil
  | cons _ _ _ ih =>
      rw [List.mem_append, List.mem_cons]
      rcases List.mem_cons.mp listed with rfl | later
      · exact .inr (.inl rfl)
      · exact .inr (.inr (ih later))

/-- Everything on the stack reaches the last frame. -/
theorem Layered.reaches_frame (layered : Layered adjacency index lowlink frames stack) {t : Nat}
    (member : t ∈ stack) : ∃ frame ∈ frames.head?, ReflTransGen (Arc adjacency) t frame.vertex := by
  induction layered with
  | nil =>
      exact absurd member List.not_mem_nil
  | @cons frame callers low above below _ linked layer ih =>
      refine ⟨frame, rfl, ?_⟩
      rw [List.mem_append, List.mem_cons] at member
      rcases member with inAbove | rfl | inBelow
      · exact (layer.connected t inAbove).2
      · exact .refl
      · obtain ⟨caller, isCaller, way⟩ := ih inBelow
        exact way.tail (linked caller isCaller)

/-- A frame may go on to its next successor, if that one has been visited and is counted in the
    lowlink where it stands below. -/
theorem IsLayer.look (layer : IsLayer adjacency index lowlink frame low above below)
    (next : (adjacency.getD frame.vertex [])[frame.child]? = some w)
    (numbered : Numbered index w number) (counted : w ∈ below → low ≤ number) :
    IsLayer adjacency index lowlink frame.next low above below where
  connected := layer.connected
  isLow := layer.isLow
  reachesLow := layer.reachesLow
  looked z hasLooked := by
    have earlier : HasLookedAt adjacency frame above z ∨ z = w := by
      rcases hasLooked with inAbove | taken
      · exact .inl (.inl inAbove)
      · rw [Frame.next, List.take_add_one, next, Option.toList_some, List.mem_append,
          List.mem_singleton] at taken
        exact taken.imp_left .inr
    rcases earlier with before | rfl
    · exact layer.looked z before
    · exact ⟨number, numbered, counted⟩

/-- The lowlink of a frame may be lowered to the number of a successor that is on the stack. -/
theorem IsLayer.lower (layer : IsLayer adjacency index lowlink frame low above below)
    (sorted : (above ++ frame.vertex :: below).Pairwise (VisitedAfter index))
    (member : w ∈ above ++ frame.vertex :: below) (arc : Arc adjacency frame.vertex w)
    (numbered : Numbered index w number)
    (isLow : changed[frame.vertex]? = some (min low number)) :
    IsLayer adjacency index changed frame (min low number) above below where
  connected := layer.connected
  isLow := isLow
  reachesLow := by
    obtain ⟨t, isBelow, isLow, way⟩ := layer.reachesLow
    rcases Nat.le_total low number with smaller | larger
    · rw [Nat.min_eq_left smaller]
      exact ⟨t, isBelow, isLow, way⟩
    · rw [Nat.min_eq_right larger]
      rcases List.mem_append.mp member with inAbove | isBelow'
      · -- what stands above has a larger number than the lowlink
        have after := (List.pairwise_append.mp sorted).2.2 w inAbove t isBelow
        exact absurd (after.lt numbered isLow) (Nat.not_lt_of_le larger)
      · exact ⟨w, isBelow', numbered, .single arc⟩
  looked z hasLooked := by
    obtain ⟨other, isOther, bounded⟩ := layer.looked z hasLooked
    exact ⟨other, isOther, fun inBelow => Nat.le_trans (Nat.min_le_left _ _) (bounded inBelow)⟩

/-- Once all successors of a frame have been looked at, all arcs from its layer have. -/
theorem hasLookedAt_of_arc {y z : Nat}
    (done : (adjacency.getD frame.vertex [])[frame.child]? = none)
    (member : y ∈ above ++ [frame.vertex]) (arc : Arc adjacency y z) :
    HasLookedAt adjacency frame above z := by
  rcases List.mem_append.mp member with inAbove | isFrame
  · exact .inl ⟨y, inAbove, arc⟩
  · rw [List.mem_singleton] at isFrame
    refine .inr ?_
    rw [List.take_of_length_le (List.getElem?_eq_none_iff.mp done)]
    exact isFrame ▸ arc

/-- A layer that reaches below its frame joins the layer below. -/
theorem IsLayer.join {aboveCaller belowCaller : List Nat}
    (layer : IsLayer adjacency index lowlink frame low above
      (aboveCaller ++ caller.vertex :: belowCaller))
    (layerBelow : IsLayer adjacency index lowlink caller lowBelow aboveCaller belowCaller)
    (layered : Layered adjacency index lowlink (caller :: callers)
      (aboveCaller ++ caller.vertex :: belowCaller))
    (sorted : (aboveCaller ++ caller.vertex :: belowCaller).Pairwise (VisitedAfter index))
    (linked : Arc adjacency caller.vertex frame.vertex)
    (done : (adjacency.getD frame.vertex [])[frame.child]? = none)
    (notOwn : ¬ Numbered index frame.vertex low)
    (isLow : changed[caller.vertex]? = some (min lowBelow low)) :
    IsLayer adjacency index changed caller (min lowBelow low)
      (above ++ frame.vertex :: aboveCaller) belowCaller := by
  obtain ⟨t, listed, isT, way⟩ := layer.reachesLow
  have isBelow : t ∈ aboveCaller ++ caller.vertex :: belowCaller := by
    rcases List.mem_cons.mp listed with rfl | isBelow
    · exact absurd isT notOwn
    · exact isBelow
  -- the way below leads on to the caller
  have back : ReflTransGen (Arc adjacency) frame.vertex caller.vertex := by
    obtain ⟨last, isLast, rest⟩ := layered.reaches_frame isBelow
    rw [List.head?_cons, Option.mem_some_iff] at isLast
    exact isLast ▸ way.trans rest
  have both : StronglyConnected (Arc adjacency) caller.vertex frame.vertex :=
    ⟨.single linked, back⟩
  constructor
  case connected =>
    intro y member
    rw [List.mem_append, List.mem_cons] at member
    rcases member with inAbove | rfl | inCaller
    · exact both.trans (layer.connected y inAbove)
    · exact both
    · exact layerBelow.connected y inCaller
  case isLow =>
    exact isLow
  case reachesLow =>
    obtain ⟨s, listed', isS, way'⟩ := layerBelow.reachesLow
    rcases Nat.le_total lowBelow low with smaller | larger
    · rw [Nat.min_eq_left smaller]
      exact ⟨s, listed', isS, way'⟩
    · rw [Nat.min_eq_right larger]
      rcases List.mem_append.mp isBelow with inCaller | deeper
      · have after := (List.pairwise_append.mp sorted).2.2 t inCaller s listed'
        exact absurd (after.lt isT isS) (Nat.not_lt_of_le larger)
      · exact ⟨t, deeper, isT, .head linked way⟩
  case looked =>
    intro z hasLooked
    have earlier : HasLookedAt adjacency frame above z ∨
        HasLookedAt adjacency caller aboveCaller z := by
      rcases hasLooked with ⟨y, member, arc⟩ | taken
      · rw [List.append_cons, List.mem_append] at member
        rcases member with inLayer | inCaller
        · exact .inl (hasLookedAt_of_arc done inLayer arc)
        · exact .inr (.inl ⟨y, inCaller, arc⟩)
      · exact .inr (.inr taken)
    rcases earlier with fromLayer | fromCaller
    · obtain ⟨number, numbered, bounded⟩ := layer.looked z fromLayer
      refine ⟨number, numbered, fun deeper => ?_⟩
      apply Nat.le_trans (Nat.min_le_right _ _)
      exact bounded (List.mem_append_right _ (List.mem_cons_of_mem _ deeper))
    · obtain ⟨number, numbered, bounded⟩ := layerBelow.looked z fromCaller
      exact ⟨number, numbered, fun deeper =>
        Nat.le_trans (Nat.min_le_left _ _) (bounded deeper)⟩

/-- The lowlink of a frame is no larger than the number of a vertex that was visited after its
    layer. -/
theorem IsLayer.low_le (layer : IsLayer adjacency index lowlink frame low above below)
    (after : ∀ u ∈ above ++ frame.vertex :: below, VisitedAfter index w u)
    (numbered : Numbered index w number) : low ≤ number := by
  obtain ⟨t, listed, isLow, _⟩ := layer.reachesLow
  exact Nat.le_of_lt ((after t (List.mem_append_right _ listed)).lt numbered isLow)

/-- No arc leads below a layer whose frame has its own number as lowlink. -/
theorem IsLayer.not_mem_below (layer : IsLayer adjacency index lowlink frame low above below)
    (sorted : (above ++ frame.vertex :: below).Pairwise (VisitedAfter index))
    (own : Numbered index frame.vertex low) {z : Nat}
    (hasLooked : HasLookedAt adjacency frame above z) : z ∉ below := by
  intro inBelow
  obtain ⟨number, numbered, bounded⟩ := layer.looked z hasLooked
  have ofFrame := (List.pairwise_append.mp sorted).2.1
  have after := (List.pairwise_cons.mp ofFrame).1 z inBelow
  exact absurd (bounded inBelow) (Nat.not_le_of_lt (after.lt own numbered))

end Layers

/-- The components that have been closed.
    - `noneLeaves` tells that nothing but closed components is reached from them.
    - `ordered` tells that a component reaches only those that have been closed before it. -/
structure AreClosed (adjacency : List (List Nat)) (closed : List (List Nat)) : Prop where
  inhabited : ∀ component ∈ closed, component ≠ []
  whole : ∀ component ∈ closed, ∀ u ∈ component, ∀ v,
    v ∈ component ↔ StronglyConnected (Arc adjacency) u v
  noneLeaves : ∀ u ∈ closed.flatten, ∀ v, Arc adjacency u v → v ∈ closed.flatten
  ordered : closed.Pairwise fun earlier later =>
    ∀ u ∈ earlier, ∀ v ∈ later, ¬ ReflTransGen (Arc adjacency) u v

/-- A layer without a way below becomes a closed component. -/
theorem AreClosed.concat {adjacency closed : List (List Nat)} {above : List Nat} {v : Nat}
    (areClosed : AreClosed adjacency closed)
    (connected : ∀ y ∈ above, StronglyConnected (Arc adjacency) v y)
    (noneLeaves : ∀ y ∈ above ++ [v], ∀ z, Arc adjacency y z →
      z ∈ above ++ [v] ∨ z ∈ closed.flatten)
    (apart : ∀ y ∈ above ++ [v], y ∉ closed.flatten) :
    AreClosed adjacency (closed ++ [above ++ [v]]) := by
  have flat : (closed ++ [above ++ [v]]).flatten = closed.flatten ++ (above ++ [v]) := by simp
  have stays : ∀ u ∈ (closed ++ [above ++ [v]]).flatten, ∀ z, Arc adjacency u z →
      z ∈ (closed ++ [above ++ [v]]).flatten := by
    intro u member z arc
    rw [flat, List.mem_append] at member ⊢
    rcases member with old | new
    · exact .inl (areClosed.noneLeaves u old z arc)
    · exact (noneLeaves u new z arc).symm
  have all : ∀ y ∈ above ++ [v], StronglyConnected (Arc adjacency) v y := by
    intro y member
    rcases List.mem_append.mp member with inAbove | isLast
    · exact connected y inAbove
    · rw [List.mem_singleton.mp isLast]
      exact .refl v
  constructor
  case inhabited =>
    intro component listed
    rcases List.mem_append.mp listed with old | new
    · exact areClosed.inhabited component old
    · rw [List.mem_singleton.mp new]
      exact List.append_ne_nil_of_right_ne_nil _ (List.cons_ne_nil _ _)
  case whole =>
    intro component listed u member z
    rcases List.mem_append.mp listed with old | new
    · exact areClosed.whole component old u member z
    · rw [List.mem_singleton.mp new] at member ⊢
      constructor
      · intro member'
        exact (all u member).symm.trans (all z member')
      · intro both
        have reached : z ∈ (closed ++ [above ++ [v]]).flatten :=
          mem_of_reaches stays both.1 (flat ▸ List.mem_append_right _ member)
        rw [flat, List.mem_append] at reached
        -- from a component closed before there is no way back
        apply reached.resolve_left
        intro closedBefore
        exact apart u member (mem_of_reaches areClosed.noneLeaves both.2 closedBefore)
  case noneLeaves =>
    exact stays
  case ordered =>
    refine List.pairwise_append.mpr ⟨areClosed.ordered, List.pairwise_singleton _ _, ?_⟩
    intro earlier listed later isNew u member z member' way
    rw [List.mem_singleton.mp isNew] at member'
    have closedBefore : u ∈ closed.flatten := List.mem_flatten.mpr ⟨earlier, listed, member⟩
    exact apart z member' (mem_of_reaches areClosed.noneLeaves way closedBefore)

/-- What holds of the tables of a search, of its stack and of its components between any two steps,
    wherever the search is.
    - `visited` tells that what has been visited is on the stack or in a component.
    - `sorted` tells that the stack is in the order of the visits. -/
structure AreTables (adjacency : List (List Nat)) (search : DepthSearch) : Prop where
  indexSize : search.index.size = adjacency.length
  lowlinkSize : search.lowlink.size = adjacency.length
  onStackSize : search.onStack.size = adjacency.length
  numbersBelow : ∀ v number, Numbered search.index v number → number < search.nextIndex
  sorted : search.stack.Pairwise (VisitedAfter search.index)
  marked : ∀ v, search.onStack[v]? = some true ↔ v ∈ search.stack
  visited : ∀ v, (∃ number, Numbered search.index v number) ↔
    v ∈ search.stack ∨ v ∈ search.components.toList.flatten
  nodup : (search.stack ++ search.components.toList.flatten).Nodup
  closed : AreClosed adjacency search.components.toList

/-- The search after the visit of a vertex. -/
def visit (search : DepthSearch) (w : Nat) : DepthSearch :=
  { search with
    index := search.index.setIfInBounds w (some search.nextIndex)
    lowlink := search.lowlink.setIfInBounds w search.nextIndex
    onStack := search.onStack.setIfInBounds w true
    stack := w :: search.stack
    nextIndex := search.nextIndex + 1
    frames := ⟨w, 0⟩ :: search.frames }

theorem lower_eq (search : DepthSearch) {v low : Nat} (isLow : search.lowlink[v]? = some low)
    (bound : Nat) : search.lower v bound =
      some { search with lowlink := search.lowlink.setIfInBounds v (min low bound) } := by
  have inside : v < search.lowlink.size := (Array.getElem?_eq_some_iff.mp isLow).1
  simp only [DepthSearch.lower, isLow, put?, if_pos inside, Option.bind_eq_bind, Option.bind_some,
    Option.pure_def]

/-- What holds between any two steps of a search. -/
structure Searching (adjacency : List (List Nat)) (search : DepthSearch) : Prop where
  tables : AreTables adjacency search
  layered : Layered adjacency search.index search.lowlink search.frames search.stack

/-! ### Tables of the search -/

namespace AreTables

variable {adjacency : List (List Nat)} {search : DepthSearch} {v w : Nat}

theorem unvisited (adjacency : List (List Nat)) :
    AreTables adjacency (.unvisited adjacency.length) where
  indexSize := Array.size_replicate
  lowlinkSize := Array.size_replicate
  onStackSize := Array.size_replicate
  numbersBelow v number numbered := by
    simp [Numbered, DepthSearch.unvisited, Array.getElem?_replicate] at numbered
  sorted := List.Pairwise.nil
  marked v := by simp [DepthSearch.unvisited, Array.getElem?_replicate]
  visited v := by simp [Numbered, DepthSearch.unvisited, Array.getElem?_replicate]
  nodup := List.nodup_nil
  closed := ⟨by simp [DepthSearch.unvisited], by simp [DepthSearch.unvisited],
    by simp [DepthSearch.unvisited], List.Pairwise.nil⟩

/-- The tables do not depend on the frames, and say nothing of lowlinks but how many there are. -/
theorem withLowlink (tables : AreTables adjacency search) {lowlink : Array Nat}
    (size : lowlink.size = search.lowlink.size) (frames : List Frame) :
    AreTables adjacency { search.goTo frames with lowlink } where
  indexSize := tables.indexSize
  lowlinkSize := size.trans tables.lowlinkSize
  onStackSize := tables.onStackSize
  numbersBelow := tables.numbersBelow
  sorted := tables.sorted
  marked := tables.marked
  visited := tables.visited
  nodup := tables.nodup
  closed := tables.closed

theorem goTo (tables : AreTables adjacency search) (frames : List Frame) :
    AreTables adjacency (search.goTo frames) :=
  tables.withLowlink rfl frames

theorem lt_of_mem_stack (tables : AreTables adjacency search) (member : v ∈ search.stack) :
    v < adjacency.length := by
  obtain ⟨number, numbered⟩ := (tables.visited v).mpr (.inl member)
  exact tables.indexSize ▸ numbered.lt

/-- Every vertex has an entry in the table of numbers. -/
theorem exists_index (tables : AreTables adjacency search) (inside : v < adjacency.length) :
    ∃ entry, search.index[v]? = some entry :=
  ⟨_, Array.getElem?_eq_getElem (tables.indexSize ▸ inside)⟩

theorem exists_mark (tables : AreTables adjacency search) (inside : v < adjacency.length) :
    ∃ isOn, search.onStack[v]? = some isOn :=
  ⟨_, Array.getElem?_eq_getElem (tables.onStackSize ▸ inside)⟩

/-- What has no number is neither on the stack nor in a component. -/
theorem not_visited (tables : AreTables adjacency search) (new : search.index[v]? = some none) :
    v ∉ search.stack ∧ v ∉ search.components.toList.flatten := by
  rw [← not_or, ← tables.visited]
  rintro ⟨number, numbered⟩
  rw [Numbered, new] at numbered
  exact absurd numbered (by simp)

theorem discover_eq (tables : AreTables adjacency search) (inside : w < adjacency.length) :
    search.discover w = some (visit search w) := by
  simp [DepthSearch.discover, put?, visit, tables.indexSize, tables.lowlinkSize,
    tables.onStackSize, inside]

/-- A visited vertex stands on top of the stack and has the largest number. -/
theorem visit (tables : AreTables adjacency search) (new : search.index[w]? = some none) :
    AreTables adjacency (visit search w) := by
  have inside : w < search.index.size := (Array.getElem?_eq_some_iff.mp new).1
  have grows := grows_setIfInBounds new search.nextIndex
  obtain ⟨notOnStack, notClosed⟩ := tables.not_visited new
  constructor
  case indexSize =>
    exact Array.size_setIfInBounds.trans tables.indexSize
  case lowlinkSize =>
    exact Array.size_setIfInBounds.trans tables.lowlinkSize
  case onStackSize =>
    exact Array.size_setIfInBounds.trans tables.onStackSize
  case numbersBelow =>
    intro v number numbered
    rcases (numbered_setIfInBounds inside).mp numbered with ⟨_, rfl⟩ | ⟨_, old⟩
    · exact Nat.lt_succ_self _
    · exact Nat.lt_succ_of_lt (tables.numbersBelow v number old)
  case sorted =>
    refine List.pairwise_cons.mpr ⟨fun u member => ?_, tables.sorted.imp (VisitedAfter.mono grows)⟩
    obtain ⟨number, numbered⟩ := (tables.visited u).mpr (.inl member)
    exact ⟨_, number, (numbered_setIfInBounds inside).mpr (.inl ⟨rfl, rfl⟩),
      grows u number numbered, tables.numbersBelow u number numbered⟩
  case marked =>
    intro v
    rw [Digraph.visit, Array.getElem?_setIfInBounds, List.mem_cons, ← tables.marked]
    split
    · rename_i same
      simp [same, tables.onStackSize, ← tables.indexSize, same ▸ inside]
    · rename_i different
      simp [Ne.symm different]
  case visited =>
    intro v
    rw [Digraph.visit, List.mem_cons, or_assoc, ← tables.visited]
    simp only [numbered_setIfInBounds inside, exists_or, exists_and_left]
    by_cases same : v = w
    · simp [same]
    · simp [same]
  case nodup =>
    have fresh : w ∉ search.stack ++ search.components.toList.flatten :=
      fun member => (List.mem_append.mp member).elim notOnStack notClosed
    exact List.nodup_cons.mpr ⟨fresh, tables.nodup⟩
  case closed =>
    exact tables.closed

end AreTables

/-- Vertices are taken off a stack down to one that is on it. -/
theorem unstack_eq {v : Nat} {above : List Nat} (below : List Nat) {onStack : Array Bool}
    (first : v ∉ above) (inside : ∀ u ∈ above ++ [v], u < onStack.size) :
    ∃ left, DepthSearch.unstack v (above ++ v :: below) onStack =
        some (above ++ [v], below, left) ∧ left.size = onStack.size ∧
      ∀ u, left[u]? = some true ↔ u ∉ above ++ [v] ∧ onStack[u]? = some true := by
  induction above generalizing onStack with
  | nil =>
      have insideV : v < onStack.size := inside v (List.mem_singleton_self v)
      refine ⟨onStack.setIfInBounds v false, ?_, Array.size_setIfInBounds, fun u => ?_⟩
      · simp [DepthSearch.unstack, put?, insideV]
      · rw [Array.getElem?_setIfInBounds]
        by_cases same : v = u
        · simp [same]
        · simp [same, Ne.symm same]
  | cons w above ih =>
      rw [List.mem_cons, not_or] at first
      have insideW : w < onStack.size := inside w List.mem_cons_self
      obtain ⟨left, taken, size, marks⟩ := @ih (onStack.setIfInBounds w false) first.2
        fun u member => by
          rw [Array.size_setIfInBounds]
          exact inside u (List.mem_cons_of_mem _ member)
      refine ⟨left, ?_, size.trans Array.size_setIfInBounds, fun u => ?_⟩
      · simp [DepthSearch.unstack, put?, insideW, Ne.symm first.1, taken]
      · rw [marks, Array.getElem?_setIfInBounds, List.cons_append, List.mem_cons, not_or]
        by_cases same : w = u
        · simp [same]
        · simp [same, Ne.symm same]

/-- The search after a component has been taken off the stack. -/
def takeOff (search : DepthSearch) (component below : List Nat) (onStack : Array Bool) :
    DepthSearch :=
  { search with stack := below, onStack, components := search.components.push component }

/-- A closed component moves from the stack to the components. -/
theorem AreTables.takeOff {adjacency : List (List Nat)} {search : DepthSearch}
    {component below : List Nat} {onStack : Array Bool} (tables : AreTables adjacency search)
    (stands : search.stack = component ++ below)
    (closed : AreClosed adjacency (search.components.toList ++ [component]))
    (size : onStack.size = search.onStack.size)
    (marks : ∀ u, onStack[u]? = some true ↔ u ∉ component ∧ search.onStack[u]? = some true) :
    AreTables adjacency (takeOff search component below onStack) := by
  have moved : (search.stack ++ search.components.toList.flatten).Perm
      (below ++ (search.components.push component).toList.flatten) := by
    rw [stands, Array.toList_push, List.flatten_concat, List.append_assoc,
      ← List.append_assoc below]
    exact List.perm_append_comm
  have nodup := tables.nodup
  rw [stands, List.append_assoc, List.nodup_append] at nodup
  constructor
  case indexSize =>
    exact tables.indexSize
  case lowlinkSize =>
    exact tables.lowlinkSize
  case onStackSize =>
    exact size.trans tables.onStackSize
  case numbersBelow =>
    exact tables.numbersBelow
  case sorted =>
    have sorted := tables.sorted
    rw [stands, List.pairwise_append] at sorted
    exact sorted.2.1
  case marked =>
    intro u
    rw [Digraph.takeOff, marks, tables.marked, stands]
    constructor
    · rintro ⟨notTaken, member⟩
      exact (List.mem_append.mp member).resolve_left notTaken
    · intro inBelow
      refine ⟨fun taken => ?_, List.mem_append_right _ inBelow⟩
      exact nodup.2.2 u taken u (List.mem_append_left _ inBelow) rfl
  case visited =>
    intro u
    rw [← List.mem_append]
    exact (tables.visited u).trans (List.mem_append.symm.trans moved.mem_iff)
  case nodup =>
    exact moved.nodup_iff.mp tables.nodup
  case closed =>
    rw [Digraph.takeOff, Array.toList_push]
    exact closed

/-- The component that the last frame closes is all that stands above the frame, and the frame. -/
theorem AreTables.exists_close {adjacency : List (List Nat)} {search : DepthSearch} {v : Nat}
    {above below : List Nat} (tables : AreTables adjacency search)
    (stands : search.stack = above ++ v :: below)
    (closed : AreClosed adjacency (search.components.toList ++ [above ++ [v]])) :
    ∃ onStack, search.close v = some (Digraph.takeOff search (above ++ [v]) below onStack) ∧
      AreTables adjacency (Digraph.takeOff search (above ++ [v]) below onStack) := by
  have split : search.stack = (above ++ [v]) ++ below := by rw [stands, List.append_cons]
  have distinct : (above ++ [v]).Nodup := by
    have nodup := tables.nodup
    rw [split, List.append_assoc] at nodup
    exact nodup.of_append_left
  have first : v ∉ above := fun member =>
    (List.nodup_append.mp distinct).2.2 v member v (List.mem_singleton_self v) rfl
  have inside : ∀ u ∈ above ++ [v], u < search.onStack.size := by
    intro u member
    rw [tables.onStackSize]
    exact tables.lt_of_mem_stack (split ▸ List.mem_append_left below member)
  obtain ⟨onStack, taken, size, marks⟩ := unstack_eq below first inside
  refine ⟨onStack, ?_, tables.takeOff split closed size marks⟩
  simp only [DepthSearch.close, stands, taken, Option.bind_eq_bind, Option.bind_some,
    Option.pure_def, Digraph.takeOff]

theorem Layered.exists_layer {adjacency : List (List Nat)} {index : Array (Option Nat)}
    {lowlink : Array Nat} {frame : Frame} {callers : List Frame} {stack : List Nat}
    (layered : Layered adjacency index lowlink (frame :: callers) stack) :
    ∃ low above below, stack = above ++ frame.vertex :: below ∧
      Layered adjacency index lowlink callers below ∧
      (∀ caller ∈ callers.head?, Arc adjacency caller.vertex frame.vertex) ∧
      IsLayer adjacency index lowlink frame low above below := by
  cases layered with
  | @cons _ _ low above below rest linked layer =>
      exact ⟨low, above, below, rfl, rest, linked, layer⟩

/-- A vertex that has just been visited is a layer of its own. -/
theorem Layered.push {adjacency : List (List Nat)} {index : Array (Option Nat)}
    {lowlink : Array Nat} {frames : List Frame} {stack : List Nat} {w number : Nat}
    (layered : Layered adjacency index lowlink frames stack)
    (linked : ∀ caller ∈ frames.head?, Arc adjacency caller.vertex w)
    (numbered : Numbered index w number) (isLow : lowlink[w]? = some number) :
    Layered adjacency index lowlink (⟨w, 0⟩ :: frames) (w :: stack) := by
  refine @Layered.cons _ _ _ ⟨w, 0⟩ frames number [] stack layered linked ?_
  constructor
  case connected =>
    exact fun y member => absurd member List.not_mem_nil
  case isLow =>
    exact isLow
  case reachesLow =>
    exact ⟨w, List.mem_cons_self, numbered, .refl⟩
  case looked =>
    rintro z (⟨y, member, _⟩ | taken)
    · exact absurd member List.not_mem_nil
    · exact absurd taken (by simp)

/-! ### Steps of the search -/

namespace Searching

variable {adjacency : List (List Nat)} {search : DepthSearch} {frame : Frame}
  {callers : List Frame} {w : Nat}

theorem grows_visit (new : search.index[w]? = some none) :
    Grows search.index (visit search w).index := grows_setIfInBounds new _

theorem numbered_visit (new : search.index[w]? = some none) :
    Numbered (visit search w).index w search.nextIndex :=
  (numbered_setIfInBounds (Array.getElem?_eq_some_iff.mp new).1).mpr (.inl ⟨rfl, rfl⟩)

/-- A visit leaves the lowlinks of the frames as they are. -/
theorem lowlink_visit (searching : Searching adjacency search)
    (new : search.index[w]? = some none) :
    ∀ frame ∈ search.frames,
      (visit search w).lowlink[frame.vertex]? = search.lowlink[frame.vertex]? := by
  intro frame listed
  have different : w ≠ frame.vertex := by
    rintro rfl
    exact (searching.tables.not_visited new).1 (searching.layered.vertex_mem listed)
  rw [visit, Array.getElem?_setIfInBounds, if_neg different]

theorem lowlink_visit_self (searching : Searching adjacency search)
    (inside : w < adjacency.length) :
    (visit search w).lowlink[w]? = some search.nextIndex := by
  rw [visit, Array.getElem?_setIfInBounds, if_pos rfl,
    if_pos (searching.tables.lowlinkSize ▸ inside)]

/-- The search goes to a root. -/
theorem exists_root (searching : Searching adjacency search) (noFrames : search.frames = [])
    (inside : w < adjacency.length) (new : search.index[w]? = some none) :
    ∃ next, search.discover w = some next ∧ Searching adjacency next ∧
      Grows search.index next.index ∧ ∃ number, Numbered next.index w number := by
  refine ⟨visit search w, searching.tables.discover_eq inside, ⟨searching.tables.visit new, ?_⟩,
    grows_visit new, _, numbered_visit new⟩
  have layered := searching.layered.mono (grows_visit new) (searching.lowlink_visit new)
  refine layered.push ?_ (numbered_visit new) (searching.lowlink_visit_self inside)
  rw [noFrames]
  exact fun caller isCaller => absurd isCaller (by simp)

/-- A change to the lowlink of the last frame leaves the other frames as they are. -/
theorem layered_setIfInBounds {v low : Nat} {above below : List Nat}
    (searching : Searching adjacency search) (stands : search.stack = above ++ v :: below)
    (rest : Layered adjacency search.index search.lowlink callers below) :
    Layered adjacency search.index (search.lowlink.setIfInBounds v low) callers below := by
  refine rest.mono (Grows.refl _) fun frame listed => ?_
  have different : v ≠ frame.vertex := by
    rintro rfl
    have distinct := searching.tables.nodup.of_append_left
    rw [stands, List.nodup_append] at distinct
    exact (List.nodup_cons.mp distinct.2.1).1 (rest.vertex_mem listed)
  rw [Array.getElem?_setIfInBounds, if_neg different]

/-- The last frame visits its next successor. -/
theorem visit_next (searching : Searching adjacency search)
    (path : search.frames = frame :: callers)
    (next : (adjacency.getD frame.vertex [])[frame.child]? = some w)
    (inside : w < adjacency.length) (new : search.index[w]? = some none) :
    Searching adjacency (visit (search.goTo (frame.next :: callers)) w) := by
  have grown := searching.layered.mono (grows_visit new) (searching.lowlink_visit new)
  rw [path] at grown
  obtain ⟨low, above, below, stands, rest, linked, layer⟩ := grown.exists_layer
  have notBelow : w ∉ below := fun member => by
    apply (searching.tables.not_visited new).1
    rw [stands]
    exact List.mem_append_right _ (List.mem_cons_of_mem _ member)
  have looked := layer.look next (numbered_visit new) fun member => absurd member notBelow
  have layered : Layered adjacency (visit search w).index (visit search w).lowlink
      (frame.next :: callers) search.stack := stands ▸ rest.cons linked looked
  refine ⟨(searching.tables.goTo _).visit new, ?_⟩
  apply layered.push _ (numbered_visit new) (searching.lowlink_visit_self inside)
  rw [List.head?_cons]
  rintro _ ⟨⟩
  exact List.mem_of_getElem? next

/-- The last frame goes past a successor that has been visited, with another lowlink if the
    successor is on the stack. -/
theorem exists_look (searching : Searching adjacency search)
    (path : search.frames = frame :: callers)
    (next : (adjacency.getD frame.vertex [])[frame.child]? = some w) {number : Nat}
    (numbered : Numbered search.index w number) {isOn : Bool}
    (mark : search.onStack[w]? = some isOn) :
    ∃ after, (if isOn then (search.goTo (frame.next :: callers)).lower frame.vertex number
        else some (search.goTo (frame.next :: callers))) = some after ∧
      Searching adjacency after ∧ after.index = search.index := by
  have layered := path ▸ searching.layered
  obtain ⟨low, above, below, stands, rest, linked, layer⟩ := layered.exists_layer
  cases isOn with
  | true =>
      have member : w ∈ above ++ frame.vertex :: below :=
        stands ▸ (searching.tables.marked w).mp mark
      have inside : frame.vertex < search.lowlink.size :=
        (Array.getElem?_eq_some_iff.mp layer.isLow).1
      have lowered := layer.lower (stands ▸ searching.tables.sorted) member
        (List.mem_of_getElem? next) numbered
        (by rw [Array.getElem?_setIfInBounds, if_pos rfl, if_pos inside])
      have looked := lowered.look next numbered fun _ => Nat.min_le_right _ _
      refine ⟨_, lower_eq (search.goTo (frame.next :: callers)) layer.isLow number,
        ⟨searching.tables.withLowlink Array.size_setIfInBounds _, ?_⟩, rfl⟩
      exact stands ▸ (searching.layered_setIfInBounds stands rest).cons linked looked
  | false =>
      have notBelow : w ∉ below := by
        intro member
        have marked : search.onStack[w]? = some true := by
          rw [searching.tables.marked, stands]
          exact List.mem_append_right _ (List.mem_cons_of_mem _ member)
        rw [mark] at marked
        exact absurd marked (by simp)
      have looked := layer.look next numbered fun member => absurd member notBelow
      refine ⟨_, rfl, ⟨searching.tables.goTo _, ?_⟩, rfl⟩
      exact stands ▸ rest.cons linked looked

/-- The last frame looks at its next successor. -/
theorem exists_follow (searching : Searching adjacency search)
    (vertices : ∀ u v, Arc adjacency u v → v < adjacency.length)
    (path : search.frames = frame :: callers)
    (next : (adjacency.getD frame.vertex [])[frame.child]? = some w) :
    ∃ after, (search.goTo (frame.next :: callers)).follow frame.vertex w = some after ∧
      Searching adjacency after ∧ Grows search.index after.index := by
  have inside := vertices _ _ (List.mem_of_getElem? next)
  obtain ⟨entry, listed⟩ := searching.tables.exists_index inside
  have listed' : (search.goTo (frame.next :: callers)).index[w]? = some entry := listed
  simp only [DepthSearch.follow, listed', Option.bind_eq_bind, Option.bind_some]
  cases entry with
  | none =>
      refine ⟨_, (searching.tables.goTo _).discover_eq inside, ?_, grows_visit listed⟩
      exact searching.visit_next path next inside listed
  | some number =>
      obtain ⟨isOn, mark⟩ := searching.tables.exists_mark inside
      obtain ⟨after, found, searching', same⟩ := searching.exists_look path next listed mark
      have mark' : (search.goTo (frame.next :: callers)).onStack[w]? = some isOn := mark
      simp only [mark', Option.bind_some]
      exact ⟨after, found, searching', same ▸ Grows.refl _⟩

/-- When the last frame is left, its layer is done with if its lowlink is its own number, and has
    joined the layer below otherwise. -/
theorem exists_goBack {low : Nat} {above below : List Nat} (searching : Searching adjacency search)
    (stands : search.stack = above ++ frame.vertex :: below)
    (rest : Layered adjacency search.index search.lowlink callers below)
    (linked : ∀ caller ∈ callers.head?, Arc adjacency caller.vertex frame.vertex)
    (layer : IsLayer adjacency search.index search.lowlink frame low above below)
    (done : (adjacency.getD frame.vertex [])[frame.child]? = none) :
    ∃ changed, search.goBack frame.vertex callers =
        some { search.goTo callers with lowlink := changed } ∧
      changed.size = search.lowlink.size ∧ changed[frame.vertex]? = some low ∧
      (Numbered search.index frame.vertex low →
        Layered adjacency search.index changed callers below) ∧
      (¬ Numbered search.index frame.vertex low →
        Layered adjacency search.index changed callers search.stack) := by
  have sorted := searching.tables.sorted
  rw [stands, List.pairwise_append, List.pairwise_cons] at sorted
  obtain ⟨_, ⟨afterBelow, sortedBelow⟩, _⟩ := sorted
  cases callers with
  | nil =>
      refine ⟨search.lowlink, rfl, rfl, layer.isLow, fun _ => rest, fun notOwn => ?_⟩
      -- nothing stands below the layer of a root
      cases rest
      obtain ⟨t, member, numbered, _⟩ := layer.reachesLow
      rw [List.mem_singleton] at member
      exact absurd (member ▸ numbered) notOwn
  | cons caller others =>
      obtain ⟨lowBelow, aboveCaller, belowCaller, rfl, deeper, linked', layerBelow⟩ :=
        rest.exists_layer
      have isCaller : caller.vertex ∈ aboveCaller ++ caller.vertex :: belowCaller :=
        rest.vertex_mem List.mem_cons_self
      have inside : caller.vertex < search.lowlink.size :=
        (Array.getElem?_eq_some_iff.mp layerBelow.isLow).1
      have different : caller.vertex ≠ frame.vertex := by
        intro same
        obtain ⟨_, _, isLater, isEarlier, less⟩ := afterBelow caller.vertex isCaller
        exact absurd ((same ▸ isEarlier).unique isLater) (Nat.ne_of_lt less)
      have atCaller : (search.lowlink.setIfInBounds caller.vertex (min lowBelow low))[
          caller.vertex]? = some (min lowBelow low) := by
        rw [Array.getElem?_setIfInBounds, if_pos rfl, if_pos inside]
      refine ⟨search.lowlink.setIfInBounds caller.vertex (min lowBelow low), ?_,
        Array.size_setIfInBounds, ?_, fun own => ?_, fun notOwn => ?_⟩
      · simp only [DepthSearch.goBack, layer.isLow, Option.bind_eq_bind, Option.bind_some]
        exact lower_eq (search.goTo (caller :: others)) layerBelow.isLow low
      · rw [Array.getElem?_setIfInBounds, if_neg different]
        exact layer.isLow
      · -- the lowlink of the caller was smaller already
        have smaller := layerBelow.low_le afterBelow own
        refine rest.mono (Grows.refl _) fun other _ => ?_
        rw [Array.getElem?_setIfInBounds, if_pos inside]
        split
        · rename_i same
          rw [Nat.min_eq_left smaller, ← same]
          exact layerBelow.isLow.symm
        · rfl
      · have joined := layer.join layerBelow rest sortedBelow (linked caller rfl) done notOwn
          atCaller
        have apart : search.stack = above ++ frame.vertex :: aboveCaller ++
            caller.vertex :: belowCaller := by
          rw [stands, List.append_assoc, List.cons_append]
        exact apart ▸ (searching.layered_setIfInBounds apart deeper).cons linked' joined

/-- The layer of a frame that keeps its own number as lowlink is a component. -/
theorem areClosed_layer {low : Nat} {above below : List Nat}
    (searching : Searching adjacency search)
    (stands : search.stack = above ++ frame.vertex :: below)
    (layer : IsLayer adjacency search.index search.lowlink frame low above below)
    (done : (adjacency.getD frame.vertex [])[frame.child]? = none)
    (own : Numbered search.index frame.vertex low) :
    AreClosed adjacency (search.components.toList ++ [above ++ [frame.vertex]]) := by
  have split : search.stack = (above ++ [frame.vertex]) ++ below := by
    rw [stands, List.append_cons]
  have sorted := stands ▸ searching.tables.sorted
  apply searching.tables.closed.concat layer.connected
  · intro y member z arc
    have hasLooked := hasLookedAt_of_arc done member arc
    obtain ⟨number, numbered, _⟩ := layer.looked z hasLooked
    rcases (searching.tables.visited z).mp ⟨number, numbered⟩ with onStack | closedBefore
    · rw [split, List.mem_append] at onStack
      exact .inl (onStack.resolve_right (layer.not_mem_below sorted own hasLooked))
    · exact .inr closedBefore
  · intro y member closedBefore
    have distinct := searching.tables.nodup
    rw [split, List.append_assoc] at distinct
    exact (List.nodup_append.mp distinct).2.2 y member y
      (List.mem_append_right _ closedBefore) rfl

/-- The last frame is left. -/
theorem exists_leave (searching : Searching adjacency search)
    (path : search.frames = frame :: callers)
    (done : (adjacency.getD frame.vertex [])[frame.child]? = none) :
    ∃ after, search.leave frame.vertex callers = some after ∧ Searching adjacency after ∧
      after.index = search.index := by
  have layered := path ▸ searching.layered
  obtain ⟨low, above, below, stands, rest, linked, layer⟩ := layered.exists_layer
  obtain ⟨changed, gone, size, isLow, layeredOwn, layeredJoined⟩ :=
    searching.exists_goBack stands rest linked layer done
  have tables := searching.tables.withLowlink size callers
  have member : frame.vertex ∈ search.stack :=
    searching.layered.vertex_mem (path ▸ List.mem_cons_self)
  obtain ⟨number, numbered⟩ := (searching.tables.visited frame.vertex).mpr (.inl member)
  have isNumber : (search.goTo callers).index[frame.vertex]? = some (some number) := numbered
  simp only [DepthSearch.leave, gone, isLow, isNumber, Option.bind_eq_bind, Option.bind_some]
  by_cases own : number = low
  · subst own
    obtain ⟨onStack, taken, tables'⟩ :=
      tables.exists_close stands (searching.areClosed_layer stands layer done numbered)
    exact ⟨_, (if_pos rfl).trans taken, ⟨tables', layeredOwn numbered⟩, rfl⟩
  · have notOwn : ¬ Numbered search.index frame.vertex low := fun isOwn =>
      own (numbered.unique isOwn)
    refine ⟨_, if_neg ?_, ⟨tables, layeredJoined notOwn⟩, rfl⟩
    simpa using own

/-- A step stays inside the tables and keeps what holds of them. -/
theorem exists_step (searching : Searching adjacency search)
    (vertices : ∀ u v, Arc adjacency u v → v < adjacency.length)
    (path : search.frames = frame :: callers) :
    ∃ after, search.step adjacency frame callers = some after ∧ Searching adjacency after ∧
      Grows search.index after.index := by
  have inside : frame.vertex < adjacency.length :=
    searching.tables.lt_of_mem_stack (searching.layered.vertex_mem (path ▸ List.mem_cons_self))
  have listed : adjacency[frame.vertex]? = some (adjacency.getD frame.vertex []) := by
    rw [List.getD_eq_getElem?_getD, List.getElem?_eq_getElem inside, Option.getD_some]
  simp only [DepthSearch.step, listed, Option.bind_eq_bind, Option.bind_some]
  cases next : (adjacency.getD frame.vertex [])[frame.child]? with
  | some w =>
      exact searching.exists_follow vertices path next
  | none =>
      obtain ⟨after, left, searching', same⟩ := searching.exists_leave path next
      exact ⟨after, left, searching', same ▸ Grows.refl _⟩

/-- A run ends without frames. -/
theorem exists_run (searching : Searching adjacency search)
    (vertices : ∀ u v, Arc adjacency u v → v < adjacency.length) :
    ∃ final, search.run adjacency = some final ∧ Searching adjacency final ∧
      final.frames = [] ∧ Grows search.index final.index := by
  induction search using DepthSearch.run.induct adjacency with
  | case1 search noFrames =>
      exact ⟨search, DepthSearch.run_of_no_frames noFrames adjacency, searching, noFrames,
        Grows.refl _⟩
  | case2 search frame callers path failed =>
      obtain ⟨_, taken, _⟩ := searching.exists_step vertices path
      rw [failed] at taken
      exact absurd taken (by simp)
  | case3 search frame callers path after taken ih =>
      obtain ⟨_, taken', searching', grows⟩ := searching.exists_step vertices path
      rw [taken, Option.some_inj] at taken'
      subst taken'
      obtain ⟨final, ended, searching'', noFrames, grows'⟩ := ih searching'
      refine ⟨final, ?_, searching'', noFrames, grows.trans grows'⟩
      rw [DepthSearch.run_of_frames path, taken, Option.bind_some, ended]

/-- Without frames nothing is on the stack. -/
theorem stack_eq_nil (searching : Searching adjacency search) (noFrames : search.frames = []) :
    search.stack = [] := by
  apply List.eq_nil_iff_forall_not_mem.mpr
  intro v member
  obtain ⟨frame, isHead, _⟩ := searching.layered.reaches_frame member
  rw [noFrames] at isHead
  exact absurd isHead (by simp)

end Searching

end DatasetLineage.Digraph
