/-
Module: DatasetLineage.Digraph.Traversal
Purpose: A traversal in breadth of a digraph that is given by a table of neighbours. A queue holds
  the vertices whose neighbours have not been looked at, each with its number of hops from the
  start. A vertex at the greatest number of hops is passed over, and so is one without an entry in
  the table. Of the neighbours of any other vertex those that have not been seen are found and
  queued. Each round takes a vertex off the queue, and only neighbours in the table that have not
  been seen come to it, so the traversal ends.
Main exports: Traversal, Traversal.visit, Traversal.look, Traversal.pending_lt, Traversal.run,
  traverse
-/

namespace DatasetLineage.Digraph

variable {α : Type} [DecidableEq α]

/-- A traversal: the vertices that have been seen and the ones that have been found, both latest
    first, and the queue of vertices with their depths. -/
structure Traversal (α : Type) where
  seen : List α
  found : List α := []
  queue : List (α × Nat)
deriving DecidableEq, Repr

namespace Traversal

/-- A neighbour of a vertex at `depth`, which is found and queued unless it has been seen. -/
def visit (depth : Nat) (traversal : Traversal α) (w : α) : Traversal α :=
  if w ∈ traversal.seen then traversal
  else
    { seen := w :: traversal.seen
      found := w :: traversal.found
      queue := traversal.queue ++ [(w, depth + 1)] }

/-- The neighbours of a vertex at `depth` in turn. -/
def look (depth : Nat) (traversal : Traversal α) (neighbours : List α) : Traversal α :=
  neighbours.foldl (visit depth) traversal

/-- How many of the neighbours in the table have not been seen, and how many vertices are queued. -/
def pending (adjacency : List (α × List α)) (traversal : Traversal α) : Nat :=
  ((adjacency.flatMap Prod.snd).filter (· ∉ traversal.seen)).length + traversal.queue.length

theorem pending_visit_le {adjacency : List (α × List α)} {w : α}
    (listed : w ∈ adjacency.flatMap Prod.snd) (depth : Nat) (traversal : Traversal α) :
    (traversal.visit depth w).pending adjacency ≤ traversal.pending adjacency := by
  unfold visit
  split
  · exact Nat.le_refl _
  · rename_i new
    have fewer : (adjacency.flatMap Prod.snd).filter (· ∉ w :: traversal.seen) =
        ((adjacency.flatMap Prod.snd).filter (· ∉ traversal.seen)).filter (· ≠ w) := by
      rw [List.filter_filter]
      apply List.filter_congr
      intro u _
      simp
    have unseen : w ∈ (adjacency.flatMap Prod.snd).filter (· ∉ traversal.seen) := by
      simp only [List.mem_filter, decide_eq_true_eq]
      exact ⟨listed, new⟩
    have less : (((adjacency.flatMap Prod.snd).filter (· ∉ traversal.seen)).filter
        (· ≠ w)).length < ((adjacency.flatMap Prod.snd).filter (· ∉ traversal.seen)).length :=
      List.length_filter_lt_length_iff_exists.mpr ⟨w, unseen, by simp⟩
    rw [pending, pending, fewer, List.length_append, List.length_singleton]
    omega

/-- A look at neighbours leaves no more pending than there was. -/
theorem pending_look_le {adjacency : List (α × List α)} {neighbours : List α}
    (listed : neighbours ⊆ adjacency.flatMap Prod.snd) (depth : Nat) (traversal : Traversal α) :
    (traversal.look depth neighbours).pending adjacency ≤ traversal.pending adjacency := by
  induction neighbours generalizing traversal with
  | nil =>
      exact Nat.le_refl _
  | cons w rest ih =>
      rw [List.cons_subset] at listed
      exact Nat.le_trans (ih listed.2 _) (pending_visit_le listed.1 depth traversal)

/-- The neighbours of a vertex stand in the table. -/
theorem subset_of_lookup {adjacency : List (α × List α)} {v : α} {neighbours : List α}
    (entry : adjacency.lookup v = some neighbours) :
    neighbours ⊆ adjacency.flatMap Prod.snd := by
  induction adjacency with
  | nil =>
      exact absurd entry (by simp)
  | cons first rest ih =>
      rw [List.lookup_cons] at entry
      rw [List.flatMap_cons]
      split at entry
      · cases entry
        exact List.subset_append_left _ _
      · exact List.subset_append_of_subset_right _ (ih entry)

/-- A round takes one vertex off what is pending. -/
theorem pending_lt {adjacency : List (α × List α)} {traversal : Traversal α} {first : α × Nat}
    {waiting : List (α × Nat)} (queued : traversal.queue = first :: waiting) :
    pending adjacency { traversal with queue := waiting } < traversal.pending adjacency := by
  rw [pending, pending, queued, List.length_cons]
  exact Nat.lt_succ_self _

/-- The vertices found once the queue is empty, nearest first. -/
def run (adjacency : List (α × List α)) (hops : Nat) (traversal : Traversal α) : List α :=
  match _ : traversal.queue with
  | [] => traversal.found.reverse
  | (v, depth) :: waiting =>
    if hops ≤ depth then run adjacency hops { traversal with queue := waiting }
    else match _ : adjacency.lookup v with
      | none => run adjacency hops { traversal with queue := waiting }
      | some neighbours =>
        run adjacency hops (look depth { traversal with queue := waiting } neighbours)
termination_by traversal.pending adjacency
decreasing_by
  · exact pending_lt ‹_›
  · exact pending_lt ‹_›
  · exact Nat.lt_of_le_of_lt (pending_look_le (subset_of_lookup ‹_›) depth _) (pending_lt ‹_›)

end Traversal

/-- The vertices other than `start` that can be reached from it within a number of hops, nearest
    first. -/
def traverse (adjacency : List (α × List α)) (start : α) (hops : Nat) : List α :=
  Traversal.run adjacency hops { seen := [start], queue := [(start, 0)] }

end DatasetLineage.Digraph
