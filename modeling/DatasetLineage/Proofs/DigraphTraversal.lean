/-
Module: DatasetLineage.Proofs.DigraphTraversal
Purpose: A traversal finds the levels around its start. In every round the queue holds vertices of
  one depth, and behind them vertices of the next one. The former belong to one level, of which
  the vertices in front have been looked at already; the latter are what these looks have found, the
  first part of the next level. So the vertices that have been found are whole levels and the first
  part of one more, and when the queue is empty no part is left.
Main exports: neighboursIn, Traversal.look_eq, Traversal.IsBetween, Traversal.IsBetween.pass,
  Traversal.IsBetween.look, Traversal.IsBetween.depth_le, Traversal.Reached,
  Traversal.Reached.exists_isBetween, Traversal.Reached.run_eq, traverse_eq_levels
-/
import DatasetLineage.Digraph.Traversal
import DatasetLineage.Proofs.DigraphLevels

namespace DatasetLineage.Digraph

variable {α : Type} [DecidableEq α]

/-- The neighbours that a table gives for a vertex, none for a vertex without an entry. -/
def neighboursIn (adjacency : List (α × List α)) (v : α) : List α :=
  (adjacency.lookup v).getD []

/-! ### Runs of the loop -/

namespace Traversal

/-- A look finds and queues what has not been seen of the neighbours, in order and once each. -/
theorem look_eq (depth : Nat) (traversal : Traversal α) (vertices : List α) :
    traversal.look depth vertices =
      { seen := (unseen traversal.seen vertices).reverse ++ traversal.seen
        found := (unseen traversal.seen vertices).reverse ++ traversal.found
        queue := traversal.queue ++ (unseen traversal.seen vertices).map (·, depth + 1) } := by
  induction vertices generalizing traversal with
  | nil =>
      exact congrArg (Traversal.mk _ _) (List.append_nil _).symm
  | cons w rest ih =>
      have first : traversal.look depth (w :: rest) = (traversal.visit depth w).look depth rest :=
        rfl
      rw [first, ih, visit, unseen]
      by_cases old : w ∈ traversal.seen
      · rw [if_pos old, if_pos old]
      · simp [if_neg old]

/-- Where a traversal stands between the level at `k` and the one behind it: of the former `done`
    has been looked at and `near` has not, of the latter `far` has been found.
    - `queue` tells that the queue holds two depths at most, and these are adjacent.
    - `seen` tells that the marked vertices are the start and the ones that have been found.
    - `next` and `last` tell that vertices are found only in front of the last level. -/
structure IsBetween (adjacency : List (α × List α)) (start : α) (hops k : Nat)
    (done near far : List α) (traversal : Traversal α) : Prop where
  atMost : k ≤ hops
  nearest : level (neighboursIn adjacency) start k = done ++ near
  next : k < hops → far = unseen (start :: levels (neighboursIn adjacency) start k)
    (done.flatMap (neighboursIn adjacency))
  last : k = hops → far = []
  queue : traversal.queue = near.map (·, k) ++ far.map (·, k + 1)
  found : traversal.found.reverse = levels (neighboursIn adjacency) start k ++ far
  seen : ∀ v, v ∈ traversal.seen ↔ v = start ∨ v ∈ traversal.found

theorem run_of_empty {traversal : Traversal α} (empty : traversal.queue = [])
    (adjacency : List (α × List α)) (hops : Nat) :
    traversal.run adjacency hops = traversal.found.reverse := by
  rw [run]
  split
  · rfl
  · rename_i queued
    rw [empty] at queued
    exact absurd queued (by simp)

/-- A round looks at the neighbours of a vertex, or passes it over. -/
theorem run_of_queued {traversal : Traversal α} {v : α} {depth : Nat} {waiting : List (α × Nat)}
    (queued : traversal.queue = (v, depth) :: waiting) (adjacency : List (α × List α))
    (hops : Nat) :
    traversal.run adjacency hops =
      if hops ≤ depth then run adjacency hops { traversal with queue := waiting }
      else run adjacency hops
        (look depth { traversal with queue := waiting } (neighboursIn adjacency v)) := by
  rw [run]
  split
  · rename_i empty
    rw [queued] at empty
    exact absurd empty (by simp)
  · rename_i queued'
    cases queued.symm.trans queued'
    by_cases isLast : hops ≤ depth
    · simp only [if_pos isLast]
    · simp only [if_neg isLast]
      split
      · rename_i entry
        rw [neighboursIn, entry]
        rfl
      · rename_i entry
        rw [neighboursIn, entry]
        rfl

/-! ### The queue between two levels -/

namespace IsBetween

variable {adjacency : List (α × List α)} {start v : α} {hops k depth : Nat}
  {done near far : List α} {traversal : Traversal α} {waiting : List (α × Nat)}

/-- A traversal begins with the start, which is the level at no hops. -/
theorem ofStart (adjacency : List (α × List α)) (start : α) (hops : Nat) :
    IsBetween adjacency start hops 0 [] [start] []
      { seen := [start], queue := [(start, 0)] } where
  atMost := Nat.zero_le hops
  nearest := level_zero _ start
  next _ := rfl
  last _ := rfl
  queue := rfl
  found := rfl
  seen v := by simp

/-- Once the vertices of one depth have been taken off, those of the next one are a level. -/
theorem turn (between : IsBetween adjacency start hops k done [] far traversal)
    (more : k < hops) : IsBetween adjacency start hops (k + 1) [] far [] traversal := by
  have whole : level (neighboursIn adjacency) start (k + 1) = far := by
    have looked := between.nearest
    rw [List.append_nil] at looked
    rw [between.next more, ← looked]
    exact level_succ_eq_unseen fun v => mem_start_levels_iff
  exact {
    atMost := more
    nearest := whole
    next := fun _ => rfl
    last := fun _ => rfl
    queue := between.queue.trans (List.append_nil _).symm
    found := by rw [between.found, levels_succ, whole, List.append_nil]
    seen := between.seen }

/-- The vertex at the front of the queue is one of the nearest that are left. -/
theorem exists_front (between : IsBetween adjacency start hops k done near far traversal)
    (queued : traversal.queue = (v, depth) :: waiting) :
    ∃ done near far, IsBetween adjacency start hops depth done (v :: near) far traversal ∧
      waiting = near.map (·, depth) ++ far.map (·, depth + 1) := by
  have divided := between.queue.symm.trans queued
  cases near with
  | cons u near =>
      rw [List.map_cons, List.cons_append, List.cons.injEq, Prod.mk.injEq] at divided
      obtain ⟨⟨rfl, rfl⟩, rfl⟩ := divided
      exact ⟨done, near, far, between, rfl⟩
  | nil =>
      cases far with
      | nil =>
          exact absurd divided (by simp)
      | cons u far =>
          have more : k < hops := Nat.lt_of_le_of_ne between.atMost fun isLast =>
            List.cons_ne_nil u far (between.last isLast)
          rw [List.map_nil, List.nil_append, List.map_cons, List.cons.injEq,
            Prod.mk.injEq] at divided
          obtain ⟨⟨rfl, rfl⟩, rfl⟩ := divided
          exact ⟨[], far, [], between.turn more, (List.append_nil _).symm⟩

/-! ### One vertex of the queue -/

section Rounds

variable (between : IsBetween adjacency start hops depth done (v :: near) far traversal)
  (rest : waiting = near.map (·, depth) ++ far.map (·, depth + 1))

include between rest

/-- A vertex of the last level is passed over. -/
theorem pass (isLast : hops ≤ depth) :
    IsBetween adjacency start hops depth (done ++ [v]) near far
      { traversal with queue := waiting } where
  atMost := between.atMost
  nearest := by rw [between.nearest, List.append_assoc, List.singleton_append]
  next more := absurd more (Nat.not_lt_of_le isLast)
  last := between.last
  queue := rest
  found := between.found
  seen := between.seen

/-- A look at the neighbours of a vertex of any other level finds the vertices of the next level
    to which it is the first to lead. -/
theorem look (more : depth < hops) :
    IsBetween adjacency start hops depth (done ++ [v]) near
      (far ++ unseen traversal.seen (neighboursIn adjacency v))
      (Traversal.look depth { traversal with queue := waiting } (neighboursIn adjacency v)) := by
  have known : ∀ w, w ∈ done.flatMap (neighboursIn adjacency) ++
      start :: levels (neighboursIn adjacency) start depth ↔ w ∈ traversal.seen := by
    intro w
    have marked : w ∈ traversal.found ↔ w ∈ traversal.found.reverse := List.mem_reverse.symm
    rw [← mem_unseen_append_iff, ← between.next more, between.seen, marked, between.found,
      List.mem_append, List.mem_append, List.mem_cons]
    rw [or_comm, or_assoc]
  rw [look_eq]
  exact {
    atMost := between.atMost
    nearest := by rw [between.nearest, List.append_assoc, List.singleton_append]
    next := by
      intro _
      rw [List.flatMap_append, List.flatMap_singleton, unseen_append, ← between.next more,
        unseen_congr known]
    last := fun isLast => absurd isLast (Nat.ne_of_lt more)
    queue := by rw [rest, List.map_append, List.append_assoc]
    found := by
      rw [List.reverse_append, List.reverse_reverse, between.found, List.append_assoc]
    seen := by
      intro w
      rw [List.mem_append, between.seen, List.mem_append]
      exact or_left_comm }

end Rounds

/-- With an empty queue, all levels have been found. -/
theorem found_of_empty (between : IsBetween adjacency start hops k done near far traversal)
    (empty : traversal.queue = []) :
    traversal.found.reverse = levels (neighboursIn adjacency) start hops := by
  have none := between.queue.symm.trans empty
  rw [List.append_eq_nil_iff, List.map_eq_nil_iff, List.map_eq_nil_iff] at none
  obtain ⟨rfl, rfl⟩ := none
  rw [between.found, List.append_nil]
  rcases Nat.eq_or_lt_of_le between.atMost with rfl | more
  · rfl
  · exact (levels_eq_of_empty (between.turn more).nearest between.atMost).symm

/-- No depth on the queue exceeds the number of hops. -/
theorem depth_le (between : IsBetween adjacency start hops k done near far traversal) :
    ∀ queued ∈ traversal.queue, queued.2 ≤ hops := by
  intro queued listed
  rw [between.queue, List.mem_append, List.mem_map, List.mem_map] at listed
  rcases listed with ⟨v, _, rfl⟩ | ⟨v, isFar, rfl⟩
  · exact between.atMost
  · exact Nat.lt_of_le_of_ne between.atMost fun isLast =>
      absurd (between.last isLast) (List.ne_nil_of_mem isFar)

end IsBetween

/-- The rounds of a traversal. -/
inductive Reached (adjacency : List (α × List α)) (start : α) (hops : Nat) :
    Traversal α → Prop where
  | start : Reached adjacency start hops { seen := [start], queue := [(start, 0)] }
  | pass {traversal : Traversal α} {v : α} {depth : Nat} {waiting : List (α × Nat)} :
      Reached adjacency start hops traversal → traversal.queue = (v, depth) :: waiting →
      hops ≤ depth → Reached adjacency start hops { traversal with queue := waiting }
  | look {traversal : Traversal α} {v : α} {depth : Nat} {waiting : List (α × Nat)} :
      Reached adjacency start hops traversal → traversal.queue = (v, depth) :: waiting →
      ¬ hops ≤ depth → Reached adjacency start hops
        (Traversal.look depth { traversal with queue := waiting } (neighboursIn adjacency v))

/-! ### The whole loop -/

namespace Reached

variable {adjacency : List (α × List α)} {start : α} {hops : Nat} {traversal : Traversal α}

/-- In every round a traversal stands between two levels. -/
theorem exists_isBetween (reached : Reached adjacency start hops traversal) :
    ∃ k done near far, IsBetween adjacency start hops k done near far traversal := by
  induction reached with
  | start =>
      exact ⟨0, [], [start], [], .ofStart adjacency start hops⟩
  | pass _ queued isLast ih =>
      obtain ⟨_, _, _, _, between⟩ := ih
      obtain ⟨done, near, far, between, rest⟩ := between.exists_front queued
      exact ⟨_, _, near, far, between.pass rest isLast⟩
  | look _ queued more ih =>
      obtain ⟨_, _, _, _, between⟩ := ih
      obtain ⟨done, near, far, between, rest⟩ := between.exists_front queued
      exact ⟨_, _, near, _, between.look rest (Nat.lt_of_not_le more)⟩

/-- From every round on a traversal comes to find all levels. -/
theorem run_eq (reached : Reached adjacency start hops traversal) :
    traversal.run adjacency hops = levels (neighboursIn adjacency) start hops := by
  induction traversal using run.induct adjacency hops with
  | case1 traversal empty =>
      obtain ⟨_, _, _, _, between⟩ := reached.exists_isBetween
      rw [run_of_empty empty]
      exact between.found_of_empty empty
  | case2 traversal v depth waiting queued isLast ih =>
      rw [run_of_queued queued, if_pos isLast]
      exact ih (reached.pass queued isLast)
  | case3 traversal v depth waiting queued more entry ih =>
      have none : neighboursIn adjacency v = [] := by rw [neighboursIn, entry]; rfl
      have looked := reached.look queued more
      rw [run_of_queued queued, if_neg more]
      rw [none] at looked ⊢
      exact ih looked
  | case4 traversal v depth waiting queued more neighbours entry ih =>
      have some : neighboursIn adjacency v = neighbours := by rw [neighboursIn, entry]; rfl
      have looked := reached.look queued more
      rw [run_of_queued queued, if_neg more]
      rw [some] at looked ⊢
      exact ih looked

end Reached

end Traversal

/-- A traversal finds the levels around its start. -/
theorem traverse_eq_levels (adjacency : List (α × List α)) (start : α) (hops : Nat) :
    traverse adjacency start hops = levels (neighboursIn adjacency) start hops :=
  Traversal.Reached.start.run_eq

end DatasetLineage.Digraph
