/-
Module: DatasetLineage.Proofs.GraphTraversal
Purpose: What a lineage graph answers about ancestors and descendants. The nodes found are the
  levels around the start, read off the stored edges, and a level is a distance along those edges.
  So the answer holds each node within the hops once, nearest first, and grows with the hops. One
  hop downstream is one hop upstream backwards, so the two directions answer alike.
Main exports: LineageGraph.linked, LineageGraph.Follows, LineageGraph.IsTraversal,
  LineageGraph.traversal_ofBatches, LineageGraph.mem_ancestors_iff_mem_descendants
-/
import DatasetLineage.Lineage.Graph.Query
import DatasetLineage.Proofs.DigraphTraversal
import DatasetLineage.Proofs.GraphRepresentation

namespace DatasetLineage.LineageGraph

open DatasetLineage.Digraph (Walk Link IsDistance level levels neighboursIn)

/-- The nodes that the stored edges link a node to, one for each edge, in the order of the edges:
    upstream the sources of the edges to it, downstream the targets of the edges from it. -/
def linked (graph : LineageGraph) : Direction → Node → List Node
  | .upstream, node => (graph.edges.filter (·.targetNode? = some node)).map Edge.source
  | .downstream, node => (graph.edges.filter (·.source = node)).filterMap Edge.targetNode?

/-- Whether one hop in a direction leads from `a` to `b`. -/
def Follows (graph : LineageGraph) : Direction → Node → Node → Prop
  | .upstream, a, b => graph.Reads a b
  | .downstream, a, b => graph.Reads b a

theorem link_linked (graph : LineageGraph) (direction : Direction) :
    Link (graph.linked direction) = graph.Follows direction := by
  funext a b
  cases direction with
  | upstream =>
      simp [Link, linked, Follows, Reads, and_assoc]
  | downstream =>
      simp [Link, linked, Follows, Reads, and_assoc, and_comm (a := _ = a)]

/-- What a traversal from `start` in a direction finds within each number of hops.
    - `levels` gives the order in which nodes are found: level by level, the first level first.
    - `distance` tells the nodes of a level by their distance from the start.
    - The other fields follow for the answer as a whole. -/
structure IsTraversal (graph : LineageGraph) (direction : Direction) (start : Node)
    (found : Nat → List Node) : Prop where
  levels : ∀ hops, found hops =
    (List.range hops).flatMap fun k => level (graph.linked direction) start (k + 1)
  distance : ∀ k node, node ∈ level (graph.linked direction) start k ↔
    IsDistance (graph.Follows direction) start k node
  notStart : ∀ hops, start ∉ found hops
  nodup : ∀ hops, (found hops).Nodup
  within : ∀ hops node, node ∈ found hops ↔
    node ≠ start ∧ ∃ k ≤ hops, Walk (graph.Follows direction) start k node
  nearestFirst : ∀ hops, (found hops).Pairwise fun a b => ∀ j k,
    IsDistance (graph.Follows direction) start j a →
      IsDistance (graph.Follows direction) start k b → j ≤ k
  grows : ∀ fewer more, fewer ≤ more → found fewer <+: found more

/-- The levels around a node are a traversal. -/
theorem isTraversal_levels (graph : LineageGraph) (direction : Direction) (start : Node) :
    graph.IsTraversal direction start (levels (graph.linked direction) start) where
  levels _ := rfl
  distance k node := by
    rw [Digraph.mem_level_iff, link_linked]
  notStart hops isFound := (Digraph.mem_levels_iff.mp isFound).1 rfl
  nodup := Digraph.nodup_levels _ start
  within hops node := by
    rw [Digraph.mem_levels_iff, link_linked]
  nearestFirst hops := by
    have ordered := Digraph.pairwise_levels (graph.linked direction) start hops
    rwa [link_linked] at ordered
  grows _ _ := Digraph.levels_prefix

theorem neighboursIn_eq_of (adjacency : Adjacency) (node : Node) :
    neighboursIn adjacency node = adjacency.of node := by
  induction adjacency with
  | nil =>
      rfl
  | cons first rest ih =>
      rw [neighboursIn] at ih ⊢
      rw [List.lookup_cons, Adjacency.of]
      by_cases here : node = first.1
      · simp [here]
      · simp [beq_eq_false_iff_ne.mpr here, Ne.symm here, ih]

/-- The neighbours that a graph keeps are the linked nodes, each at its first appearance. -/
theorem neighboursIn_stored (edges : List Edge) (direction : Direction) :
    neighboursIn ((stored edges).links direction) =
      fun node => ((stored edges).linked direction node).eraseDups := by
  funext node
  rw [neighboursIn_eq_of]
  cases direction with
  | upstream =>
      exact upstream_stored edges node
  | downstream =>
      exact downstream_stored edges node

/-- A traversal of a graph finds the levels around its start. -/
theorem reach_stored (edges : List Edge) (direction : Direction) (start : Node) :
    (stored edges).reach direction start = levels ((stored edges).linked direction) start := by
  funext hops
  rw [reach, Digraph.traverse_eq_levels, neighboursIn_stored]
  simp only [levels, Digraph.level_eraseDups]

/-- A traversal finds what walks of so many hops reach, the start left out. -/
theorem mem_reach_stored {edges : List Edge} {direction : Direction} {start node : Node}
    {hops : Nat} :
    node ∈ (stored edges).reach direction start hops ↔
      node ≠ start ∧ ∃ k ≤ hops, Walk ((stored edges).Follows direction) start k node := by
  rw [reach_stored]
  exact (isTraversal_levels (stored edges) direction start).within hops node

/-- After any merges, ancestors and descendants of any node are found by exact traversals. -/
theorem traversal_ofBatches (batches : List (List Edge)) (start : Node) :
    let graph := ofBatches batches
    graph.IsTraversal .upstream start (graph.ancestors start) ∧
      graph.IsTraversal .downstream start (graph.descendants start) := by
  intro graph
  have told : graph = stored batches.flatten.eraseDups := ofBatches_eq_stored batches
  rw [told, ancestors, descendants, reach_stored, reach_stored]
  exact ⟨isTraversal_levels _ .upstream start, isTraversal_levels _ .downstream start⟩

/-- Upstream and downstream answers are dual: a node has another one among its ancestors within
    some hops if that one has it among its descendants within as many. -/
theorem mem_ancestors_iff_mem_descendants (batches : List (List Edge)) (a b : Node) (hops : Nat) :
    b ∈ (ofBatches batches).ancestors a hops ↔ a ∈ (ofBatches batches).descendants b hops := by
  rw [ofBatches_eq_stored, ancestors, descendants, mem_reach_stored, mem_reach_stored]
  -- a walk along dependencies is a walk against them from its end
  constructor
  · rintro ⟨different, k, near, walk⟩
    exact ⟨different.symm, k, near, walk.swap⟩
  · rintro ⟨different, k, near, walk⟩
    exact ⟨different.symm, k, near, walk.swap⟩

end DatasetLineage.LineageGraph
