/-
Module: DatasetLineage.Lineage.Graph.Cycle
Purpose: Circular dependencies of a lineage graph: every node that reads itself, and for every
  strongly connected component of several nodes one shortest cycle through its smallest node.
  They are listed in the order of their nodes. Components and circuits are found among the places
  of nodes.
Main exports: Cycle, LineageGraph.adjacency, LineageGraph.smallestPlace?,
  LineageGraph.shortestCycle?, LineageGraph.componentCycles, LineageGraph.cycles
-/
import DatasetLineage.Collection.Sorted
import DatasetLineage.Digraph.Circuit
import DatasetLineage.Digraph.Component
import DatasetLineage.Lineage.Graph

namespace DatasetLineage

/-- A circular dependency: each node reads the next one, and the last reads the first. -/
structure Cycle where
  nodes : List Node
deriving DecidableEq, Repr

/-- The names of the nodes of a cycle. -/
def Cycle.names (cycle : Cycle) : List String := cycle.nodes.map Node.name

namespace LineageGraph

/-- For each node, in order, the places of the nodes that it reads. -/
def adjacency (graph : LineageGraph) : List (List Nat) :=
  graph.nodes.map fun node =>
    (graph.upstream.of node).filterMap fun source => graph.nodes.idxOf? source

/-- The cycle of the node at a place, if it reads itself. -/
def selfCycle? (graph : LineageGraph) (adjacency : List (List Nat)) (place : Nat) :
    Option Cycle := do
  let successors ← adjacency[place]?
  let node ← graph.nodes[place]?
  if place ∈ successors then some ⟨[node]⟩ else none

/-- The place of the smaller of two nodes, the first one if they are equal. -/
def smallerPlace? (graph : LineageGraph) (u v : Nat) : Option Nat := do
  let a ← graph.nodes[u]?
  let b ← graph.nodes[v]?
  return if b < a then v else u

/-- The place of the smallest node of a component, if there is any. -/
def smallestPlace? (graph : LineageGraph) : List Nat → Option (Option Nat)
  | [] => some none
  | first :: rest => (rest.foldlM graph.smallerPlace? first).map some

/-- A shortest cycle of two or more nodes through the smallest node of a component. There is no
    result if a place is outside of the tables. -/
def shortestCycle? (graph : LineageGraph) (adjacency : List (List Nat)) (component : List Nat) :
    Option (Option Cycle) := do
  match ← graph.smallestPlace? component with
  | none => return none
  | some start =>
    match ← Digraph.shortestCircuit? adjacency component start with
    | none => return none
    | some places => return some ⟨← places.mapM fun place => graph.nodes[place]?⟩

/-- The cycles of a component, which is given by its places. -/
def componentCycles (graph : LineageGraph) (adjacency : List (List Nat)) (component : List Nat) :
    List Cycle :=
  component.filterMap (graph.selfCycle? adjacency) ++
    if 1 < component.length then (graph.shortestCycle? adjacency component).join.toList else []

/-- The independent cycles of the graph. -/
def cycles (graph : LineageGraph) : List Cycle :=
  let adjacency := graph.adjacency
  inOrder (fun a b => a.nodes ≤ b.nodes)
    ((Digraph.components adjacency).flatMap (graph.componentCycles adjacency))

end LineageGraph

end DatasetLineage
