/-
Module: DatasetLineage.Lineage.Graph.Query
Purpose: What a node is derived from, and what is derived from it, within a number of hops.
Main exports: Direction, LineageGraph.links, LineageGraph.reach, LineageGraph.ancestors,
  LineageGraph.descendants
-/
import DatasetLineage.Digraph.Traversal
import DatasetLineage.Lineage.Graph

namespace DatasetLineage

/-- The two ways to follow edges: to what is read, or to what is derived. -/
inductive Direction where
  | upstream
  | downstream
deriving DecidableEq, Repr, Inhabited

namespace Direction

/-- Both directions. -/
def all : List Direction := [upstream, downstream]

/-- The name of a direction. -/
def name : Direction → String
  | upstream => "upstream"
  | downstream => "downstream"

end Direction

namespace LineageGraph

/-- The neighbours of nodes in a direction. -/
def links (graph : LineageGraph) : Direction → Adjacency
  | .upstream => graph.upstream
  | .downstream => graph.downstream

/-- The other nodes within a number of hops, nearest first. -/
def reach (graph : LineageGraph) (direction : Direction) (node : Node) (hops : Nat) : List Node :=
  Digraph.traverse (graph.links direction) node hops

/-- What a node is derived from, within a number of hops. -/
def ancestors (graph : LineageGraph) : Node → Nat → List Node := graph.reach .upstream

/-- What is derived from a node, within a number of hops. -/
def descendants (graph : LineageGraph) : Node → Nat → List Node := graph.reach .downstream

end LineageGraph

end DatasetLineage
