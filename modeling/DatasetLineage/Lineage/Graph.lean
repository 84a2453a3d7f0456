/-
Module: DatasetLineage.Lineage.Graph
Purpose: The graph of many files' lineage. It grows by edges; an edge that is already there
  changes nothing. Nodes and edges are in the order of first appearance, the target of an edge
  before its source. Neighbours are kept in both directions, so queries need not look through all
  edges.
Main exports: Adjacency, LineageGraph, LineageGraph.add, LineageGraph.merge, LineageGraph.ofEdges,
  LineageGraph.contains, LineageGraph.edgesFor
-/
import DatasetLineage.Collection.Distinct
import DatasetLineage.Lineage.Edge

namespace DatasetLineage

/-- The neighbours of nodes in one direction, each list in order of first appearance. -/
abbrev Adjacency := List (Node × List Node)

namespace Adjacency

/-- The neighbours of a node. -/
def of : Adjacency → Node → List Node
  | [], _ => []
  | (key, neighbours) :: rest, node => if key = node then neighbours else of rest node

/-- One more neighbour of a node. -/
def link : Adjacency → Node → Node → Adjacency
  | [], node, neighbour => [(node, [neighbour])]
  | (key, neighbours) :: rest, node, neighbour =>
    if key = node then (key, appendNew neighbours neighbour) :: rest
    else (key, neighbours) :: link rest node neighbour

end Adjacency

/-- A graph of lineage. `upstream` leads from targets to sources, `downstream` back. -/
structure LineageGraph where
  nodes : List Node := []
  edges : List Edge := []
  upstream : Adjacency := []
  downstream : Adjacency := []
deriving DecidableEq, Repr

namespace LineageGraph

/-- The graph with one more edge. -/
def add (graph : LineageGraph) (edge : Edge) : LineageGraph :=
  if edge ∈ graph.edges then graph
  else match edge.targetNode? with
    | some target =>
      { nodes := appendNew (appendNew graph.nodes target) edge.source
        edges := graph.edges ++ [edge]
        upstream := graph.upstream.link target edge.source
        downstream := graph.downstream.link edge.source target }
    | none =>
      { graph with
        nodes := appendNew graph.nodes edge.source
        edges := graph.edges ++ [edge] }

/-- The graph with a batch of edges, added in turn. -/
def merge (graph : LineageGraph) (edges : List Edge) : LineageGraph := edges.foldl add graph

/-- The graph of some edges. -/
def ofEdges (edges : List Edge) : LineageGraph := merge {} edges

/-- Whether a node is in the graph. -/
def contains (graph : LineageGraph) (node : Node) : Bool := graph.nodes.contains node

/-- The edges of which a node is the target or the source. -/
def edgesFor (graph : LineageGraph) (node : Node) : List Edge :=
  graph.edges.filter (·.touches node)

/-- The edges without a target. -/
def orphans (graph : LineageGraph) : List Edge := graph.edges.filter Edge.isOrphan

end LineageGraph

end DatasetLineage
