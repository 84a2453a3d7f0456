/-
Module: DatasetLineage.Proofs.GraphCircuits
Purpose: The search for a shortest cycle through the smallest of some nodes, whatever graph they are
  of and whether or not they depend on one another. A smallest place is found, the search from it is
  safe, and the places of a circuit are all places of nodes, so there is always a result.
Main exports: LineageGraph.IsSmallestPlace, LineageGraph.IsCycleAt,
  LineageGraph.exists_smallestPlace?, LineageGraph.exists_nodesAt,
  LineageGraph.shortestCycle?_of_circuit, LineageGraph.exists_shortestCycle?
-/
import DatasetLineage.Lineage.Graph.Cycle
import DatasetLineage.Proofs.DigraphBreadthSearch

namespace DatasetLineage.LineageGraph

open DatasetLineage.Digraph (IsSafeSearch)

/-- Whether `start` is one of some places and no node at any of them is smaller than its node. -/
structure IsSmallestPlace (graph : LineageGraph) (places : List Nat) (start : Nat) : Prop where
  member : start ∈ places
  least : ∀ v ∈ places, ∀ a b, graph.nodes[start]? = some a → graph.nodes[v]? = some b → ¬ b < a

/-- Whether the nodes of a cycle are those at some places, in order. -/
def IsCycleAt (graph : LineageGraph) (places : List Nat) (cycle : Cycle) : Prop :=
  List.Forall₂ (fun place node => graph.nodes[place]? = some node) places cycle.nodes

section Smallest

variable {graph : LineageGraph} {first second start u v : Nat} {rest places : List Nat} {a b : Node}

theorem smallerPlace?_eq (placeA : graph.nodes[u]? = some a) (placeB : graph.nodes[v]? = some b) :
    graph.smallerPlace? u v = some (if b < a then v else u) := by
  rw [smallerPlace?, placeA, placeB]
  rfl

/-- What is smallest beside the smaller of two places is smallest beside both. -/
theorem IsSmallestPlace.cons_cons (placeA : graph.nodes[first]? = some a)
    (placeB : graph.nodes[second]? = some b)
    (smallest : graph.IsSmallestPlace ((if b < a then second else first) :: rest) start) :
    graph.IsSmallestPlace (first :: second :: rest) start := by
  obtain ⟨member, least⟩ := smallest
  have chosen : (if b < a then second else first) ∈ [first, second] := by
    split
    · exact List.mem_cons_of_mem _ List.mem_cons_self
    · exact List.mem_cons_self
  have placeChosen : graph.nodes[if b < a then second else first]? = some (a.smaller b) := by
    rw [Node.smaller]
    split
    · exact placeB
    · exact placeA
  refine ⟨?_, fun v listed c d placeC placeD => ?_⟩
  · rcases List.mem_cons.mp member with isChosen | later
    · exact List.mem_append_left rest (isChosen ▸ chosen)
    · exact List.mem_append_right [first, second] later
  · have notBelow : ¬ a.smaller b < c := least _ List.mem_cons_self c _ placeC placeChosen
    rcases List.mem_cons.mp listed with rfl | listed
    · rw [placeA, Option.some_inj] at placeD
      exact Node.not_lt_trans (placeD ▸ Node.not_lt_smaller_left a b) notBelow
    · rcases List.mem_cons.mp listed with rfl | later
      · rw [placeB, Option.some_inj] at placeD
        exact Node.not_lt_trans (placeD ▸ Node.not_lt_smaller_right a b) notBelow
      · exact least v (List.mem_cons_of_mem _ later) c d placeC placeD

theorem exists_foldlM_smallerPlace? (inside : first < graph.nodes.length)
    (valid : ∀ v ∈ rest, v < graph.nodes.length) :
    ∃ start, rest.foldlM graph.smallerPlace? first = some start ∧
      graph.IsSmallestPlace (first :: rest) start := by
  induction rest generalizing first with
  | nil =>
      refine ⟨first, rfl, List.mem_cons_self, fun v listed a b placeA placeB => ?_⟩
      rw [List.mem_singleton] at listed
      rw [listed, placeA, Option.some_inj] at placeB
      exact placeB ▸ Node.lt_irrefl a
  | cons second rest ih =>
      rw [List.forall_mem_cons] at valid
      have placeA := List.getElem?_eq_getElem inside
      have placeB := List.getElem?_eq_getElem valid.1
      have chosen : (if graph.nodes[second] < graph.nodes[first] then second else first) <
          graph.nodes.length := by
        split
        · exact valid.1
        · exact inside
      obtain ⟨start, found, smallest⟩ := ih chosen valid.2
      refine ⟨start, ?_, smallest.cons_cons placeA placeB⟩
      rw [List.foldlM_cons, smallerPlace?_eq placeA placeB, Option.bind_eq_bind, Option.bind_some,
        found]

/-- Of places of nodes a smallest one is found. -/
theorem exists_smallestPlace? (nonempty : places ≠ [])
    (valid : ∀ v ∈ places, v < graph.nodes.length) :
    ∃ start, graph.smallestPlace? places = some (some start) ∧
      graph.IsSmallestPlace places start := by
  cases places with
  | nil =>
      exact absurd rfl nonempty
  | cons first rest =>
      rw [List.forall_mem_cons] at valid
      obtain ⟨start, found, smallest⟩ := exists_foldlM_smallerPlace? valid.1 valid.2
      refine ⟨start, ?_, smallest⟩
      rw [smallestPlace?, found, Option.map_some]

end Smallest

section Circuits

variable {graph : LineageGraph} {adjacency : List (List Nat)} {component places : List Nat}
  {start : Nat}

/-- At places of nodes there are nodes. -/
theorem exists_nodesAt (valid : ∀ v ∈ places, v < graph.nodes.length) :
    ∃ nodes, (places.mapM fun place => graph.nodes[place]?) = some nodes ∧
      List.Forall₂ (fun place node => graph.nodes[place]? = some node) places nodes := by
  induction places with
  | nil =>
      exact ⟨[], rfl, .nil⟩
  | cons place rest ih =>
      rw [List.forall_mem_cons] at valid
      obtain ⟨nodes, listed, at'⟩ := ih valid.2
      have here := List.getElem?_eq_getElem valid.1
      refine ⟨graph.nodes[place] :: nodes, ?_, .cons here at'⟩
      rw [List.mapM_cons, here, listed]
      rfl

/-- The circuit that the search finds is told by its nodes. -/
theorem shortestCycle?_of_circuit (smallest : graph.smallestPlace? component = some (some start))
    (found : Digraph.shortestCircuit? adjacency component start = some (some places)) :
    graph.shortestCycle? adjacency component =
      (places.mapM fun place => graph.nodes[place]?).map fun nodes => some ⟨nodes⟩ := by
  rw [shortestCycle?, smallest, Option.bind_eq_bind, Option.bind_some]
  simp only [found, Option.bind_eq_bind, Option.bind_some]
  cases places.mapM fun place => graph.nodes[place]? <;> rfl

theorem shortestCycle?_of_no_circuit
    (smallest : graph.smallestPlace? component = some (some start))
    (notFound : Digraph.shortestCircuit? adjacency component start = some none) :
    graph.shortestCycle? adjacency component = some none := by
  rw [shortestCycle?, smallest, Option.bind_eq_bind, Option.bind_some]
  simp only [notFound, Option.bind_eq_bind, Option.bind_some, Option.pure_def]

theorem length_adjacency (graph : LineageGraph) :
    graph.adjacency.length = graph.nodes.length := by
  rw [LineageGraph.adjacency, List.length_map]

/-- Among whatever places of nodes, the search for a shortest cycle starts at a smallest place, is
    safe and has a result: no cycle if the search finds no circuit, and otherwise the nodes at the
    places of the circuit. -/
theorem exists_shortestCycle? (graph : LineageGraph) (component : List Nat)
    (nonempty : component ≠ []) (valid : ∀ v ∈ component, v < graph.nodes.length) :
    ∃ start, graph.smallestPlace? component = some (some start) ∧
      graph.IsSmallestPlace component start ∧
      IsSafeSearch graph.adjacency component start ∧
      ∃ circuit result,
        Digraph.shortestCircuit? graph.adjacency component start = some circuit ∧
          graph.shortestCycle? graph.adjacency component = some result ∧
          Option.Rel graph.IsCycleAt circuit result := by
  obtain ⟨start, found, smallest⟩ := exists_smallestPlace? nonempty valid
  have inside : ∀ v ∈ component, v < graph.adjacency.length := by
    rw [length_adjacency]
    exact valid
  refine ⟨start, found, smallest, Digraph.isSafeSearch smallest.member inside, ?_⟩
  obtain ⟨circuit, ended, within⟩ := Digraph.exists_shortestCircuit? smallest.member inside
  cases circuit with
  | none =>
      exact ⟨none, none, ended, shortestCycle?_of_no_circuit found ended, .none⟩
  | some places =>
      obtain ⟨nodes, listed, areAt⟩ := exists_nodesAt fun v inPlaces =>
        valid v (within places rfl inPlaces)
      refine ⟨some places, some ⟨nodes⟩, ended, ?_, .some areAt⟩
      rw [shortestCycle?_of_circuit found ended, listed, Option.map_some]

/-- Places of a graph that are not connected, one of them listed twice and one with an arc to
    itself. -/
theorem exists_shortestCycle?_two_chains :
    let reads (target source : String) := Edge.fromDataset (some target) source "chains.sas"
    let graph := ofEdges [reads "b" "a", reads "a" "b", reads "c" "c", reads "d" "c", reads "d" "a"]
    [2, 0, 3, 1, 3] ≠ [] ∧ (∀ v ∈ [2, 0, 3, 1, 3], v < graph.nodes.length) ∧
      ∃ start, graph.smallestPlace? [2, 0, 3, 1, 3] = some (some start) ∧
        graph.IsSmallestPlace [2, 0, 3, 1, 3] start ∧
        IsSafeSearch graph.adjacency [2, 0, 3, 1, 3] start ∧
        ∃ circuit result,
          Digraph.shortestCircuit? graph.adjacency [2, 0, 3, 1, 3] start = some circuit ∧
            graph.shortestCycle? graph.adjacency [2, 0, 3, 1, 3] = some result ∧
            Option.Rel graph.IsCycleAt circuit result :=
  ⟨by decide, by decide, exists_shortestCycle? _ _ (by decide) (by decide)⟩

end Circuits

end DatasetLineage.LineageGraph
