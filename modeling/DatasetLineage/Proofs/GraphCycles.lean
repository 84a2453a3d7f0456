/-
Module: DatasetLineage.Proofs.GraphCycles
Purpose: The cycles of a lineage graph. Places of nodes lead to one another as the nodes read one
  another, so the components of the places are the classes of nodes that depend on one another.
  A component of several nodes has one cycle, which is a shortest one through the smallest node.
Main exports: LineageGraph.arc_adjacency_iff, LineageGraph.areComponents,
  LineageGraph.mem_component_iff, LineageGraph.IsComponentCycle, LineageGraph.exists_componentCycle,
  LineageGraph.cycles_ofBatches
-/
import DatasetLineage.Proofs.DigraphCircuit
import DatasetLineage.Proofs.DigraphComponents
import DatasetLineage.Proofs.GraphCircuits
import DatasetLineage.Proofs.GraphRepresentation
import Mathlib.Data.List.Lattice

namespace DatasetLineage.LineageGraph

open Relation (TransGen ReflTransGen)
open DatasetLineage.Digraph (Arc StronglyConnected IsCircuit IsShortestCircuit AreComponents)

/-! ### Nodes and their places -/

section Places

variable {edges : List Edge} {u v : Nat} {a b : Node}

/-- Two places of one node are the same place. -/
theorem place_unique (placeA : (stored edges).nodes[u]? = some a)
    (placeB : (stored edges).nodes[v]? = some a) : u = v := by
  have inside : u < (stored edges).nodes.length := (List.getElem?_eq_some_iff.mp placeA).1
  exact (List.getElem?_inj inside (nodup_nodes_stored edges)).mp (placeA.trans placeB.symm)

/-- A node is found at its place. -/
theorem idxOf?_eq_some_iff :
    (stored edges).nodes.idxOf? a = some u ↔ (stored edges).nodes[u]? = some a := by
  constructor
  · intro found
    obtain ⟨inside, here, _⟩ := List.idxOf?_eq_some_iff.mp found
    exact List.getElem?_eq_some_iff.mpr ⟨inside, here⟩
  · intro placeA
    obtain ⟨inside, here⟩ := List.getElem?_eq_some_iff.mp placeA
    refine List.idxOf?_eq_some_iff.mpr ⟨inside, here, fun v before there => ?_⟩
    have placeA' := List.getElem?_eq_some_iff.mpr ⟨Nat.lt_trans before inside, there⟩
    exact Nat.ne_of_lt before (place_unique placeA' placeA)

/-- An arc leads from the place of a node to the places of the nodes that it reads. -/
theorem arc_adjacency_iff :
    Arc (stored edges).adjacency u v ↔
      ∃ a b, (stored edges).nodes[u]? = some a ∧ (stored edges).nodes[v]? = some b ∧
        (stored edges).Reads a b := by
  rw [Arc, adjacency, List.getD_eq_getElem?_getD, List.getElem?_map]
  constructor
  · intro listed
    cases placeA : (stored edges).nodes[u]? with
    | none =>
        rw [placeA] at listed
        exact absurd listed List.not_mem_nil
    | some a =>
        rw [placeA] at listed
        obtain ⟨b, source, found⟩ := List.mem_filterMap.mp listed
        exact ⟨a, b, rfl, idxOf?_eq_some_iff.mp found, mem_upstream_stored.mp source⟩
  · rintro ⟨a, b, placeA, placeB, reads⟩
    rw [placeA]
    exact List.mem_filterMap.mpr
      ⟨b, mem_upstream_stored.mpr reads, idxOf?_eq_some_iff.mpr placeB⟩

/-- Places reach each other as their nodes do. -/
theorem reaches_places_iff (placeA : (stored edges).nodes[u]? = some a)
    (placeB : (stored edges).nodes[v]? = some b) :
    ReflTransGen (Arc (stored edges).adjacency) u v ↔
      ReflTransGen (stored edges).Reads a b := by
  constructor
  · intro way
    induction way generalizing b with
    | refl =>
        rw [placeA, Option.some_inj] at placeB
        exact placeB ▸ .refl
    | tail _ arc ih =>
        obtain ⟨c, d, placeC, placeD, reads⟩ := arc_adjacency_iff.mp arc
        rw [placeB, Option.some_inj] at placeD
        exact (ih placeC).tail (placeD ▸ reads)
  · intro way
    induction way generalizing v with
    | refl =>
        exact place_unique placeA placeB ▸ .refl
    | tail _ reads ih =>
        have placeC := List.getElem?_idxOf reads.mem_nodes.1
        exact (ih placeC).tail (arc_adjacency_iff.mpr ⟨_, _, placeC, placeB, reads⟩)

theorem connected_places_iff (placeA : (stored edges).nodes[u]? = some a)
    (placeB : (stored edges).nodes[v]? = some b) :
    StronglyConnected (Arc (stored edges).adjacency) u v ↔
      StronglyConnected (stored edges).Reads a b := by
  rw [StronglyConnected, StronglyConnected, reaches_places_iff placeA placeB,
    reaches_places_iff placeB placeA]

/-- What is connected to a node is a node too. -/
theorem mem_nodes_of_connected (connected : StronglyConnected (stored edges).Reads a b)
    (listed : a ∈ (stored edges).nodes) : b ∈ (stored edges).nodes := by
  rcases Relation.ReflTransGen.cases_tail connected.1 with rfl | ⟨c, _, reads⟩
  · exact listed
  · exact reads.mem_nodes.2

/-- The place of one node leads to that of another exactly if the one reads the other. -/
theorem arc_idxOf_iff :
    Arc (stored edges).adjacency ((stored edges).nodes.idxOf a) ((stored edges).nodes.idxOf b) ↔
      (stored edges).Reads a b := by
  have atPlace : ∀ {node node'},
      (stored edges).nodes[(stored edges).nodes.idxOf node]? = some node' → node' = node := by
    intro node node' place
    have inside := (List.getElem?_eq_some_iff.mp place).1
    have here := List.getElem?_idxOf (List.idxOf_lt_length_iff.mp inside)
    exact Option.some.inj (place.symm.trans here)
  rw [arc_adjacency_iff]
  constructor
  · rintro ⟨a', b', placeA, placeB, reads⟩
    exact atPlace placeA ▸ atPlace placeB ▸ reads
  · intro reads
    exact ⟨a, b, List.getElem?_idxOf reads.mem_nodes.1, List.getElem?_idxOf reads.mem_nodes.2,
      reads⟩

/-- The components of the places are found. -/
theorem areComponents (edges : List Edge) :
    AreComponents (stored edges).adjacency (Digraph.components (stored edges).adjacency) := by
  refine (Digraph.areComponents_components fun u v arc => ?_).2
  obtain ⟨_, b, _, placeB, _⟩ := arc_adjacency_iff.mp arc
  rw [length_adjacency]
  exact (List.getElem?_eq_some_iff.mp placeB).1

end Places

/-! ### Components -/

section Components

variable {edges : List Edge} {component : List Nat} {u v : Nat} {a b : Node}

/-- A component consists of places of nodes. -/
theorem lt_of_mem_component (given : component ∈ Digraph.components (stored edges).adjacency)
    (member : u ∈ component) : u < (stored edges).nodes.length := by
  have listed := List.mem_flatten.mpr ⟨component, given, member⟩
  have inside := List.mem_range.mp ((areComponents edges).partition.mem_iff.mp listed)
  exact length_adjacency (stored edges) ▸ inside

/-- A component is the whole class of the node at each of its places. -/
theorem mem_component_iff (given : component ∈ Digraph.components (stored edges).adjacency)
    (member : u ∈ component) (placeA : (stored edges).nodes[u]? = some a)
    (placeB : (stored edges).nodes[v]? = some b) :
    v ∈ component ↔ StronglyConnected (stored edges).Reads a b := by
  rw [(areComponents edges).whole component given u member, connected_places_iff placeA placeB]

/-- Every node is in a component. -/
theorem exists_component (listed : a ∈ (stored edges).nodes) :
    ∃ component ∈ Digraph.components (stored edges).adjacency,
      ∃ u ∈ component, (stored edges).nodes[u]? = some a := by
  have inside : (stored edges).nodes.idxOf a < (stored edges).adjacency.length := by
    rw [length_adjacency]
    exact List.idxOf_lt_length_iff.mpr listed
  obtain ⟨component, given, member⟩ := (areComponents edges).exists_component inside
  exact ⟨component, given, _, member, List.getElem?_idxOf listed⟩

/-- Components that share a place are the same. -/
theorem component_unique {other : List Nat}
    (given : component ∈ Digraph.components (stored edges).adjacency)
    (given' : other ∈ Digraph.components (stored edges).adjacency) (member : u ∈ component)
    (member' : u ∈ other) : component = other := by
  by_contra different
  have symmetric : Std.Symm (List.Disjoint : List Nat → List Nat → Prop) :=
    ⟨fun _ _ => List.Disjoint.symm⟩
  exact (areComponents edges).pairwise_disjoint.forall given given' different member member'

end Components

/-- The cycle of the component of a node: a circuit of two or more of the nodes that depend on
    `member` and on which it depends. It begins with the smallest of these, and no circuit of two
    or more nodes through that one is shorter. -/
structure IsComponentCycle (graph : LineageGraph) (member : Node) (nodes : List Node) : Prop where
  several : 2 ≤ nodes.length
  circuit : IsCircuit graph.Reads nodes
  inside : ∀ node ∈ nodes, StronglyConnected graph.Reads member node
  smallest : ∀ first ∈ nodes.head?, ∀ node, StronglyConnected graph.Reads member node →
    node = first ∨ first < node
  shortest : ∀ first ∈ nodes.head?, ∀ other, IsCircuit graph.Reads other → 2 ≤ other.length →
    first ∈ other → nodes.length ≤ other.length

theorem IsComponentCycle.not_singleton {graph : LineageGraph} {member node : Node} :
    ¬ graph.IsComponentCycle member [node] := by
  intro isCycle
  have several := isCycle.several
  rw [List.length_singleton] at several
  omega

/-! ### Circuits -/

section Circuits

variable {edges : List Edge} {component places : List Nat} {start u : Nat} {member : Node}
  {nodes : List Node}

/-- Nodes at places have these places. -/
theorem map_idxOf_eq
    (at' : List.Forall₂ (fun place node => (stored edges).nodes[place]? = some node) places nodes) :
    nodes.map (stored edges).nodes.idxOf = places ∧ nodes ⊆ (stored edges).nodes := by
  induction at' with
  | nil =>
      exact ⟨rfl, List.nil_subset _⟩
  | @cons place node places nodes here _ ih =>
      have listed := List.mem_of_getElem? here
      have samePlace := place_unique (List.getElem?_idxOf listed) here
      exact ⟨by rw [List.map_cons, samePlace, ih.1], List.cons_subset.mpr ⟨listed, ih.2⟩⟩

/-- The places of nodes form a circuit exactly if the nodes do. -/
theorem isCircuit_places_iff (listed : nodes ⊆ (stored edges).nodes) :
    IsCircuit (Arc (stored edges).adjacency) (nodes.map (stored edges).nodes.idxOf) ↔
      IsCircuit (stored edges).Reads nodes := by
  apply Digraph.isCircuit_map_iff fun a b => arc_idxOf_iff
  intro a listedA b _ same
  exact (List.idxOf_inj (listed listedA)).mp same

/-- A shortest circuit among the places of a component, from a smallest one on, tells the cycle of
    that component. -/
theorem isComponentCycle_of_shortest
    (given : component ∈ Digraph.components (stored edges).adjacency)
    (smallest : (stored edges).IsSmallestPlace component start)
    (shortest : IsShortestCircuit (Arc (stored edges).adjacency) component start places)
    (at' : List.Forall₂ (fun place node => (stored edges).nodes[place]? = some node) places nodes)
    (inside : u ∈ component) (placeMember : (stored edges).nodes[u]? = some member) :
    (stored edges).IsComponentCycle member nodes := by
  obtain ⟨rfl, listed⟩ := map_idxOf_eq at'
  have starts : ∀ first ∈ nodes.head?, (stored edges).nodes[start]? = some first := by
    intro first isFirst
    have isStart := shortest.starts
    rw [List.head?_map, isFirst, Option.map_some, Option.some_inj] at isStart
    exact isStart ▸ List.getElem?_idxOf (listed (List.mem_of_mem_head? isFirst))
  have placeOf : ∀ {node}, node ∈ nodes → (stored edges).nodes.idxOf node ∈ component :=
    fun inNodes => shortest.inside (List.mem_map_of_mem inNodes)
  constructor
  case several =>
    have several := shortest.several
    rwa [List.length_map] at several
  case circuit =>
    exact (isCircuit_places_iff listed).mp shortest.circuit
  case inside =>
    intro node inNodes
    exact (mem_component_iff given inside placeMember (List.getElem?_idxOf (listed inNodes))).mp
      (placeOf inNodes)
  case smallest =>
    intro first isFirst node connected
    have placeNode := List.getElem?_idxOf
      (mem_nodes_of_connected connected (List.mem_of_getElem? placeMember))
    have inComponent := (mem_component_iff given inside placeMember placeNode).mpr connected
    have notBelow : ¬ node < first :=
      smallest.least _ inComponent first node (starts first isFirst) placeNode
    by_cases above : first < node
    · exact .inr above
    · exact .inl (Node.eq_of_not_lt notBelow above)
  case shortest =>
    intro first isFirst other circuit several through
    have placeFirst := starts first isFirst
    have isNode := List.mem_of_getElem? placeFirst
    have listed' : other ⊆ (stored edges).nodes := fun node inOther =>
      mem_nodes_of_connected (circuit.stronglyConnected through inOther) isNode
    have within : other.map (stored edges).nodes.idxOf ⊆ component := by
      intro place inPlaces
      obtain ⟨node, inOther, rfl⟩ := List.mem_map.mp inPlaces
      exact (mem_component_iff given smallest.member placeFirst
        (List.getElem?_idxOf (listed' inOther))).mpr (circuit.stronglyConnected through inOther)
    have startIn : start ∈ other.map (stored edges).nodes.idxOf :=
      List.mem_map.mpr ⟨first, through, place_unique (List.getElem?_idxOf isNode) placeFirst⟩
    have notLonger := shortest.shortest _ ((isCircuit_places_iff listed').mpr circuit)
      (by rwa [List.length_map]) within startIn
    rwa [List.length_map, List.length_map] at notLonger

/-- A component of two or more nodes has a cycle. -/
theorem exists_componentCycle (given : component ∈ Digraph.components (stored edges).adjacency)
    (several : 1 < component.length) :
    ∃ cycle, (stored edges).shortestCycle? (stored edges).adjacency component = some (some cycle) ∧
      ∀ u ∈ component, ∀ member, (stored edges).nodes[u]? = some member →
        (stored edges).IsComponentCycle member cycle.nodes := by
  have valid : ∀ v ∈ component, v < (stored edges).nodes.length := fun v =>
    lt_of_mem_component given
  have nonempty : component ≠ [] := List.ne_nil_of_length_pos (Nat.zero_lt_of_lt several)
  obtain ⟨start, found, smallest⟩ := exists_smallestPlace? nonempty valid
  obtain ⟨other, member, different⟩ : ∃ other ∈ component, other ≠ start := by
    by_contra same
    have all : component ⊆ [start] := fun v listed => by
      rw [List.mem_singleton]
      exact by_contra fun different => same ⟨v, listed, different⟩
    have length := (List.subperm_of_subset ((areComponents edges).nodup given) all).length_le
    rw [List.length_singleton] at length
    omega
  obtain ⟨places, ended, shortest⟩ := Digraph.shortestCircuit?_of_class
    (fun v => (areComponents edges).whole component given start smallest.member v)
    (by rwa [length_adjacency]) member different
  obtain ⟨nodes, listed, at'⟩ := exists_nodesAt fun v inPlaces => valid v (shortest.inside inPlaces)
  refine ⟨⟨nodes⟩, ?_, fun u inside member placeMember => ?_⟩
  · rw [shortestCycle?_of_circuit found ended, listed, Option.map_some]
  · exact isComponentCycle_of_shortest given smallest shortest at' inside placeMember

end Circuits

/-! ### Cycles of a graph -/

section Cycles

variable {edges : List Edge} {component : List Nat} {cycle : Cycle} {u : Nat} {a b : Node}

theorem isComponentCycle_of_found
    (given : component ∈ Digraph.components (stored edges).adjacency)
    (several : 1 < component.length)
    (found : (stored edges).shortestCycle? (stored edges).adjacency component = some (some cycle))
    (inside : u ∈ component) (placeA : (stored edges).nodes[u]? = some a) :
    (stored edges).IsComponentCycle a cycle.nodes := by
  obtain ⟨cycle', found', isCycle⟩ := exists_componentCycle given several
  rw [found, Option.some_inj, Option.some_inj] at found'
  exact found' ▸ isCycle u inside a placeA

theorem selfCycle?_eq_some_iff :
    (stored edges).selfCycle? (stored edges).adjacency u = some cycle ↔
      ∃ node, (stored edges).nodes[u]? = some node ∧ (stored edges).Reads node node ∧
        ⟨[node]⟩ = cycle := by
  cases placeA : (stored edges).nodes[u]? with
  | none =>
      simp [selfCycle?, placeA]
  | some a =>
      have inside : u < (stored edges).adjacency.length := by
        rw [length_adjacency]
        exact (List.getElem?_eq_some_iff.mp placeA).1
      have row := List.getElem?_eq_getElem inside
      have loop : u ∈ (stored edges).adjacency[u] ↔ (stored edges).Reads a a := by
        rw [← Digraph.arc_iff_mem row, arc_adjacency_iff]
        simp [placeA]
      rw [selfCycle?, row, placeA]
      simp only [Option.bind_eq_bind, Option.bind_some]
      by_cases reads : (stored edges).Reads a a
      · rw [if_pos (loop.mpr reads)]
        simp [reads]
      · rw [if_neg (mt loop.mp reads)]
        simp [reads]

theorem mem_componentCycles_iff :
    cycle ∈ (stored edges).componentCycles (stored edges).adjacency component ↔
      (∃ u ∈ component, ∃ node, (stored edges).nodes[u]? = some node ∧
        (stored edges).Reads node node ∧ ⟨[node]⟩ = cycle) ∨
      1 < component.length ∧
        (stored edges).shortestCycle? (stored edges).adjacency component = some (some cycle) := by
  rw [componentCycles, List.mem_append, List.mem_filterMap]
  simp only [selfCycle?_eq_some_iff]
  apply or_congr_right
  split
  · rename_i several
    rw [Option.mem_toList, Option.join_eq_some_iff]
    exact (and_iff_right several).symm
  · rename_i single
    exact iff_of_false List.not_mem_nil fun both => single both.1

/-- The nodes of a cycle of a component are at places of it, and there are any. -/
theorem nodes_of_mem_componentCycles
    (given : component ∈ Digraph.components (stored edges).adjacency)
    (listed : cycle ∈ (stored edges).componentCycles (stored edges).adjacency component) :
    cycle.nodes ≠ [] ∧
      ∀ node ∈ cycle.nodes, ∃ u ∈ component, (stored edges).nodes[u]? = some node := by
  rcases mem_componentCycles_iff.mp listed with
    ⟨u, member, node, placeNode, _, rfl⟩ | ⟨several, found⟩
  · refine ⟨List.cons_ne_nil _ _, fun other inCycle => ?_⟩
    rw [List.mem_singleton] at inCycle
    exact ⟨u, member, inCycle ▸ placeNode⟩
  · obtain ⟨u, inside⟩ := List.exists_mem_of_length_pos (Nat.zero_lt_of_lt several)
    have placeA := List.getElem?_eq_getElem (lt_of_mem_component given inside)
    have isCycle := isComponentCycle_of_found given several found inside placeA
    constructor
    · intro empty
      have several' := isCycle.several
      rw [empty, List.length_nil] at several'
      omega
    · intro node inCycle
      have connected := isCycle.inside node inCycle
      have placeNode := List.getElem?_idxOf
        (mem_nodes_of_connected connected (List.mem_of_getElem? placeA))
      exact ⟨_, (mem_component_iff given inside placeA placeNode).mpr connected, placeNode⟩

theorem nodup_componentCycles
    (given : component ∈ Digraph.components (stored edges).adjacency) :
    ((stored edges).componentCycles (stored edges).adjacency component).Nodup := by
  have atMostOne : (if 1 < component.length then
      ((stored edges).shortestCycle? (stored edges).adjacency component).join.toList
    else []).Nodup := by
    split
    · exact Option.toList_nodup _
    · exact List.nodup_nil
  refine List.nodup_append.mpr ⟨?_, atMostOne, ?_⟩
  · apply List.Nodup.filterMap _ ((areComponents edges).nodup given)
    intro u v cycle loopU loopV
    obtain ⟨a, placeA, _, sameA⟩ := selfCycle?_eq_some_iff.mp loopU
    obtain ⟨b, placeB, _, sameB⟩ := selfCycle?_eq_some_iff.mp loopV
    have same : Cycle.mk [a] = ⟨[b]⟩ := sameA.trans sameB.symm
    have sameNode : a = b := by simpa using same
    exact place_unique placeA (sameNode ▸ placeB)
  · -- a circuit has more than the one node of a self cycle
    intro loop inLoops circuit isCircuit same
    subst same
    obtain ⟨u, member, isLoop⟩ := List.mem_filterMap.mp inLoops
    obtain ⟨node, placeNode, _, rfl⟩ := selfCycle?_eq_some_iff.mp isLoop
    split at isCircuit
    · rename_i several
      rw [Option.mem_toList, Option.join_eq_some_iff] at isCircuit
      exact (isComponentCycle_of_found given several isCircuit member placeNode).not_singleton
    · exact List.not_mem_nil isCircuit

theorem mem_cycles_iff :
    cycle ∈ (stored edges).cycles ↔
      ∃ component ∈ Digraph.components (stored edges).adjacency,
        cycle ∈ (stored edges).componentCycles (stored edges).adjacency component := by
  rw [cycles, (inOrder_perm _ _).mem_iff, List.mem_flatMap]

theorem nodup_cycles (edges : List Edge) : (stored edges).cycles.Nodup := by
  rw [cycles, (inOrder_perm _ _).nodup_iff, List.nodup_flatMap]
  constructor
  · intro component given
    exact nodup_componentCycles given
  · apply (areComponents edges).pairwise_disjoint.imp_of_mem
    intro componentA componentB givenA givenB disjoint cycle inA inB
    obtain ⟨nonempty, withinA⟩ := nodes_of_mem_componentCycles givenA inA
    obtain ⟨_, withinB⟩ := nodes_of_mem_componentCycles givenB inB
    obtain ⟨node, inCycle⟩ := List.exists_mem_of_ne_nil _ nonempty
    obtain ⟨u, memberU, placeU⟩ := withinA node inCycle
    obtain ⟨v, memberV, placeV⟩ := withinB node inCycle
    exact disjoint memberU (place_unique placeU placeV ▸ memberV)

/-- The cycles are listed in the order of their nodes, none twice. -/
theorem strictly_sorted_cycles (edges : List Edge) :
    ((stored edges).cycles.map Cycle.nodes).Pairwise (· < ·) := by
  rw [List.pairwise_map]
  have sorted : (stored edges).cycles.Pairwise fun a b => decide (a.nodes ≤ b.nodes) = true := by
    apply pairwise_inOrder
    · intro a b
      simpa using List.le_total a.nodes b.nodes
    · intro a b c
      simpa using Node.list_le_trans
  apply sorted.imp₂ _ (nodup_cycles edges)
  intro a b notAbove distinct
  rcases List.le_iff_lt_or_eq.mp (of_decide_eq_true notAbove) with below | same
  · exact below
  · exact absurd (congrArg Cycle.mk same) distinct

/-- A node that reads itself has a cycle of its own, and no other node has one. -/
theorem selfCycle_mem_cycles_iff :
    ⟨[a]⟩ ∈ (stored edges).cycles ↔ (stored edges).Reads a a := by
  rw [mem_cycles_iff]
  constructor
  · rintro ⟨component, given, listed⟩
    rcases mem_componentCycles_iff.mp listed with ⟨_, _, node, _, reads, same⟩ | ⟨several, found⟩
    · cases same
      exact reads
    · obtain ⟨u, member, placeA⟩ :=
        (nodes_of_mem_componentCycles given listed).2 a List.mem_cons_self
      have isCycle := isComponentCycle_of_found given several found member placeA
      exact absurd isCycle IsComponentCycle.not_singleton
  · intro reads
    obtain ⟨component, given, u, member, placeA⟩ := exists_component reads.mem_nodes.1
    exact ⟨component, given,
      mem_componentCycles_iff.mpr (.inl ⟨u, member, a, placeA, reads, rfl⟩)⟩

/-- A node that is connected to another one has one cycle of its component. -/
theorem existsUnique_componentCycle (different : a ≠ b)
    (connected : StronglyConnected (stored edges).Reads a b) :
    ∃! cycle, cycle ∈ (stored edges).cycles ∧
      (stored edges).IsComponentCycle a cycle.nodes := by
  have isNode : a ∈ (stored edges).nodes := by
    rcases Relation.ReflTransGen.cases_head connected.1 with same | ⟨c, reads, _⟩
    · exact absurd same different
    · exact reads.mem_nodes.1
  obtain ⟨component, given, u, member, placeA⟩ := exists_component isNode
  have several : 1 < component.length := by
    have placeB := List.getElem?_idxOf (mem_nodes_of_connected connected isNode)
    generalize (stored edges).nodes.idxOf b = v at placeB
    have memberB := (mem_component_iff given member placeA placeB).mpr connected
    have apart : u ≠ v := by
      rintro rfl
      exact different (Option.some.inj (placeA.symm.trans placeB))
    have both : [u, v] ⊆ component :=
      List.cons_subset.mpr ⟨member, List.cons_subset.mpr ⟨memberB, List.nil_subset _⟩⟩
    exact (List.subperm_of_subset (by simpa using apart) both).length_le
  obtain ⟨cycle, found, isCycle⟩ := exists_componentCycle given several
  refine ⟨cycle, ⟨?_, isCycle u member a placeA⟩, ?_⟩
  · exact mem_cycles_iff.mpr
      ⟨component, given, mem_componentCycles_iff.mpr (.inr ⟨several, found⟩)⟩
  · rintro other ⟨listed, isOther⟩
    obtain ⟨component', given', listed'⟩ := mem_cycles_iff.mp listed
    rcases mem_componentCycles_iff.mp listed' with ⟨_, _, node, _, _, rfl⟩ | ⟨_, found'⟩
    · exact absurd isOther IsComponentCycle.not_singleton
    · -- a node of the other cycle is in both components
      obtain ⟨nonempty, within⟩ := nodes_of_mem_componentCycles given' listed'
      obtain ⟨node, inOther⟩ := List.exists_mem_of_ne_nil _ nonempty
      obtain ⟨v, member', placeNode⟩ := within node inOther
      have shared : v ∈ component :=
        (mem_component_iff given member placeA placeNode).mpr (isOther.inside node inOther)
      have same : component' = component := component_unique given' given member' shared
      rw [same, found, Option.some_inj, Option.some_inj] at found'
      exact found'.symm

/-- Every cycle is one of a node that reads itself or one of a component. -/
theorem mem_cycles_cases (listed : cycle ∈ (stored edges).cycles) :
    (∃ node, cycle.nodes = [node]) ∨
      ∃ member, (stored edges).IsComponentCycle member cycle.nodes := by
  obtain ⟨component, given, listed⟩ := mem_cycles_iff.mp listed
  rcases mem_componentCycles_iff.mp listed with ⟨_, _, node, _, _, rfl⟩ | ⟨several, found⟩
  · exact .inl ⟨node, rfl⟩
  · obtain ⟨u, member⟩ := List.exists_mem_of_length_pos (Nat.zero_lt_of_lt several)
    have placeA := List.getElem?_eq_getElem (lt_of_mem_component given member)
    exact .inr ⟨_, isComponentCycle_of_found given several found member placeA⟩

theorem cycles_eq_nil_iff :
    (stored edges).cycles = [] ↔ ∀ node, ¬ TransGen (stored edges).Reads node node := by
  rw [List.eq_nil_iff_forall_not_mem]
  constructor
  · intro none node way
    by_cases loop : (stored edges).Reads node node
    · exact none _ (selfCycle_mem_cycles_iff.mpr loop)
    · obtain ⟨next, reads, back⟩ := Relation.TransGen.head'_iff.mp way
      have different : node ≠ next := fun same => loop (same ▸ reads)
      obtain ⟨cycle, ⟨given, _⟩, _⟩ :=
        existsUnique_componentCycle different ⟨.single reads, back⟩
      exact none cycle given
  · intro none cycle given
    rcases mem_cycles_cases given with ⟨node, same⟩ | ⟨member, isCycle⟩
    · have loop : (stored edges).Reads node node :=
        selfCycle_mem_cycles_iff.mp (same ▸ given)
      exact none node (.single loop)
    · match nodes : cycle.nodes, isCycle.several with
      | first :: second :: rest, _ =>
        have circuit := nodes ▸ isCycle.circuit
        have reads : (stored edges).Reads first second :=
          (List.isChain_cons_cons.mp circuit.chain).1
        have back := circuit.stronglyConnected (List.mem_cons_of_mem _ List.mem_cons_self)
          List.mem_cons_self
        exact none first (Relation.TransGen.head' reads back.1)

end Cycles

/-- The cycles of a graph after any merges: one for every node that reads itself and one for
    every component of two or more nodes, in strict order. -/
theorem cycles_ofBatches (batches : List (List Edge)) :
    let graph := ofBatches batches
    (graph.cycles.map Cycle.nodes).Pairwise (· < ·) ∧
    (∀ node, ⟨[node]⟩ ∈ graph.cycles ↔ graph.Reads node node) ∧
    (∀ node other, node ≠ other → StronglyConnected graph.Reads node other →
      ∃! cycle, cycle ∈ graph.cycles ∧ graph.IsComponentCycle node cycle.nodes) ∧
    (∀ cycle ∈ graph.cycles, (∃ node, cycle.nodes = [node]) ∨
      ∃ member, graph.IsComponentCycle member cycle.nodes) ∧
    (graph.cycles = [] ↔ ∀ node, ¬ TransGen graph.Reads node node) := by
  intro graph
  have told : graph = stored batches.flatten.eraseDups := ofBatches_eq_stored batches
  rw [told]
  refine ⟨strictly_sorted_cycles _, fun _ => selfCycle_mem_cycles_iff, ?_, ?_, cycles_eq_nil_iff⟩
  · intro node other different connected
    exact existsUnique_componentCycle different connected
  · intro cycle given
    exact mem_cycles_cases given

end DatasetLineage.LineageGraph
