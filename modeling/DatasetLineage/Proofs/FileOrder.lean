/-
Module: DatasetLineage.Proofs.FileOrder
Purpose: The order of files makes no difference to what is found, only to the order in which it is
  given. Nodes, walks and components are told from which edges there are. Of several shortest
  cycles of a component the order of edges selects one, so a cycle is determined up to its outline:
  its first node and its length. The outlines of the cycles of a graph stand in strict order, which
  is why they agree position by position.
Main exports: Cycle.outline, LineageGraph.IsComponentCycle.outline_unique,
  LineageGraph.outlines_eq, Extraction.SameLineage, Extraction.ofFiles_eq,
  Extraction.sameLineage_of_perm
-/
import DatasetLineage.Lineage.Extraction
import DatasetLineage.Proofs.GraphCycles
import DatasetLineage.Proofs.GraphTraversal
import Mathlib.Data.List.Sort

namespace DatasetLineage

open DatasetLineage.Digraph (StronglyConnected)

/-- What of a cycle does not hang on the choice between cycles of one length: where it begins and
    how many nodes it has. -/
def Cycle.outline (cycle : Cycle) : Option Node × Nat := (cycle.nodes.head?, cycle.nodes.length)

/-- The order of outlines: by the first node, then by the number of nodes. -/
def OutlineBefore (a b : Option Node × Nat) : Prop :=
  ∃ first ∈ a.1, ∃ first' ∈ b.1, first < first' ∨ first = first' ∧ a.2 < b.2

instance : Std.Irrefl OutlineBefore where
  irrefl a := by
    rintro ⟨first, isFirst, first', isFirst', below | ⟨_, shorter⟩⟩
    · have same : first = first' := Option.some_inj.mp (isFirst.symm.trans isFirst')
      exact Node.lt_irrefl first' (same ▸ below)
    · exact Nat.lt_irrefl _ shorter

instance : Std.Antisymm OutlineBefore where
  antisymm a b := by
    rintro ⟨first, isFirst, second, isSecond, ordered⟩ ⟨second', isSecond', first', isFirst', back⟩
    have same : first = first' := Option.some_inj.mp (isFirst.symm.trans isFirst')
    have same' : second = second' := Option.some_inj.mp (isSecond.symm.trans isSecond')
    subst same same'
    rcases ordered with below | ⟨rfl, shorter⟩
    · rcases back with above | ⟨rfl, _⟩
      · exact absurd above (Node.lt_asymm below)
      · exact absurd below (Node.lt_irrefl _)
    · rcases back with above | ⟨_, longer⟩
      · exact absurd above (Node.lt_irrefl _)
      · exact absurd longer (Nat.lt_asymm shorter)

namespace LineageGraph

/-! ### Outlines of cycles -/

section Outlines

variable {graph graph' : LineageGraph} {edges edges' : List Edge} {a b : Node}
  {nodes nodes' : List Node} {cycle cycle' : Cycle}

/-- The cycle of a component is told from what reads what. -/
theorem IsComponentCycle.congr (isCycle : graph.IsComponentCycle a nodes)
    (same : graph.Reads = graph'.Reads) : graph'.IsComponentCycle a nodes where
  several := isCycle.several
  circuit := same ▸ isCycle.circuit
  inside := same ▸ isCycle.inside
  smallest := same ▸ isCycle.smallest
  shortest := same ▸ isCycle.shortest

/-- The cycle of a component is that of each of its nodes. -/
theorem IsComponentCycle.of_connected (isCycle : graph.IsComponentCycle a nodes)
    (connected : StronglyConnected graph.Reads a b) : graph.IsComponentCycle b nodes where
  several := isCycle.several
  circuit := isCycle.circuit
  inside node member := connected.symm.trans (isCycle.inside node member)
  smallest first isFirst node related :=
    isCycle.smallest first isFirst node (connected.trans related)
  shortest := isCycle.shortest

theorem IsComponentCycle.exists_head (isCycle : graph.IsComponentCycle a nodes) :
    ∃ first second rest, nodes = first :: second :: rest := by
  match nodes, isCycle.several with
  | first :: second :: rest, _ =>
      exact ⟨first, second, rest, rfl⟩

/-- Two cycles of one component have one outline. -/
theorem IsComponentCycle.outline_unique (isCycle : graph.IsComponentCycle a nodes)
    (isCycle' : graph.IsComponentCycle a nodes') :
    nodes.head? = nodes'.head? ∧ nodes.length = nodes'.length := by
  obtain ⟨first, second, rest, rfl⟩ := isCycle.exists_head
  obtain ⟨first', second', rest', rfl⟩ := isCycle'.exists_head
  have same : first = first' := by
    have connected := isCycle.inside first List.mem_cons_self
    have connected' := isCycle'.inside first' List.mem_cons_self
    rcases isCycle.smallest first rfl first' connected' with same | below
    · exact same.symm
    · rcases isCycle'.smallest first' rfl first connected with same | above
      · exact same
      · exact absurd above (Node.lt_asymm below)
  subst same
  refine ⟨rfl, Nat.le_antisymm ?_ ?_⟩
  · exact isCycle.shortest first rfl _ isCycle'.circuit isCycle'.several List.mem_cons_self
  · exact isCycle'.shortest first rfl _ isCycle.circuit isCycle.several List.mem_cons_self

/-- The first two nodes of the cycle of a component are different and connected. -/
theorem IsComponentCycle.exists_other (isCycle : graph.IsComponentCycle a nodes) :
    ∃ b, a ≠ b ∧ StronglyConnected graph.Reads a b := by
  obtain ⟨first, second, rest, rfl⟩ := isCycle.exists_head
  by_cases same : a = first
  · subst same
    have different := (List.nodup_cons.mp isCycle.circuit.nodup).1
    refine ⟨second, fun same => different ?_, isCycle.inside second (by simp)⟩
    exact same ▸ List.mem_cons_self
  · exact ⟨first, same, isCycle.inside first List.mem_cons_self⟩

/-- A graph lists one cycle for a component. -/
theorem componentCycle_unique (listed : cycle ∈ (stored edges).cycles)
    (listed' : cycle' ∈ (stored edges).cycles)
    (isCycle : (stored edges).IsComponentCycle a cycle.nodes)
    (isCycle' : (stored edges).IsComponentCycle a cycle'.nodes) : cycle = cycle' := by
  obtain ⟨b, different, connected⟩ := isCycle.exists_other
  exact (existsUnique_componentCycle different connected).unique ⟨listed, isCycle⟩
    ⟨listed', isCycle'⟩

/-- A listed cycle of several nodes is that of the component of its first node. -/
theorem isComponentCycle_of_cons_cons (listed : cycle ∈ (stored edges).cycles)
    (several : cycle.nodes = a :: b :: nodes) :
    (stored edges).IsComponentCycle a cycle.nodes := by
  rcases mem_cycles_cases listed with ⟨node, loop⟩ | ⟨member, isCycle⟩
  · rw [several] at loop
    exact absurd loop (by simp)
  · exact isCycle.of_connected (isCycle.inside a (by simp [several]))

theorem exists_cons_of_mem_cycles (listed : cycle ∈ (stored edges).cycles) :
    ∃ first rest, cycle.nodes = first :: rest := by
  rcases mem_cycles_cases listed with ⟨node, loop⟩ | ⟨member, isCycle⟩
  · exact ⟨node, [], loop⟩
  · obtain ⟨first, second, rest, circuit⟩ := isCycle.exists_head
    exact ⟨first, second :: rest, circuit⟩

/-- Of two listed cycles that begin with one node, the one in front is a loop. -/
theorem length_lt_of_same_first (listed : cycle ∈ (stored edges).cycles)
    (listed' : cycle' ∈ (stored edges).cycles) (given : cycle.nodes = a :: nodes)
    (given' : cycle'.nodes = a :: nodes') (below : nodes < nodes') :
    nodes.length < nodes'.length := by
  cases nodes with
  | nil =>
      cases nodes' with
      | nil =>
          exact absurd below (List.lt_irrefl [])
      | cons second' rest' =>
          exact Nat.succ_pos _
  | cons second rest =>
      cases nodes' with
      | nil =>
          exact absurd below (List.not_lt_nil _)
      | cons second' rest' =>
          -- both are the cycle of the component of `a`, which is listed once
          have same := componentCycle_unique listed listed'
            (isComponentCycle_of_cons_cons listed given)
            (isComponentCycle_of_cons_cons listed' given')
          rw [same, given', List.cons.injEq] at given
          rw [given.2] at below
          exact absurd below (List.lt_irrefl _)

/-- Of two listed cycles the one in front has the smaller outline. -/
theorem outlineBefore_of_lt (listed : cycle ∈ (stored edges).cycles)
    (listed' : cycle' ∈ (stored edges).cycles) (below : cycle.nodes < cycle'.nodes) :
    OutlineBefore cycle.outline cycle'.outline := by
  obtain ⟨first, rest, given⟩ := exists_cons_of_mem_cycles listed
  obtain ⟨first', rest', given'⟩ := exists_cons_of_mem_cycles listed'
  rw [given, given', List.cons_lt_cons_iff] at below
  refine ⟨first, by simp [Cycle.outline, given], first', by simp [Cycle.outline, given'], ?_⟩
  rcases below with ordered | ⟨rfl, ordered⟩
  · exact .inl ordered
  · have shorter := length_lt_of_same_first listed listed' given given' ordered
    exact .inr ⟨rfl, by simpa [Cycle.outline, given, given'] using shorter⟩

theorem pairwise_outlines (edges : List Edge) :
    ((stored edges).cycles.map Cycle.outline).Pairwise OutlineBefore := by
  have sorted := strictly_sorted_cycles edges
  rw [List.pairwise_map] at sorted ⊢
  exact sorted.imp_of_mem outlineBefore_of_lt

/-- A cycle of a graph has its outline in every graph that reads the same. -/
theorem outline_mem_of_reads_eq (same : (stored edges).Reads = (stored edges').Reads)
    (listed : cycle ∈ (stored edges).cycles) :
    cycle.outline ∈ (stored edges').cycles.map Cycle.outline := by
  rcases mem_cycles_cases listed with ⟨node, loop⟩ | ⟨member, isCycle⟩
  · have isLoop : cycle = ⟨[node]⟩ := congrArg Cycle.mk loop
    subst isLoop
    have reads := selfCycle_mem_cycles_iff.mp listed
    rw [same] at reads
    exact List.mem_map_of_mem (selfCycle_mem_cycles_iff.mpr reads)
  · have isCycle' := isCycle.congr same
    obtain ⟨other, different, connected⟩ := isCycle'.exists_other
    obtain ⟨cycle', ⟨listed', found⟩, _⟩ := existsUnique_componentCycle different connected
    obtain ⟨sameHead, sameLength⟩ := found.outline_unique isCycle'
    exact List.mem_map.mpr ⟨cycle', listed', Prod.ext sameHead sameLength⟩

/-- Graphs that read the same have cycles of the same outlines, in the same order. -/
theorem outlines_eq (same : (stored edges).Reads = (stored edges').Reads) :
    (stored edges).cycles.map Cycle.outline = (stored edges').cycles.map Cycle.outline := by
  apply (pairwise_outlines edges).eq_of_mem_iff (pairwise_outlines edges')
  intro outline
  constructor
  · intro member
    obtain ⟨cycle, listed, rfl⟩ := List.mem_map.mp member
    exact outline_mem_of_reads_eq same listed
  · intro member
    obtain ⟨cycle, listed, rfl⟩ := List.mem_map.mp member
    exact outline_mem_of_reads_eq same.symm listed

end Outlines

/-! ### Graphs of the same edges -/

section SameEdges

variable {edges edges' : List Edge}

theorem reads_stored_congr (same : ∀ edge, edge ∈ edges ↔ edge ∈ edges') :
    (stored edges).Reads = (stored edges').Reads := by
  funext target source
  simp only [Reads, edges_stored, same]

theorem nodes_stored_perm (same : ∀ edge, edge ∈ edges ↔ edge ∈ edges') :
    (stored edges).nodes.Perm (stored edges').nodes := by
  rw [List.perm_ext_iff_of_nodup (nodup_nodes_stored edges) (nodup_nodes_stored edges')]
  intro node
  simp only [mem_nodes_stored, same]

/-- What a graph reaches within some hops is told from what reads what. -/
theorem reach_stored_perm (same : ∀ edge, edge ∈ edges ↔ edge ∈ edges') (direction : Direction)
    (start : Node) (hops : Nat) :
    ((stored edges).reach direction start hops).Perm
      ((stored edges').reach direction start hops) := by
  have one := isTraversal_levels (stored edges) direction start
  have other := isTraversal_levels (stored edges') direction start
  have reads := reads_stored_congr same
  have follows : (stored edges).Follows direction = (stored edges').Follows direction := by
    funext a b
    cases direction with
    | upstream =>
        exact congrFun₂ reads a b
    | downstream =>
        exact congrFun₂ reads b a
  rw [reach_stored, reach_stored, List.perm_ext_iff_of_nodup (one.nodup hops) (other.nodup hops)]
  intro node
  rw [one.within, other.within, follows]

end SameEdges

end LineageGraph

namespace Extraction

/-- Whether two extractions differ only in the order of what they hold. Cycles are listed in an
    order of their own; they agree one by one on where they begin and how long they are. -/
structure SameLineage (one other : Extraction) : Prop where
  edges : one.edges.Perm other.edges
  warnings : one.warnings.Perm other.warnings
  nodes : one.graph.nodes.Perm other.graph.nodes
  ancestors : ∀ node hops,
    (one.graph.ancestors node hops).Perm (other.graph.ancestors node hops)
  descendants : ∀ node hops,
    (one.graph.descendants node hops).Perm (other.graph.descendants node hops)
  cycles : List.Forall₂ (fun a b => a.nodes.head? = b.nodes.head? ∧
    a.nodes.length = b.nodes.length) one.graph.cycles other.graph.cycles

/-- The edges of some files, in the order of the files. -/
def edgesOfFiles (files : List SourceFile) : List Edge :=
  files.flatMap fun file => (FileLineage.ofFile file).edges

/-- The warnings of some files, in the order of the files. -/
def warningsOfFiles (files : List SourceFile) : List Warning :=
  files.flatMap fun file => (FileLineage.ofFile file).warnings

/-- The graph and the warnings of some files are told from their edges and warnings, each at its
    first appearance. -/
theorem ofLineages_eq (lineages : List FileLineage) :
    ofLineages lineages =
      ⟨.stored (lineages.flatMap FileLineage.edges).eraseDups,
        (lineages.flatMap FileLineage.warnings).eraseDups⟩ := by
  have run : ∀ (edges : List Edge) (warnings : List Warning),
      lineages.foldl add ⟨.stored edges.eraseDups, warnings.eraseDups⟩ =
        ⟨.stored (edges ++ lineages.flatMap FileLineage.edges).eraseDups,
          (warnings ++ lineages.flatMap FileLineage.warnings).eraseDups⟩ := by
    induction lineages with
    | nil =>
        intro edges warnings
        simp
    | cons lineage rest ih =>
        intro edges warnings
        rw [List.foldl_cons, add, LineageGraph.merge_stored, appendAllNew_eraseDups,
          appendAllNew_eraseDups, ih]
        simp
  exact run [] []

theorem ofFiles_eq (files : List SourceFile) :
    ofFiles files =
      ⟨.stored (edgesOfFiles files).eraseDups, (warningsOfFiles files).eraseDups⟩ := by
  rw [ofFiles, ofLineages_eq, List.flatMap_map, List.flatMap_map]
  rfl

/-- The lineage of some files does not depend on their order. -/
theorem sameLineage_of_perm {files files' : List SourceFile} (perm : files.Perm files') :
    SameLineage (ofFiles files) (ofFiles files') := by
  have sameEdges : ∀ edge, edge ∈ (edgesOfFiles files).eraseDups ↔
      edge ∈ (edgesOfFiles files').eraseDups := by
    intro edge
    rw [List.mem_eraseDups, List.mem_eraseDups]
    exact (perm.flatMap_right _).mem_iff
  have sameWarnings : ∀ warning, warning ∈ (warningsOfFiles files).eraseDups ↔
      warning ∈ (warningsOfFiles files').eraseDups := by
    intro warning
    rw [List.mem_eraseDups, List.mem_eraseDups]
    exact (perm.flatMap_right _).mem_iff
  have outlines := LineageGraph.outlines_eq (LineageGraph.reads_stored_congr sameEdges)
  rw [ofFiles_eq, ofFiles_eq]
  refine ⟨?_, ?_, LineageGraph.nodes_stored_perm sameEdges,
    LineageGraph.reach_stored_perm sameEdges .upstream,
    LineageGraph.reach_stored_perm sameEdges .downstream, ?_⟩
  · exact (List.perm_ext_iff_of_nodup (nodup_eraseDups _) (nodup_eraseDups _)).mpr sameEdges
  · exact (List.perm_ext_iff_of_nodup (nodup_eraseDups _) (nodup_eraseDups _)).mpr sameWarnings
  · rw [← List.forall₂_eq_eq_eq, List.forall₂_map_left_iff, List.forall₂_map_right_iff] at outlines
    exact outlines.imp fun _ _ same => Prod.mk.injEq .. ▸ same

/-- Two programs of which each closes a cycle with the dataset that the other one names first. The
    shortest cycles are of one length, and the order of the programs selects one of them. -/
theorem sameLineage_of_two_ways :
    let one : SourceFile := ⟨"one.sas", "data a; set b; data b; set c; data c; set a;"⟩
    let other : SourceFile := ⟨"other.sas", "data a; set d; data d; set c; set x;"⟩
    [one, other].Perm [other, one] ∧ SameLineage (ofFiles [one, other]) (ofFiles [other, one]) :=
  ⟨.swap _ _ _, sameLineage_of_perm (.swap _ _ _)⟩

/-- There the order tells which of the two ways is listed. -/
example :
    let one : SourceFile := ⟨"one.sas", "data a; set b; data b; set c; data c; set a;"⟩
    let other : SourceFile := ⟨"other.sas", "data a; set d; data d; set c; set x;"⟩
    (ofFiles [one, other]).graph.cycles.map Cycle.names = [["a", "b", "c"]] ∧
      (ofFiles [other, one]).graph.cycles.map Cycle.names = [["a", "d", "c"]] := by
  intro one other
  let ofOne : List Edge :=
    [⟨"a", .dataset "b", "one.sas"⟩, ⟨"b", .dataset "c", "one.sas"⟩, ⟨"c", .dataset "a", "one.sas"⟩]
  let ofOther : List Edge :=
    [⟨"a", .dataset "d", "other.sas"⟩, ⟨"d", .dataset "c", "other.sas"⟩,
      ⟨"d", .dataset "x", "other.sas"⟩]
  have oneFirst : (ofFiles [one, other]).graph = .ofEdges (ofOne ++ ofOther) := by decide +kernel
  have otherFirst : (ofFiles [other, one]).graph = .ofEdges (ofOther ++ ofOne) := by decide +kernel
  rw [oneFirst, otherFirst]
  constructor
  · cbv
  · cbv

end Extraction

end DatasetLineage
