/-
Module: DatasetLineage.Proofs.GraphRepresentation
Purpose: A lineage graph is a function of the edges that it was given. Its four collections are
  told from the list of stored edges alone: nodes and neighbours are the endpoints of those edges,
  each at its first appearance. One more edge keeps this form, so every sequence of merges does,
  and edges that are stored already change nothing.
Main exports: Edge.endpoints, Edge.arc?, Adjacency.grouped, LineageGraph.Reads,
  LineageGraph.ofBatches, LineageGraph.stored, LineageGraph.merge_stored,
  LineageGraph.representation_ofBatches
-/
import DatasetLineage.Lineage.Graph

namespace DatasetLineage

namespace Edge

/-- The nodes of an edge, its target first. An orphan edge has its source only. -/
def endpoints (edge : Edge) : List Node := edge.targetNode?.toList ++ [edge.source]

/-- The target and the source of an edge that has a target. -/
def arc? (edge : Edge) : Option (Node × Node) :=
  edge.targetNode?.map fun target => (target, edge.source)

theorem mem_endpoints {edge : Edge} {node : Node} :
    node ∈ edge.endpoints ↔ edge.targetNode? = some node ∨ edge.source = node := by
  cases found : edge.targetNode? with
  | none =>
      simp [endpoints, found, eq_comm]
  | some target =>
      simp [endpoints, found, eq_comm]

theorem arc?_eq_some_iff {edge : Edge} {target source : Node} :
    edge.arc? = some (target, source) ↔
      edge.targetNode? = some target ∧ edge.source = source := by
  cases found : edge.targetNode? with
  | none =>
      simp [arc?, found]
  | some target' =>
      simp [arc?, found]

theorem touches_iff {edge : Edge} {node : Node} :
    edge.touches node = true ↔ node ∈ edge.endpoints := by
  rw [mem_endpoints]
  simp [touches]

end Edge

/-! ### Adjacency -/

namespace Adjacency

/-- The nodes that arcs from `tail` lead to, in order of first appearance. -/
def heads (arcs : List (Node × Node)) (tail : Node) : List Node :=
  ((arcs.filter (·.1 = tail)).map Prod.snd).eraseDups

/-- The neighbours that arcs describe: the tails in order of first appearance, each with its
    heads. -/
def grouped (arcs : List (Node × Node)) : Adjacency :=
  (arcs.map Prod.fst).eraseDups.map fun tail => (tail, heads arcs tail)

theorem mem_heads {arcs : List (Node × Node)} {tail head : Node} :
    head ∈ heads arcs tail ↔ (tail, head) ∈ arcs := by
  simp [heads]

theorem heads_eq_nil {arcs : List (Node × Node)} {tail : Node}
    (absent : tail ∉ arcs.map Prod.fst) : heads arcs tail = [] := by
  rw [List.eq_nil_iff_forall_not_mem]
  intro head found
  exact absent (List.mem_map.mpr ⟨(tail, head), mem_heads.mp found, rfl⟩)

/-- A further arc adds its head to the heads of its own tail only. -/
theorem heads_append (arcs : List (Node × Node)) (a b tail : Node) :
    heads (arcs ++ [(a, b)]) tail =
      if tail = a then appendNew (heads arcs tail) b else heads arcs tail := by
  by_cases same : tail = a
  · subst same
    simp [heads, appendNew_eraseDups]
  · have other : ¬ a = tail := fun h => same h.symm
    simp [heads, same, other]

/-- Looking up a node in neighbours that are listed by a function of the node. -/
theorem of_map (keys : List Node) (f : Node → List Node) (node : Node) :
    of (keys.map fun key => (key, f key)) node = if node ∈ keys then f node else [] := by
  induction keys with
  | nil =>
      simp [of]
  | cons key rest ih =>
      by_cases here : key = node
      · simp [of, here]
      · have elsewhere : ¬ node = key := fun h => here h.symm
        simp [of, here, elsewhere, ih]

/-- Linking a node that is listed changes its own entry. -/
theorem link_map_of_mem {keys : List Node} (nodup : keys.Nodup) {f : Node → List Node}
    {a : Node} (b : Node) (listed : a ∈ keys) :
    link (keys.map fun key => (key, f key)) a b =
      keys.map fun key => (key, if key = a then appendNew (f key) b else f key) := by
  induction keys with
  | nil =>
      simp at listed
  | cons key rest ih =>
      rw [List.nodup_cons] at nodup
      by_cases here : key = a
      · subst here
        have others : ∀ k ∈ rest, ¬ k = key := fun k hk same => nodup.1 (same ▸ hk)
        simp [link]
        intro k hk same
        exact absurd same (others k hk)
      · have later : a ∈ rest := (List.mem_cons.mp listed).resolve_left (Ne.symm here)
        simp [link, here, ih nodup.2 later]

/-- Linking a node that is not listed adds an entry behind the others. -/
theorem link_map_of_not_mem {keys : List Node} {f : Node → List Node} {a : Node} (b : Node)
    (absent : a ∉ keys) :
    link (keys.map fun key => (key, f key)) a b =
      (keys.map fun key => (key, f key)) ++ [(a, [b])] := by
  induction keys with
  | nil =>
      simp [link]
  | cons key rest ih =>
      rw [List.mem_cons, not_or] at absent
      simp [link, Ne.symm absent.1, ih absent.2]

/-- The neighbours of a node are the heads of the arcs that leave it. -/
theorem of_grouped (arcs : List (Node × Node)) (node : Node) :
    (grouped arcs).of node = heads arcs node := by
  rw [grouped, of_map]
  by_cases listed : node ∈ arcs.map Prod.fst
  · simp [List.mem_eraseDups, listed]
  · simp [List.mem_eraseDups, listed, heads_eq_nil]

theorem keys_grouped (arcs : List (Node × Node)) :
    (grouped arcs).map Prod.fst = (arcs.map Prod.fst).eraseDups := by
  simp [grouped, Function.comp_def]

/-- One more link describes one more arc. -/
theorem link_grouped (arcs : List (Node × Node)) (a b : Node) :
    (grouped arcs).link a b = grouped (arcs ++ [(a, b)]) := by
  have keys : ((arcs ++ [(a, b)]).map Prod.fst).eraseDups =
      appendNew (arcs.map Prod.fst).eraseDups a := by
    simp [appendNew_eraseDups]
  simp only [grouped, keys, heads_append]
  by_cases listed : a ∈ arcs.map Prod.fst
  · have present : a ∈ (arcs.map Prod.fst).eraseDups := List.mem_eraseDups.mpr listed
    rw [appendNew_of_mem present, link_map_of_mem (nodup_eraseDups _) b present]
  · have absent : a ∉ (arcs.map Prod.fst).eraseDups := fun h => listed (List.mem_eraseDups.mp h)
    rw [appendNew_of_not_mem absent, link_map_of_not_mem b absent, List.map_append]
    congr 1
    · apply List.map_congr_left
      intro key present
      have other : ¬ key = a := fun same => absent (same ▸ present)
      rw [if_neg other]
    · simp [heads_eq_nil listed, appendNew]

end Adjacency

/-! ### Graphs of batches -/

namespace LineageGraph

/-- Whether some edge of the graph derives `target` from `source`. -/
def Reads (graph : LineageGraph) (target source : Node) : Prop :=
  ∃ edge ∈ graph.edges, edge.targetNode? = some target ∧ edge.source = source

/-- The graph that a sequence of merges makes out of the empty one. -/
def ofBatches (batches : List (List Edge)) : LineageGraph := batches.foldl merge {}

/-- The graph of a list of different edges, told from the list alone. -/
def stored (edges : List Edge) : LineageGraph :=
  { nodes := (edges.flatMap Edge.endpoints).eraseDups
    edges := edges
    upstream := .grouped (edges.filterMap Edge.arc?)
    downstream := .grouped ((edges.filterMap Edge.arc?).map Prod.swap) }

@[simp] theorem edges_stored (edges : List Edge) : (stored edges).edges = edges := rfl

theorem reads_iff_mem_arcs {graph : LineageGraph} {target source : Node} :
    graph.Reads target source ↔ (target, source) ∈ graph.edges.filterMap Edge.arc? := by
  simp [Reads, Edge.arc?_eq_some_iff]

/-- Adding an edge adds it to the list that tells the graph. -/
theorem add_stored (edges : List Edge) (edge : Edge) :
    (stored edges).add edge = stored (appendNew edges edge) := by
  rw [add, edges_stored]
  by_cases present : edge ∈ edges
  · rw [if_pos present, appendNew_of_mem present]
  · rw [if_neg present, appendNew_of_not_mem present]
    -- an orphan edge adds its source and no arc
    cases found : edge.targetNode? with
    | none =>
        simp [stored, Edge.endpoints, Edge.arc?, found, appendNew_eraseDups]
    | some target =>
        simp [stored, Edge.endpoints, Edge.arc?, found, appendNew_eraseDups,
          Adjacency.link_grouped]

theorem merge_stored (edges batch : List Edge) :
    (stored edges).merge batch = stored (appendAllNew edges batch) := by
  unfold merge appendAllNew
  induction batch generalizing edges with
  | nil =>
      rfl
  | cons edge rest ih =>
      rw [List.foldl_cons, List.foldl_cons, add_stored, ih]

/-- The graph of a sequence of merges is told from the edges given, later duplicates left out. -/
theorem ofBatches_eq_stored (batches : List (List Edge)) :
    ofBatches batches = stored batches.flatten.eraseDups := by
  have run : ∀ given : List Edge,
      batches.foldl merge (stored given.eraseDups) =
        stored (given ++ batches.flatten).eraseDups := by
    induction batches with
    | nil =>
        simp
    | cons batch rest ih =>
        intro given
        rw [List.foldl_cons, merge_stored, appendAllNew_eraseDups, ih, List.flatten_cons,
          List.append_assoc]
  exact run []

theorem nodup_nodes_stored (edges : List Edge) : (stored edges).nodes.Nodup :=
  nodup_eraseDups _

theorem mem_nodes_stored {edges : List Edge} {node : Node} :
    node ∈ (stored edges).nodes ↔ ∃ edge ∈ edges, node ∈ edge.endpoints := by
  simp [stored]

theorem mem_upstream_stored {edges : List Edge} {target source : Node} :
    source ∈ (stored edges).upstream.of target ↔ (stored edges).Reads target source := by
  rw [stored, Adjacency.of_grouped, Adjacency.mem_heads, reads_iff_mem_arcs]

theorem mem_downstream_stored {edges : List Edge} {target source : Node} :
    target ∈ (stored edges).downstream.of source ↔ (stored edges).Reads target source := by
  rw [stored, Adjacency.of_grouped, Adjacency.mem_heads, reads_iff_mem_arcs]
  constructor
  · intro swapped
    obtain ⟨⟨t, s⟩, listed, same⟩ := List.mem_map.mp swapped
    cases same
    exact listed
  · intro listed
    exact List.mem_map.mpr ⟨(target, source), listed, rfl⟩

/-- Both ends of a dependency are nodes of the graph. -/
theorem Reads.mem_nodes {edges : List Edge} {target source : Node}
    (reads : (stored edges).Reads target source) :
    target ∈ (stored edges).nodes ∧ source ∈ (stored edges).nodes := by
  obtain ⟨edge, given, targetNode, sourceNode⟩ := reads
  constructor
  · exact mem_nodes_stored.mpr ⟨edge, given, Edge.mem_endpoints.mpr (.inl targetNode)⟩
  · exact mem_nodes_stored.mpr ⟨edge, given, Edge.mem_endpoints.mpr (.inr sourceNode)⟩

/-- The sources that the edges to a target name, in the order of the edges. -/
theorem upstream_stored (edges : List Edge) (target : Node) :
    (stored edges).upstream.of target =
      ((edges.filter (·.targetNode? = some target)).map Edge.source).eraseDups := by
  rw [stored, Adjacency.of_grouped, Adjacency.heads]
  congr 1
  induction edges with
  | nil =>
      rfl
  | cons edge rest ih =>
      cases found : edge.targetNode? with
      | none =>
          simp [Edge.arc?, found, ih]
      | some other =>
          by_cases same : other = target <;> simp [Edge.arc?, found, same, ih]

/-- The targets that the edges from a source name, in the order of the edges. -/
theorem downstream_stored (edges : List Edge) (source : Node) :
    (stored edges).downstream.of source =
      ((edges.filter (·.source = source)).filterMap Edge.targetNode?).eraseDups := by
  rw [stored, Adjacency.of_grouped, Adjacency.heads]
  congr 1
  induction edges with
  | nil =>
      rfl
  | cons edge rest ih =>
      cases found : edge.targetNode? with
      | none =>
          by_cases same : edge.source = source <;> simp [Edge.arc?, found, same, ih]
      | some target =>
          by_cases same : edge.source = source <;> simp [Edge.arc?, found, same, ih]

theorem keys_upstream_stored (edges : List Edge) :
    (stored edges).upstream.map Prod.fst = (edges.filterMap Edge.targetNode?).eraseDups := by
  rw [stored, Adjacency.keys_grouped, List.map_filterMap]
  simp [Edge.arc?, Function.comp_def]

theorem keys_downstream_stored (edges : List Edge) :
    (stored edges).downstream.map Prod.fst =
      ((edges.filter (!·.isOrphan)).map Edge.source).eraseDups := by
  rw [stored, Adjacency.keys_grouped]
  congr 1
  induction edges with
  | nil =>
      rfl
  | cons edge rest ih =>
      cases found : edge.target <;>
        simp_all [Edge.arc?, Edge.targetNode?, Edge.isOrphan]

/-- Merging edges that are stored already changes nothing. -/
theorem merge_stored_of_subset {edges batch : List Edge} (present : batch ⊆ edges.eraseDups) :
    (stored edges.eraseDups).merge batch = stored edges.eraseDups := by
  have known : batch ⊆ edges := fun edge h => List.mem_eraseDups.mp (present h)
  rw [merge_stored, appendAllNew_eraseDups, eraseDups_append_of_subset known]

theorem contains_stored_iff {edges : List Edge} {node : Node} :
    (stored edges).contains node = true ↔ (stored edges).edgesFor node ≠ [] := by
  rw [contains, List.contains_iff_mem, mem_nodes_stored, edgesFor, Ne, List.filter_eq_nil_iff]
  simp [Edge.touches_iff]

/-- What a graph holds after any merges, told from the edges given. Edges that are stored already
    change nothing. -/
theorem representation_ofBatches (batches : List (List Edge)) :
    let graph := ofBatches batches
    graph.edges = batches.flatten.eraseDups ∧
    graph.nodes.Nodup ∧
    graph.nodes = (graph.edges.flatMap Edge.endpoints).eraseDups ∧
    (∀ target source, source ∈ graph.upstream.of target ↔ graph.Reads target source) ∧
    (∀ target source, target ∈ graph.downstream.of source ↔ graph.Reads target source) ∧
    (∀ target, graph.upstream.of target =
      ((graph.edges.filter (·.targetNode? = some target)).map Edge.source).eraseDups) ∧
    (∀ source, graph.downstream.of source =
      ((graph.edges.filter (·.source = source)).filterMap Edge.targetNode?).eraseDups) ∧
    graph.upstream.map Prod.fst = (graph.edges.filterMap Edge.targetNode?).eraseDups ∧
    graph.downstream.map Prod.fst =
      ((graph.edges.filter (!·.isOrphan)).map Edge.source).eraseDups ∧
    (∀ node, graph.contains node = true ↔ graph.edgesFor node ≠ []) ∧
    (∀ batch, batch ⊆ graph.edges → graph.merge batch = graph) := by
  intro graph
  have told : graph = stored batches.flatten.eraseDups := ofBatches_eq_stored batches
  rw [told]
  refine ⟨rfl, nodup_nodes_stored _, rfl, fun _ _ => mem_upstream_stored,
    fun _ _ => mem_downstream_stored, upstream_stored _, downstream_stored _,
    keys_upstream_stored _, keys_downstream_stored _, fun _ => contains_stored_iff, ?_⟩
  intro batch present
  exact merge_stored_of_subset present

end LineageGraph

end DatasetLineage
