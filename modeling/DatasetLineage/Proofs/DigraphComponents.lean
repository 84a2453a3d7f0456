/-
Module: DatasetLineage.Proofs.DigraphComponents
Purpose: The search from every root in turn finds the strongly connected components. It stays inside
  its tables and ends with every vertex in a component. A component is a whole class of vertices
  that reach one another, no vertex is in two, and a component that another one reaches comes
  before that one.
Main exports: Searching.exists_searchFrom, Searching.exists_foldlM, AreComponents,
  areComponents_components, exists_components?
-/
import DatasetLineage.Proofs.DigraphDepthSearch
import Mathlib.Data.List.Perm.Subperm

namespace DatasetLineage.Digraph

open Relation (ReflTransGen)

namespace Searching

variable {adjacency : List (List Nat)} {search : DepthSearch}

theorem unvisited (adjacency : List (List Nat)) :
    Searching adjacency (.unvisited adjacency.length) :=
  ⟨.unvisited adjacency, .nil⟩

/-- The search from a root ends, and has visited it then. -/
theorem exists_searchFrom {root : Nat} (searching : Searching adjacency search)
    (noFrames : search.frames = []) (vertices : ∀ u v, Arc adjacency u v → v < adjacency.length)
    (inside : root < adjacency.length) :
    ∃ final, search.searchFrom adjacency root = some final ∧ Searching adjacency final ∧
      final.frames = [] ∧ Grows search.index final.index ∧
      ∃ number, Numbered final.index root number := by
  obtain ⟨entry, listed⟩ := searching.tables.exists_index inside
  simp only [DepthSearch.searchFrom, listed, Option.bind_eq_bind, Option.bind_some]
  cases entry with
  | some number =>
      exact ⟨search, rfl, searching, noFrames, Grows.refl _, number, listed⟩
  | none =>
      obtain ⟨next, found, searching', grows, number, numbered⟩ :=
        searching.exists_root noFrames inside listed
      obtain ⟨final, ended, searching'', noFrames', grows'⟩ := searching'.exists_run vertices
      refine ⟨final, ?_, searching'', noFrames', grows.trans grows', number,
        grows' root number numbered⟩
      rw [found, Option.bind_some, ended]

/-- The search from some roots in turn ends, and has visited all of them then. -/
theorem exists_foldlM (searching : Searching adjacency search) (noFrames : search.frames = [])
    (vertices : ∀ u v, Arc adjacency u v → v < adjacency.length) (roots : List Nat)
    (inside : ∀ root ∈ roots, root < adjacency.length) :
    ∃ final, roots.foldlM (DepthSearch.searchFrom adjacency) search = some final ∧
      Searching adjacency final ∧ final.frames = [] ∧ Grows search.index final.index ∧
      ∀ root ∈ roots, ∃ number, Numbered final.index root number := by
  induction roots generalizing search with
  | nil =>
      exact ⟨search, rfl, searching, noFrames, Grows.refl _,
        fun root listed => absurd listed List.not_mem_nil⟩
  | cons root roots ih =>
      rw [List.forall_mem_cons] at inside
      obtain ⟨next, searched, searching', noFrames', grows, number, numbered⟩ :=
        searching.exists_searchFrom noFrames vertices inside.1
      obtain ⟨final, ended, searching'', noFrames'', grows', visited⟩ :=
        ih searching' noFrames' inside.2
      refine ⟨final, ?_, searching'', noFrames'', grows.trans grows',
        List.forall_mem_cons.mpr ⟨⟨number, grows' root number numbered⟩, visited⟩⟩
      rw [List.foldlM_cons, searched, Option.bind_eq_bind, Option.bind_some, ended]

end Searching

/-- Whether the components of a digraph have been found.
    - `partition` tells that every vertex is in one component, once, and nothing else is.
    - `whole` tells that a component is all that its vertices are connected with.
    - `reachedFirst` tells that a component comes behind the other ones that it reaches. -/
structure AreComponents (adjacency : List (List Nat)) (found : List (List Nat)) : Prop where
  inhabited : ∀ component ∈ found, component ≠ []
  partition : found.flatten.Perm (List.range adjacency.length)
  whole : ∀ component ∈ found, ∀ u ∈ component, ∀ v,
    v ∈ component ↔ StronglyConnected (Arc adjacency) u v
  reachedFirst : ∀ (i j : Nat) (reaching reached : List Nat),
    found[i]? = some reaching → found[j]? = some reached → i ≠ j →
    (∃ u ∈ reaching, ∃ v ∈ reached, ReflTransGen (Arc adjacency) u v) → j < i

section Components

variable {adjacency found : List (List Nat)} {component : List Nat} {u v : Nat}

theorem arc_lt (vertices : ∀ successors ∈ adjacency, ∀ v ∈ successors, v < adjacency.length)
    (arc : Arc adjacency u v) : v < adjacency.length := by
  have listed : adjacency.getD u [] ∈ adjacency := by
    rw [List.getD_eq_getElem?_getD, List.getElem?_eq_getElem arc.lt, Option.getD_some]
    exact List.getElem_mem arc.lt
  exact vertices _ listed v arc

/-- What a search has closed are the components, once it has visited every vertex and left all
    frames. -/
theorem Searching.areComponents {search : DepthSearch} (searching : Searching adjacency search)
    (noFrames : search.frames = [])
    (all : ∀ v < adjacency.length, ∃ number, Numbered search.index v number) :
    AreComponents adjacency search.components.toList := by
  have nodup := searching.tables.nodup
  have visited := searching.tables.visited
  rw [searching.stack_eq_nil noFrames] at nodup visited
  refine ⟨searching.tables.closed.inhabited, ?_, searching.tables.closed.whole, ?_⟩
  · apply (List.perm_ext_iff_of_nodup nodup List.nodup_range).mpr
    intro v
    rw [List.mem_range]
    constructor
    · intro closed
      obtain ⟨number, numbered⟩ := (visited v).mpr (.inr closed)
      exact searching.tables.indexSize ▸ numbered.lt
    · intro inside
      exact ((visited v).mp (all v inside)).resolve_left List.not_mem_nil
  · intro i j reaching reached isReaching isReached different way
    by_contra notFirst
    have below : i < j := Nat.lt_of_le_of_ne (Nat.le_of_not_lt notFirst) different
    obtain ⟨insideI, rfl⟩ := List.getElem?_eq_some_iff.mp isReaching
    obtain ⟨insideJ, rfl⟩ := List.getElem?_eq_some_iff.mp isReached
    obtain ⟨u, memberU, v, memberV, way⟩ := way
    have ordered := List.pairwise_iff_getElem.mp searching.tables.closed.ordered
    exact ordered i j insideI insideJ below u memberU v memberV way

/-- The search from every vertex in turn finds the components. -/
theorem areComponents_components
    (vertices : ∀ u v, Arc adjacency u v → v < adjacency.length) :
    components? adjacency = some (components adjacency) ∧
      AreComponents adjacency (components adjacency) := by
  obtain ⟨final, ended, searching, noFrames, _, visited⟩ :=
    (Searching.unvisited adjacency).exists_foldlM rfl vertices (List.range adjacency.length)
      fun root => List.mem_range.mp
  have isFound : components? adjacency = some final.components.toList := by
    rw [components?, Option.bind_eq_bind, ended, Option.bind_some, Option.pure_def]
  rw [components, isFound, Option.getD_some]
  exact ⟨rfl, searching.areComponents noFrames fun v inside =>
    visited v (List.mem_range.mpr inside)⟩

namespace AreComponents

theorem nodup (areComponents : AreComponents adjacency found) (listed : component ∈ found) :
    component.Nodup := by
  have distinct := (areComponents.partition.nodup_iff).mpr List.nodup_range
  exact (List.nodup_flatten.mp distinct).1 component listed

/-- Every vertex is in a component. -/
theorem exists_component (areComponents : AreComponents adjacency found)
    (inside : u < adjacency.length) : ∃ component ∈ found, u ∈ component :=
  List.mem_flatten.mp (areComponents.partition.mem_iff.mpr (List.mem_range.mpr inside))

/-- No two components share a vertex. -/
theorem pairwise_disjoint (areComponents : AreComponents adjacency found) :
    found.Pairwise List.Disjoint := by
  have distinct := (areComponents.partition.nodup_iff).mpr List.nodup_range
  exact (List.nodup_flatten.mp distinct).2

end AreComponents

/-- Of a digraph whose successors are all vertices, the search finds the components, and no access
    leaves its tables. -/
theorem exists_components? (adjacency : List (List Nat))
    (vertices : ∀ successors ∈ adjacency, ∀ v ∈ successors, v < adjacency.length) :
    ∃ found, components? adjacency = some found ∧ AreComponents adjacency found := by
  have areComponents := areComponents_components fun u v => arc_lt vertices
  exact ⟨components adjacency, areComponents⟩

/-- Two rings with an arc between them, and a vertex that reaches both. Arcs are repeated, and
    vertices have arcs to themselves. -/
theorem exists_components?_two_rings :
    (∀ successors ∈ [[1, 1], [2, 1], [0, 3], [4], [3, 3], [5, 0]], ∀ v ∈ successors, v < 6) ∧
      ∃ found, components? [[1, 1], [2, 1], [0, 3], [4], [3, 3], [5, 0]] = some found ∧
        AreComponents [[1, 1], [2, 1], [0, 3], [4], [3, 3], [5, 0]] found :=
  ⟨by decide, exists_components? _ (by decide)⟩

end Components

end DatasetLineage.Digraph
