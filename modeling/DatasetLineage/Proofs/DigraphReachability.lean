/-
Module: DatasetLineage.Proofs.DigraphReachability
Purpose: Which vertices reach one another, along a relation and along the arcs of a digraph that is
  given by successor lists. What cannot be left contains whatever is reached from inside of it.
Main exports: StronglyConnected, exists_last_link, mem_of_reaches, Arc, arc_iff_mem
-/
import Mathlib.Logic.Relation

namespace DatasetLineage.Digraph

open Relation (ReflTransGen)

/-- Whether two vertices reach each other along a relation. -/
def StronglyConnected {α : Type} (r : α → α → Prop) (a b : α) : Prop :=
  ReflTransGen r a b ∧ ReflTransGen r b a

namespace StronglyConnected

variable {α : Type} {r : α → α → Prop} {a b c : α}

theorem refl (a : α) : StronglyConnected r a a := ⟨.refl, .refl⟩

theorem symm (h : StronglyConnected r a b) : StronglyConnected r b a := ⟨h.2, h.1⟩

theorem trans (hab : StronglyConnected r a b) (hbc : StronglyConnected r b c) :
    StronglyConnected r a c :=
  ⟨hab.1.trans hbc.1, hbc.2.trans hab.2⟩

end StronglyConnected

/-- A way to another vertex ends with a link from another vertex. -/
theorem exists_last_link {α : Type} {r : α → α → Prop} {a b : α} (way : ReflTransGen r a b)
    (different : a ≠ b) : ∃ u, ReflTransGen r a u ∧ r u b ∧ u ≠ b := by
  induction way with
  | refl =>
      exact absurd rfl different
  | @tail u b way link ih =>
      by_cases loop : u = b
      · subst loop
        exact ih different
      · exact ⟨u, way, link, loop⟩

/-- Vertices that no link leaves hold all that one of them reaches. -/
theorem mem_of_reaches {α : Type} {r : α → α → Prop} {vertices : List α} {a b : α}
    (noneLeaves : ∀ u ∈ vertices, ∀ v, r u v → v ∈ vertices) (way : ReflTransGen r a b)
    (member : a ∈ vertices) : b ∈ vertices := by
  induction way with
  | refl =>
      exact member
  | tail _ link ih =>
      exact noneLeaves _ ih _ link

/-- Whether an arc leads from `u` to `v`. -/
def Arc (adjacency : List (List Nat)) (u v : Nat) : Prop := v ∈ adjacency.getD u []

theorem arc_iff_mem {adjacency : List (List Nat)} {u v : Nat} {successors : List Nat}
    (listed : adjacency[u]? = some successors) : Arc adjacency u v ↔ v ∈ successors := by
  rw [Arc, List.getD_eq_getElem?_getD, listed, Option.getD_some]

theorem Arc.lt {adjacency : List (List Nat)} {u v : Nat} (arc : Arc adjacency u v) :
    u < adjacency.length := by
  apply Nat.lt_of_not_le
  intro beyond
  rw [Arc, List.getD_eq_getElem?_getD, List.getElem?_eq_none beyond] at arc
  exact List.not_mem_nil arc

end DatasetLineage.Digraph
