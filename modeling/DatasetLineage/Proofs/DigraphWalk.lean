/-
Module: DatasetLineage.Proofs.DigraphWalk
Purpose: Walks along a relation, counted by their links, and circuits, given by their vertices. A
  circuit may be told from any of its vertices on, and every vertex of it reaches every other one.
Main exports: Walk, Walk.swap, IsDistance, IsCircuit, IsCircuit.rotate, IsCircuit.stronglyConnected,
  isCircuit_map_iff
-/
import DatasetLineage.Proofs.DigraphReachability
import Mathlib.Data.List.Chain
import Mathlib.Data.List.Nodup

namespace DatasetLineage.Digraph

open Relation (ReflTransGen)

variable {α : Type} {r : α → α → Prop}

/-- `Walk r a k b` says that `k` links along `r` lead from `a` to `b`. -/
inductive Walk (r : α → α → Prop) (a : α) : Nat → α → Prop where
  | here : Walk r a 0 a
  | next {k : Nat} {b c : α} : Walk r a k b → r b c → Walk r a (k + 1) c

/-- A link in front of a walk makes it one link longer. -/
theorem Walk.head {a b c : α} {k : Nat} (link : r a b) (walk : Walk r b k c) :
    Walk r a (k + 1) c := by
  induction walk with
  | here =>
      exact .next .here link
  | next _ last ih =>
      exact ih.next last

/-- A walk told from its end goes against the links. -/
theorem Walk.swap {a b : α} {k : Nat} (walk : Walk r a k b) : Walk (Function.swap r) b k a := by
  induction walk with
  | here =>
      exact .here
  | next _ last ih =>
      exact ih.head last

/-- `IsDistance r a k b` says that a shortest walk along `r` from `a` to `b` has `k` links. -/
def IsDistance (r : α → α → Prop) (a : α) (k : Nat) (b : α) : Prop :=
  Walk r a k b ∧ ∀ j < k, ¬ Walk r a j b

/-- What a walk reaches is at some distance, which is no longer than the walk. -/
theorem Walk.exists_isDistance {a b : α} {k : Nat} (walk : Walk r a k b) :
    ∃ j ≤ k, IsDistance r a j b := by
  induction k using Nat.strongRecOn with
  | ind k ih =>
      by_cases nearer : ∃ j < k, Walk r a j b
      · obtain ⟨j, below, walk'⟩ := nearer
        obtain ⟨i, near, distance⟩ := ih j below walk'
        exact ⟨i, Nat.le_trans near (Nat.le_of_lt below), distance⟩
      · exact ⟨k, Nat.le_refl k, walk, fun j below walk' => nearer ⟨j, below, walk'⟩⟩

theorem IsDistance.unique {a b : α} {j k : Nat} (first : IsDistance r a j b)
    (second : IsDistance r a k b) : j = k := by
  rcases Nat.lt_trichotomy j k with below | same | above
  · exact absurd first.1 (second.2 j below)
  · exact same
  · exact absurd second.1 (first.2 k above)

theorem isDistance_zero_iff {a b : α} : IsDistance r a 0 b ↔ b = a := by
  constructor
  · rintro ⟨walk, _⟩
    cases walk
    rfl
  · rintro rfl
    exact ⟨.here, fun j below => absurd below (Nat.not_lt_zero j)⟩

/-- The vertices of a circuit: all different, each with a link to the next one, and the last one
    with a link to the first. -/
structure IsCircuit (r : α → α → Prop) (nodes : List α) : Prop where
  nodup : nodes.Nodup
  chain : nodes.IsChain r
  closes : ∀ last ∈ nodes.getLast?, ∀ first ∈ nodes.head?, r last first

namespace IsCircuit

/-- A circuit told from a later vertex on is the same circuit. -/
theorem rotate {front back : List α} (circuit : IsCircuit r (front ++ back)) :
    IsCircuit r (back ++ front) := by
  have chains := List.isChain_append.mp circuit.chain
  cases front with
  | nil =>
      simpa using circuit
  | cons a front =>
      cases back with
      | nil =>
          simpa using circuit
      | cons b back =>
          have closes := circuit.closes
          rw [List.getLast?_append_of_ne_nil _ (by simp)] at closes
          refine ⟨(List.perm_append_comm.nodup_iff).mp circuit.nodup,
            List.isChain_append.mpr ⟨chains.2.1, chains.1, ?_⟩, ?_⟩
          · intro last isLast first isFirst
            exact closes last isLast first (by simpa using isFirst)
          · intro last isLast first isFirst
            rw [List.getLast?_append_of_ne_nil _ (by simp)] at isLast
            exact chains.2.2 last isLast first (by simpa using isFirst)

/-- The first vertex of a chain reaches all vertices of it. -/
theorem reflTransGen_of_chain {a b : α} {rest : List α} (chain : (a :: rest).IsChain r)
    (member : b ∈ a :: rest) : ReflTransGen r a b := by
  induction rest generalizing a with
  | nil =>
      rw [List.mem_singleton] at member
      exact member ▸ .refl
  | cons c rest ih =>
      rw [List.isChain_cons_cons] at chain
      rcases List.mem_cons.mp member with rfl | later
      · exact .refl
      · exact .head chain.1 (ih chain.2 later)

/-- The first vertex of a circuit reaches all vertices of it. -/
theorem reaches_of_head {a b : α} {rest : List α} (circuit : IsCircuit r (a :: rest))
    (member : b ∈ a :: rest) : ReflTransGen r a b :=
  reflTransGen_of_chain circuit.chain member

/-- Any two vertices of a circuit reach each other. -/
theorem stronglyConnected {a b : α} {nodes : List α} (circuit : IsCircuit r nodes)
    (memberA : a ∈ nodes) (memberB : b ∈ nodes) : StronglyConnected r a b := by
  have oneWay : ∀ {x y}, x ∈ nodes → y ∈ nodes → ReflTransGen r x y := by
    intro x y memberX memberY
    obtain ⟨front, back, rfl⟩ := List.append_of_mem memberX
    have turned : IsCircuit r (x :: (back ++ front)) := circuit.rotate
    apply turned.reaches_of_head
    exact List.perm_append_comm.mem_iff.mp memberY
  exact ⟨oneWay memberA memberB, oneWay memberB memberA⟩

end IsCircuit

/-- Vertices that go by other names form a circuit if and only if their names do. -/
theorem isCircuit_map_iff {β : Type} {s : β → β → Prop} {f : α → β} {nodes : List α}
    (same : ∀ a b, s (f a) (f b) ↔ r a b)
    (injective : ∀ a ∈ nodes, ∀ b ∈ nodes, f a = f b → a = b) :
    IsCircuit s (nodes.map f) ↔ IsCircuit r nodes := by
  have chains : (nodes.map f).IsChain s ↔ nodes.IsChain r := by
    rw [List.isChain_map]
    simp only [same]
  have closings : (∀ last ∈ (nodes.map f).getLast?, ∀ first ∈ (nodes.map f).head?, s last first) ↔
      ∀ last ∈ nodes.getLast?, ∀ first ∈ nodes.head?, r last first := by
    simp only [List.getLast?_map, List.head?_map, Option.mem_def, Option.map_eq_some_iff,
      forall_exists_index, and_imp, forall_apply_eq_imp_iff₂, same]
  constructor
  · intro circuit
    exact ⟨circuit.nodup.of_map f, chains.mp circuit.chain, closings.mp circuit.closes⟩
  · intro circuit
    have distinct : (nodes.map f).Nodup :=
      circuit.nodup.map_on fun a listedA b listedB => injective a listedA b listedB
    exact ⟨distinct, chains.mpr circuit.chain, closings.mpr circuit.closes⟩

end DatasetLineage.Digraph
