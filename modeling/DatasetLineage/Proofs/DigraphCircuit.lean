/-
Module: DatasetLineage.Proofs.DigraphCircuit
Purpose: A search in breadth finds a shortest circuit. When a vertex is taken off the queue,
  whatever is nearer to the start has been taken off before it, and none of that has an arc back to
  the start. The queue holds vertices of the same distance, and behind them vertices one link
  farther. Each discovery is one link farther than the vertex from which it was made, so the way back from
  a vertex is as long as its distance. Therefore the first arc that closes a circuit closes a
  shortest one; and if none does, no vertex that can be reached has an arc back to the start.
Main exports: Next, Closes, IsShortestCircuit, Looks, IsNearestFirst, IsNearestFirst.round,
  Reached.isNearestFirst, shortestCircuit?_cases, shortestCircuit?_of_class
-/
import DatasetLineage.Proofs.DigraphBreadthSearch
import DatasetLineage.Proofs.DigraphWalk

namespace DatasetLineage.Digraph

open Relation (ReflTransGen)

/-- A link to another vertex that is a member. -/
def Next {α : Type} (r : α → α → Prop) (members : List α) (v w : α) : Prop :=
  r v w ∧ w ≠ v ∧ w ∈ members

/-- Whether a link of `v` leads back to `start`, another vertex. -/
def Closes {α : Type} (r : α → α → Prop) (start v : α) : Prop := r v start ∧ start ≠ v

/-- A shortest one among the circuits of two or more members that go through `start`, beginning
    there. -/
structure IsShortestCircuit {α : Type} (r : α → α → Prop) (members : List α) (start : α)
    (nodes : List α) : Prop where
  circuit : IsCircuit r nodes
  starts : nodes.head? = some start
  several : 2 ≤ nodes.length
  inside : nodes ⊆ members
  shortest : ∀ other, IsCircuit r other → 2 ≤ other.length → other ⊆ members → start ∈ other →
    nodes.length ≤ other.length

/-- What a look at the arcs of `v` comes to. `new` are the vertices that it discovers.
    - `complete` tells that without an arc back to the start, all members are known to which arcs
      lead. -/
structure Looks (members : List Nat) (start v : Nat) (arcs : List Nat)
    (search next : BreadthSearch) (isClosed : Bool) (new : List Nat) : Prop where
  queue : next.queue = search.queue ++ new
  found : next.found = (new.map (Discovery.mk · v)).reverse ++ search.found
  fresh : ∀ w ∈ new, w ∈ arcs ∧ w ≠ v ∧ w ∈ members ∧ w ∉ start :: search.discovered
  closes : isClosed = true → start ∈ arcs ∧ start ≠ v
  complete : isClosed = false → ∀ w ∈ arcs, w ≠ v →
    w ≠ start ∧ (w ∈ members → w ∈ next.discovered)

/-! ### Looks along the links of a vertex -/

section Looks

variable {members arcs new : List Nat} {start v w : Nat} {search next : BreadthSearch}
  {isClosed : Bool}

theorem Looks.mem_discovered (looks : Looks members start v arcs search next isClosed new)
    (old : w ∈ search.discovered) : w ∈ next.discovered := by
  rw [BreadthSearch.discovered, looks.found, List.map_append]
  exact List.mem_append_right _ old

/-- An arc of no use in front of the others. -/
theorem Looks.skip (looks : Looks members start v arcs search next isClosed new)
    (noUse : w ≠ v → w ≠ start ∧ (w ∈ members → w ∈ search.discovered)) :
    Looks members start v (w :: arcs) search next isClosed new where
  queue := looks.queue
  found := looks.found
  fresh u isNew := (looks.fresh u isNew).imp_left (List.mem_cons_of_mem w)
  closes isBack := (looks.closes isBack).imp_left (List.mem_cons_of_mem w)
  complete notBack u listed different := by
    rcases List.mem_cons.mp listed with rfl | later
    · exact (noUse different).imp_right fun known member => looks.mem_discovered (known member)
    · exact looks.complete notBack u later different

/-- An arc that discovers a member in front of the others. -/
theorem Looks.discover
    (looks : Looks members start v arcs (search.discover w v) next isClosed new)
    (different : w ≠ v) (notStart : w ≠ start) (member : w ∈ members)
    (unknown : w ∉ search.discovered) :
    Looks members start v (w :: arcs) search next isClosed (w :: new) where
  queue := by
    rw [looks.queue, BreadthSearch.discover, List.append_assoc, List.singleton_append]
  found := by
    rw [looks.found, BreadthSearch.discover, List.map_cons, List.reverse_cons, List.append_assoc,
      List.singleton_append]
  fresh u isNew := by
    rcases List.mem_cons.mp isNew with rfl | later
    · refine ⟨List.mem_cons_self, different, member, fun known => ?_⟩
      exact (List.mem_cons.mp known).elim notStart unknown
    · obtain ⟨listed, different', member', unknown'⟩ := looks.fresh u later
      refine ⟨List.mem_cons_of_mem w listed, different', member', fun known => unknown' ?_⟩
      exact List.mem_cons.mpr ((List.mem_cons.mp known).imp_right (List.mem_cons_of_mem w))
  closes isBack := (looks.closes isBack).imp_left (List.mem_cons_of_mem w)
  complete notBack u listed different' := by
    rcases List.mem_cons.mp listed with rfl | later
    · exact ⟨notStart, fun _ => looks.mem_discovered List.mem_cons_self⟩
    · exact looks.complete notBack u later different'

theorem exists_looks
    (looked : BreadthSearch.look members start v arcs search = (next, isClosed)) :
    ∃ new, Looks members start v arcs search next isClosed new := by
  induction arcs generalizing search with
  | nil =>
      cases looked
      refine ⟨[], (List.append_nil _).symm, rfl, ?_, ?_, ?_⟩
      · exact fun w isNew => absurd isNew List.not_mem_nil
      · exact fun isBack => absurd isBack Bool.false_ne_true
      · exact fun _ w listed => absurd listed List.not_mem_nil
  | cons w rest ih =>
      unfold BreadthSearch.look at looked
      split at looked
      · rename_i loop
        obtain ⟨new, looks⟩ := ih looked
        exact ⟨new, looks.skip fun different => absurd loop different⟩
      · rename_i different
        split at looked
        · rename_i isStart
          cases looked
          refine ⟨[], (List.append_nil _).symm, rfl, ?_, fun _ => ?_,
            fun notBack => absurd notBack.symm Bool.false_ne_true⟩
          · exact fun w isNew => absurd isNew List.not_mem_nil
          · exact isStart ▸ ⟨List.mem_cons_self, different⟩
        · rename_i notStart
          split at looked
          · rename_i fresh
            obtain ⟨new, looks⟩ := ih looked
            exact ⟨w :: new, looks.discover different notStart fresh.1 fresh.2⟩
          · rename_i stale
            obtain ⟨new, looks⟩ := ih looked
            refine ⟨new, looks.skip fun _ => ⟨notStart, fun member => ?_⟩⟩
            exact Decidable.not_not.mp fun unknown => stale ⟨member, unknown⟩

end Looks

/-- Vertices at distance `k` from the start, and vertices one link farther. -/
structure IsSpread (r : Nat → Nat → Prop) (start k : Nat) (near far : List Nat) : Prop where
  near : ∀ v ∈ near, IsDistance r start k v
  far : ∀ v ∈ far, IsDistance r start (k + 1) v

theorem IsSpread.le_of_walk {r : Nat → Nat → Prop} {start j k u : Nat} {near far : List Nat}
    (spread : IsSpread r start k near far) (listed : u ∈ near ++ far) (walk : Walk r start j u) :
    k ≤ j := by
  by_contra nearer
  rcases List.mem_append.mp listed with isNear | isFar
  · exact (spread.near u isNear).2 j (Nat.lt_of_not_le nearer) walk
  · exact (spread.far u isFar).2 j (by omega) walk

/-- What holds, beside the order, of the vertices that have been taken off the queue and of a search
    in which no arc leads back to the start.
    - `steps` tells that a discovery is one link farther than the vertex from which it was made.
    - `complete` tells that members to which links of the vertices taken off lead are known. -/
structure IsNearestFirst (adjacency : List (List Nat)) (members : List Nat) (start : Nat)
    (gone : List Nat) (search : BreadthSearch) : Prop
    extends InOrder members start gone search where
  spread : ∃ k near far, search.queue = near ++ far ∧
    IsSpread (Next (Arc adjacency) members) start k near far
  steps : ∀ d ∈ search.found, Arc adjacency d.parent d.vertex ∧
    ∃ k, IsDistance (Next (Arc adjacency) members) start k d.parent ∧
      IsDistance (Next (Arc adjacency) members) start (k + 1) d.vertex
  complete : ∀ u ∈ gone, ∀ w, Next (Arc adjacency) members u w → w ∈ gone ++ search.queue
  noneCloses : ∀ u ∈ gone, ¬ Closes (Arc adjacency) start u

/-! ### The queue between two turns -/

section Rounds

variable {adjacency : List (List Nat)} {members gone waiting near far : List Nat}
  {start u v w j k : Nat} {search : BreadthSearch}

/-- The vertex at the front of the queue is one of the nearest. -/
theorem IsNearestFirst.exists_spread
    (nearestFirst : IsNearestFirst adjacency members start gone search)
    (queued : search.queue = v :: waiting) :
    ∃ k near far, waiting = near ++ far ∧
      IsSpread (Next (Arc adjacency) members) start k (v :: near) far := by
  obtain ⟨k, near, far, divided, spread⟩ := nearestFirst.spread
  rw [queued] at divided
  cases near with
  | nil =>
      rw [List.nil_append] at divided
      refine ⟨k + 1, waiting, [], (List.append_nil _).symm, ?_, ?_⟩
      · exact divided ▸ spread.far
      · exact fun u listed => absurd listed List.not_mem_nil
  | cons first near =>
      rw [List.cons_append, List.cons.injEq] at divided
      obtain ⟨rfl, rfl⟩ := divided
      exact ⟨k, near, far, rfl, spread⟩

/-! ### Distances of what is discovered -/

namespace IsNearestFirst

variable (nearestFirst : IsNearestFirst adjacency members start gone search)
  (queued : search.queue = v :: (near ++ far))
  (spread : IsSpread (Next (Arc adjacency) members) start k (v :: near) far)

include nearestFirst queued spread

/-- Whatever is nearer to the start than the front of the queue has been taken off. -/
theorem mem_gone_or_le (walk : Walk (Next (Arc adjacency) members) start j u) :
    u ∈ gone ∨ k ≤ j := by
  have behind : ∀ {j u}, Walk (Next (Arc adjacency) members) start j u →
      u ∈ gone ++ search.queue → u ∈ gone ∨ k ≤ j := by
    intro j u walk known
    rw [queued] at known
    exact (List.mem_append.mp known).imp_right fun listed => spread.le_of_walk listed walk
  induction walk with
  | here =>
      exact behind .here (nearestFirst.mem_iff.mpr List.mem_cons_self)
  | @next j b c walk link ih =>
      rcases ih with taken | farther
      · exact behind (walk.next link) (nearestFirst.complete b taken c link)
      · exact .inr (Nat.le_succ_of_le farther)

/-- What a link of the front of the queue discovers is one link farther. -/
theorem isDistance_succ (link : Next (Arc adjacency) members v w)
    (new : w ∉ gone ++ search.queue) :
    IsDistance (Next (Arc adjacency) members) start (k + 1) w := by
  refine ⟨(spread.near v List.mem_cons_self).1.next link, fun j below walk => ?_⟩
  cases walk with
  | here =>
      exact new (nearestFirst.mem_iff.mpr List.mem_cons_self)
  | @next i b _ walk link' =>
      rcases nearestFirst.mem_gone_or_le queued spread walk with taken | farther
      · exact new (nearestFirst.complete b taken w link')
      · omega

variable {successors new : List Nat} {next : BreadthSearch} {isClosed : Bool}
  (listed : adjacency[v]? = some successors)
  (looks : Looks members start v successors { search with queue := near ++ far } next isClosed new)

include listed looks

/-- All that the look discovers is one link farther. -/
theorem isDistance_new (isNew : w ∈ new) :
    Arc adjacency v w ∧ IsDistance (Next (Arc adjacency) members) start (k + 1) w := by
  obtain ⟨inArcs, different, member, unknown⟩ := looks.fresh w isNew
  have arc : Arc adjacency v w := (arc_iff_mem listed).mpr inArcs
  exact ⟨arc, nearestFirst.isDistance_succ queued spread ⟨arc, different, member⟩
    fun known => unknown (nearestFirst.mem_iff.mp known)⟩

/-- Discoveries keep being one link farther than what they were made from. -/
theorem steps_next : ∀ d ∈ next.found, Arc adjacency d.parent d.vertex ∧
    ∃ k, IsDistance (Next (Arc adjacency) members) start k d.parent ∧
      IsDistance (Next (Arc adjacency) members) start (k + 1) d.vertex := by
  intro d recorded
  rw [looks.found, List.mem_append, List.mem_reverse] at recorded
  rcases recorded with recent | old
  · obtain ⟨w, isNew, rfl⟩ := List.mem_map.mp recent
    obtain ⟨arc, distance⟩ :=
      nearestFirst.isDistance_new queued spread listed looks isNew
    exact ⟨arc, k, spread.near v List.mem_cons_self, distance⟩
  · exact nearestFirst.steps d old

end IsNearestFirst

/-- A round in which no arc leads back to the start goes on with the nearest vertices. -/
theorem IsNearestFirst.round {successors : List Nat} {next : BreadthSearch}
    (nearestFirst : IsNearestFirst adjacency members start gone search)
    (queued : search.queue = v :: waiting) (listed : adjacency[v]? = some successors)
    (looked : BreadthSearch.look members start v successors { search with queue := waiting } =
      (next, false)) :
    IsNearestFirst adjacency members start (gone ++ [v]) next := by
  obtain ⟨k, near, far, rfl, spread⟩ := nearestFirst.exists_spread queued
  obtain ⟨new, looks⟩ := exists_looks looked
  have inOrder := nearestFirst.toInOrder.round queued looked
  have queue : next.queue = near ++ (far ++ new) := looks.queue.trans (List.append_assoc _ _ _)
  constructor
  case toInOrder =>
    exact inOrder
  case spread =>
    refine ⟨k, near, far ++ new, queue, ?_, ?_⟩
    · exact fun u isNear => spread.near u (List.mem_cons_of_mem v isNear)
    · intro u isFar
      rcases List.mem_append.mp isFar with old | isNew
      · exact spread.far u old
      · exact (nearestFirst.isDistance_new queued spread listed looks isNew).2
  case steps =>
    exact nearestFirst.steps_next queued spread listed looks
  case complete =>
    intro u taken w link
    rcases List.mem_append.mp taken with earlier | last
    · have known := nearestFirst.complete u earlier w link
      rw [queued] at known
      rw [queue]
      simp only [List.mem_append, List.mem_cons] at known ⊢
      tauto
    · rw [List.mem_singleton] at last
      subst last
      have known := (looks.complete rfl w ((arc_iff_mem listed).mp link.1) link.2.1).2 link.2.2
      exact inOrder.mem_iff.mpr (List.mem_cons_of_mem start known)
  case noneCloses =>
    intro u taken closes
    rcases List.mem_append.mp taken with earlier | last
    · exact nearestFirst.noneCloses u earlier closes
    · rw [List.mem_singleton] at last
      subst last
      exact (looks.complete rfl start ((arc_iff_mem listed).mp closes.1) closes.2).1 rfl

/-- Every round takes a nearest vertex off the queue. -/
theorem Reached.isNearestFirst (reached : Reached adjacency members start gone search)
    (member : start ∈ members) : IsNearestFirst adjacency members start gone search := by
  induction reached with
  | start =>
      have reached : Reached adjacency members start [] { queue := [start] } := .start
      constructor
      case toInOrder =>
        exact reached.inOrder member
      case spread =>
        refine ⟨0, [start], [], rfl, fun v isStart => ?_, fun v listed => ?_⟩
        · exact isDistance_zero_iff.mpr (List.mem_singleton.mp isStart)
        · exact absurd listed List.not_mem_nil
      case steps =>
        exact fun d recorded => absurd recorded List.not_mem_nil
      case complete =>
        exact fun u taken => absurd taken List.not_mem_nil
      case noneCloses =>
        exact fun u taken => absurd taken List.not_mem_nil
  | round _ queued listed looked ih =>
      exact ih.round queued listed looked

end Rounds

/-! ### Circuits and their closing links -/

section Circuits

variable {α : Type} {r : α → α → Prop} {members : List α} {start : α} {k : Nat}

/-- A chain of different members is a walk between members. -/
theorem Walk.of_chain {v : α} {rest : List α} (walk : Walk (Next r members) start k v)
    (chain : (v :: rest).IsChain r) (nodup : (v :: rest).Nodup) (inside : rest ⊆ members) :
    ∃ last, (v :: rest).getLast? = some last ∧
      Walk (Next r members) start (k + rest.length) last := by
  induction rest generalizing k v with
  | nil =>
      exact ⟨v, rfl, walk⟩
  | cons w rest ih =>
      rw [List.isChain_cons_cons] at chain
      rw [List.nodup_cons] at nodup
      have different : w ≠ v := fun same => nodup.1 (same ▸ List.mem_cons_self)
      have longer := walk.next ⟨chain.1, different, inside List.mem_cons_self⟩
      obtain ⟨last, isLast, walk'⟩ := ih longer chain.2 nodup.2
        fun a later => inside (List.mem_cons_of_mem _ later)
      refine ⟨last, by rw [List.getLast?_cons_cons, isLast], ?_⟩
      rw [List.length_cons, Nat.add_comm rest.length, ← Nat.add_assoc]
      exact walk'

/-- The last vertex of a circuit closes it, and is reached in one link less than the circuit has
    vertices. -/
theorem IsCircuit.exists_closing {nodes : List α} (circuit : IsCircuit r nodes)
    (several : 2 ≤ nodes.length) (inside : nodes ⊆ members) (through : start ∈ nodes) :
    ∃ last, Walk (Next r members) start (nodes.length - 1) last ∧ Closes r start last := by
  obtain ⟨front, rest, rfl⟩ := List.append_of_mem through
  have turned : IsCircuit r (start :: (rest ++ front)) := circuit.rotate
  have inside' : rest ++ front ⊆ members := fun a h => inside (by
    rw [List.mem_append, List.mem_cons]
    exact (List.mem_append.mp h).elim (fun later => .inr (.inr later)) .inl)
  obtain ⟨last, isLast, walk⟩ := Walk.of_chain .here turned.chain turned.nodup inside'
  have length : (front ++ start :: rest).length - 1 = 0 + (rest ++ front).length := by
    simp only [List.length_append, List.length_cons]
    omega
  refine ⟨last, length ▸ walk, turned.closes last isLast start rfl, ?_⟩
  -- the last vertex stands behind the first, so it is a different one
  intro same
  have different := turned.nodup
  rw [List.nodup_cons] at different
  cases more : rest ++ front with
  | nil =>
      obtain ⟨rfl, rfl⟩ := List.append_eq_nil_iff.mp more
      exact absurd several (by simp)
  | cons a others =>
      rw [more, List.getLast?_cons_cons] at isLast
      exact different.1 (more ▸ same ▸ List.mem_of_getLast? isLast)

/-- A way between connected vertices does not leave the members if these are a whole class. -/
theorem reflTransGen_next {u : α} (whole : ∀ v, StronglyConnected r start v → v ∈ members)
    (way : ReflTransGen r start u) (back : ReflTransGen r u start) :
    ReflTransGen (Next r members) start u := by
  induction way with
  | refl =>
      exact .refl
  | @tail v w way link ih =>
      have earlier := ih (.head link back)
      by_cases loop : w = v
      · exact loop ▸ earlier
      · exact earlier.tail ⟨link, loop, whole w ⟨way.tail link, back⟩⟩

end Circuits

/-! ### The shortest circuit -/

section Shortest

variable {adjacency : List (List Nat)} {members gone path : List Nat} {start v k : Nat}
  {search last : BreadthSearch}

/-- The way back has as many links as the vertex is away from the start. -/
theorem LeadsBack.length_eq {r : Nat → Nat → Prop} {found : List Discovery}
    (leads : LeadsBack start found v path) (distance : IsDistance r start k v)
    (steps : ∀ d ∈ found, ∃ k, IsDistance r start k d.parent ∧
      IsDistance r start (k + 1) d.vertex) :
    path.length = k + 1 := by
  induction path generalizing v k with
  | nil =>
      exact absurd leads.head (by simp)
  | cons u rest ih =>
      cases rest with
      | nil =>
          obtain ⟨rfl, _⟩ := leads.eq_start
          rw [List.length_singleton, distance.unique (isDistance_zero_iff.mpr rfl)]
      | cons parent rest =>
          obtain ⟨rfl, _, isParent, leads'⟩ := leads.cons_cons
          obtain ⟨i, ofParent, ofChild⟩ := steps _ (mem_of_parentOf? isParent)
          rw [List.length_cons, ih leads' ofParent, distance.unique ofChild]

/-- The first arc that leads back to the start closes a shortest circuit. -/
theorem ComesBack.isShortestCircuit
    (comesBack : ComesBack adjacency members start search v last)
    (nearestFirst : IsNearestFirst adjacency members start gone search)
    (leads : LeadsBack start last.found v path) (inside : path ⊆ members) :
    IsShortestCircuit (Arc adjacency) members start path.reverse := by
  obtain ⟨queued, listed, looked⟩ := comesBack
  obtain ⟨k, near, far, rfl, spread⟩ := nearestFirst.exists_spread queued
  obtain ⟨new, looks⟩ := exists_looks looked
  have steps := nearestFirst.steps_next queued spread listed looks
  have distance := spread.near v List.mem_cons_self
  have length : path.length = k + 1 :=
    leads.length_eq distance fun d recorded => (steps d recorded).2
  obtain ⟨isArc, notStart⟩ := looks.closes rfl
  have arc : Arc adjacency v start := (arc_iff_mem listed).mpr isArc
  constructor
  case circuit =>
    refine ⟨List.nodup_reverse.mpr leads.nodup, ?_, ?_⟩
    · rw [List.isChain_reverse]
      exact leads.parents.imp fun child parent isParent =>
        (steps _ (mem_of_parentOf? isParent)).1
    · intro b isLast a isFirst
      rw [List.getLast?_reverse, leads.head, Option.mem_some_iff] at isLast
      rw [List.head?_reverse, leads.last, Option.mem_some_iff] at isFirst
      exact isLast ▸ isFirst ▸ arc
  case starts =>
    rw [List.head?_reverse, leads.last]
  case several =>
    rw [List.length_reverse, length]
    cases k with
    | zero =>
        exact absurd (isDistance_zero_iff.mp distance).symm notStart
    | succ k =>
        omega
  case inside =>
    exact fun u onPath => inside (List.mem_reverse.mp onPath)
  case shortest =>
    intro other circuit several inside' through
    obtain ⟨u, walk, closes⟩ := circuit.exists_closing several inside' through
    rcases nearestFirst.mem_gone_or_le queued spread walk with taken | farther
    · exact absurd closes (nearestFirst.noneCloses u taken)
    · rw [List.length_reverse, length]
      omega

/-- Once the queue is empty, everything that can be reached has been taken off it. -/
theorem IsNearestFirst.not_closes
    (nearestFirst : IsNearestFirst adjacency members start gone search)
    (empty : search.queue = []) {u : Nat}
    (way : ReflTransGen (Next (Arc adjacency) members) start u) :
    ¬ Closes (Arc adjacency) start u := by
  have all : gone ++ search.queue = gone := by rw [empty, List.append_nil]
  apply nearestFirst.noneCloses
  have taken : start ∈ gone := all ▸ nearestFirst.mem_iff.mpr List.mem_cons_self
  exact mem_of_reaches (fun u taken w link => all ▸ nearestFirst.complete u taken w link) way taken

/-- The search finds a shortest circuit, or else nothing that can be reached closes one. -/
theorem shortestCircuit?_cases (member : start ∈ members)
    (valid : ∀ v ∈ members, v < adjacency.length) :
    (∃ nodes, shortestCircuit? adjacency members start = some (some nodes) ∧
      IsShortestCircuit (Arc adjacency) members start nodes) ∨
    ∀ u, ReflTransGen (Next (Arc adjacency) members) start u →
      ¬ Closes (Arc adjacency) start u := by
  obtain ⟨gone, search, result, reached, concludes, result_eq⟩ := (isSafeSearch member valid).ends
  have nearestFirst := reached.isNearestFirst member
  cases concludes with
  | empty empty =>
      exact .inr fun u way => nearestFirst.not_closes empty way
  | closed comesBack leads =>
      obtain ⟨path, leads', inside⟩ := comesBack.exists_leadsBack nearestFirst.toInOrder
      have same := leads.unique leads'
      subst same
      exact .inl ⟨_, result_eq, comesBack.isShortestCircuit nearestFirst leads inside⟩

/-- Among the members of a class of two or more vertices there is a shortest circuit through any
    of them. -/
theorem shortestCircuit?_of_class
    (whole : ∀ v, v ∈ members ↔ StronglyConnected (Arc adjacency) start v)
    (valid : ∀ v ∈ members, v < adjacency.length) {other : Nat}
    (member : other ∈ members) (different : other ≠ start) :
    ∃ nodes, shortestCircuit? adjacency members start = some (some nodes) ∧
      IsShortestCircuit (Arc adjacency) members start nodes := by
  have connected := (whole other).mp member
  obtain ⟨u, way, link, notStart⟩ := exists_last_link connected.2 different
  have toLast : ReflTransGen (Arc adjacency) start u := connected.1.trans way
  have reached : ReflTransGen (Next (Arc adjacency) members) start u :=
    reflTransGen_next (fun v h => (whole v).mpr h) toLast (.single link)
  apply (shortestCircuit?_cases ((whole start).mpr (.refl start)) valid).resolve_right
  exact fun none => none u reached ⟨link, Ne.symm notStart⟩

end Shortest

end DatasetLineage.Digraph
