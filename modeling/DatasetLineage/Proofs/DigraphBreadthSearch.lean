/-
Module: DatasetLineage.Proofs.DigraphBreadthSearch
Purpose: What a search in breadth keeps in every round. The vertices that have been taken off the
  queue and those that are still on it are, in this order, the start and the vertices in the order
  of their discovery, so none is queued twice. Every discovery but those from the start was made
  from an earlier one. A way back along the discoveries therefore goes to earlier and earlier ones:
  it meets no vertex twice and comes to the start. So a search always ends, with a circuit or
  without.
Main exports: LeadsBack, LeadsBack.walkBack_eq, exists_walkWithin_iff, IsRooted,
  IsRooted.exists_leadsBack, Reached, InOrder, InOrder.look, Reached.inOrder, Concludes,
  IsSafeSearch, isSafeSearch, exists_shortestCircuit?
-/
import DatasetLineage.Digraph.Circuit
import Mathlib.Data.List.Chain
import Mathlib.Data.List.Nodup
import Mathlib.Data.List.Perm.Subperm

namespace DatasetLineage.Digraph

/-- A way from `v` back to `start` through different vertices, each but the last one followed by the
    vertex from which it was discovered. -/
structure LeadsBack (start : Nat) (found : List Discovery) (v : Nat) (path : List Nat) :
    Prop where
  head : path.head? = some v
  last : path.getLast? = some start
  parents : path.IsChain fun child parent => parentOf? found child = some parent
  nodup : path.Nodup

/-- Discoveries, latest first, of different vertices other than the start, each made from the start
    or from a vertex discovered earlier. -/
inductive IsRooted (start : Nat) : List Discovery → Prop where
  | start : IsRooted start []
  | discovered {w v : Nat} {found : List Discovery} :
      IsRooted start found → w ∉ start :: found.map Discovery.vertex →
      v ∈ start :: found.map Discovery.vertex → IsRooted start (⟨w, v⟩ :: found)

/-! ### Ways back along discoveries -/

section WayBack

variable {start v w steps : Nat} {found : List Discovery} {path : List Nat}

theorem mem_of_parentOf? {child parent : Nat} (isParent : parentOf? found child = some parent) :
    (⟨child, parent⟩ : Discovery) ∈ found := by
  obtain ⟨d, given, rfl⟩ := Option.map_eq_some_iff.mp isParent
  have same : d.vertex = child := by simpa using List.find?_some given
  exact same ▸ List.mem_of_find?_eq_some given

/-- A way back of two or more vertices goes to the parent of the first one, and on from there. -/
theorem LeadsBack.cons_cons {u parent : Nat} {rest : List Nat}
    (leads : LeadsBack start found u (v :: parent :: rest)) :
    u = v ∧ v ≠ start ∧ parentOf? found v = some parent ∧
      LeadsBack start found parent (parent :: rest) := by
  obtain ⟨head, last, parents, nodup⟩ := leads
  rw [List.head?_cons, Option.some_inj] at head
  rw [List.isChain_cons_cons] at parents
  rw [List.getLast?_cons_cons] at last
  rw [List.nodup_cons] at nodup
  have notStart : v ≠ start := by
    rintro rfl
    exact nodup.1 (List.mem_of_getLast? last)
  exact ⟨head.symm, notStart, parents.1, rfl, last, parents.2, nodup.2⟩

/-- A way back of one vertex is at the start. -/
theorem LeadsBack.eq_start {u : Nat} (leads : LeadsBack start found u [v]) :
    u = start ∧ v = start := by
  have head : v = u := Option.some.inj leads.head
  have last : v = start := Option.some.inj leads.last
  exact ⟨head ▸ last, last⟩

theorem LeadsBack.subset (leads : LeadsBack start found v path) :
    path ⊆ start :: found.map Discovery.vertex := by
  induction path generalizing v with
  | nil =>
      exact List.nil_subset _
  | cons u rest ih =>
      cases rest with
      | nil =>
          exact List.cons_subset.mpr ⟨leads.eq_start.2 ▸ List.mem_cons_self, List.nil_subset _⟩
      | cons parent rest =>
          obtain ⟨_, _, isParent, leads'⟩ := leads.cons_cons
          have known : u ∈ found.map Discovery.vertex :=
            List.mem_map_of_mem (mem_of_parentOf? isParent)
          exact List.cons_subset.mpr ⟨List.mem_cons_of_mem _ known, ih leads'⟩

/-- A way back has no more links than there are discoveries. -/
theorem LeadsBack.length_le (leads : LeadsBack start found v path) :
    path.length ≤ found.length + 1 := by
  have within := (List.subperm_of_subset leads.nodup leads.subset).length_le
  rwa [List.length_cons, List.length_map] at within

/-- The walk goes the way back, if it is long enough. -/
theorem LeadsBack.walkWithin_eq (leads : LeadsBack start found v path)
    (room : path.length ≤ steps + 1) : walkWithin start found steps v = some path := by
  induction path generalizing v steps with
  | nil =>
      exact absurd leads.head (by simp)
  | cons u rest ih =>
      cases rest with
      | nil =>
          obtain ⟨rfl, rfl⟩ := leads.eq_start
          rw [walkWithin.eq_def, if_pos rfl]
      | cons parent rest =>
          obtain ⟨rfl, notStart, isParent, leads'⟩ := leads.cons_cons
          cases steps with
          | zero =>
              simp at room
          | succ steps =>
              have goesOn := ih leads' (Nat.le_of_succ_le_succ room)
              simp only [walkWithin, if_neg notStart, isParent, goesOn, Option.bind_eq_bind,
                Option.bind_some, Option.pure_def]

/-- The walk goes the way back. -/
theorem LeadsBack.walkBack_eq (leads : LeadsBack start found v path) :
    walkBack start found v = some path :=
  leads.walkWithin_eq leads.length_le

/-- There is one way back at most. -/
theorem LeadsBack.unique {path' : List Nat} (leads : LeadsBack start found v path)
    (leads' : LeadsBack start found v path') : path = path' :=
  Option.some.inj (leads.walkBack_eq.symm.trans leads'.walkBack_eq)

/-- From every vertex of a way back the rest of it is a way back. -/
theorem LeadsBack.of_append {front back : List Nat}
    (leads : LeadsBack start found w (front ++ v :: back)) :
    LeadsBack start found v (v :: back) where
  head := rfl
  last := by
    have last := leads.last
    rwa [List.getLast?_append_of_ne_nil _ (List.cons_ne_nil v back)] at last
  parents := (List.isChain_append.mp leads.parents).2.1
  nodup := leads.nodup.of_append_right

/-- A walk ends at the start, or it goes on from the parent of its first vertex. -/
theorem walkWithin_cases (walked : walkWithin start found steps v = some path) :
    v = start ∧ path = [v] ∨
      ∃ parent fewer rest, v ≠ start ∧ parentOf? found v = some parent ∧ steps = fewer + 1 ∧
        walkWithin start found fewer parent = some rest ∧ path = v :: rest := by
  rw [walkWithin.eq_def] at walked
  split at walked
  · rename_i atStart
    exact .inl ⟨atStart, (Option.some.inj walked).symm⟩
  · rename_i notStart
    cases steps with
    | zero =>
        exact absurd walked.symm (Option.some_ne_none path)
    | succ fewer =>
        simp only [Option.bind_eq_bind, Option.bind_eq_some_iff, Option.pure_def,
          Option.some_inj] at walked
        obtain ⟨parent, isParent, rest, walked, rfl⟩ := walked
        exact .inr ⟨parent, fewer, rest, notStart, isParent, rfl, walked, rfl⟩

/-- A walk that comes to the start has met no vertex twice. From a vertex that it met again it would
    have gone on in the same way, and once more come to that vertex. -/
theorem leadsBack_of_walkWithin (walked : walkWithin start found steps v = some path) :
    LeadsBack start found v path := by
  induction path generalizing v steps with
  | nil =>
      obtain ⟨_, same⟩ | ⟨_, _, _, _, _, _, _, same⟩ := walkWithin_cases walked
      · exact absurd same.symm (List.cons_ne_nil _ _)
      · exact absurd same.symm (List.cons_ne_nil _ _)
  | cons u rest ih =>
      obtain ⟨rfl, same⟩ | ⟨parent, _, _, notStart, isParent, _, walked', same⟩ :=
        walkWithin_cases walked
      · rw [same]
        exact ⟨rfl, rfl, List.isChain_singleton v, List.nodup_singleton v⟩
      · obtain ⟨rfl, rfl⟩ := List.cons.inj same
        have leads := ih walked'
        have new : u ∉ rest := by
          intro again
          obtain ⟨front, back, rfl⟩ := List.append_of_mem again
          have leads' := leads.of_append
          cases back with
          | nil =>
              exact notStart leads'.eq_start.2
          | cons other back =>
              obtain ⟨_, _, isOther, goesOn⟩ := leads'.cons_cons
              rw [isParent, Option.some_inj] at isOther
              have sameRest := leads.unique (isOther ▸ goesOn)
              have lengths := congrArg List.length sameRest
              simp only [List.length_append, List.length_cons] at lengths
              omega
        refine ⟨rfl, ?_, leads.parents.cons ?_, List.nodup_cons.mpr ⟨new, leads.nodup⟩⟩
        · rw [List.getLast?_cons, leads.last]
          rfl
        · intro first isFirst
          rw [leads.head, Option.mem_some_iff] at isFirst
          exact isFirst ▸ isParent

/-- The bound on the walk takes no way back away. -/
theorem exists_walkWithin_iff :
    (∃ steps, walkWithin start found steps v = some path) ↔ walkBack start found v = some path := by
  constructor
  · rintro ⟨steps, walked⟩
    exact (leadsBack_of_walkWithin walked).walkBack_eq
  · intro walked
    exact ⟨found.length, walked⟩

theorem parentOf?_cons_self (w v : Nat) (found : List Discovery) :
    parentOf? (⟨w, v⟩ :: found) w = some v := by
  simp [parentOf?]

theorem parentOf?_cons_of_ne {u : Nat} (different : w ≠ u) (v : Nat) (found : List Discovery) :
    parentOf? (⟨w, v⟩ :: found) u = parentOf? found u := by
  simp [parentOf?, different]

/-- A later discovery of another vertex does not change the way back. -/
theorem LeadsBack.later (leads : LeadsBack start found v path) (notOn : w ∉ path) (u : Nat) :
    LeadsBack start (⟨w, u⟩ :: found) v path where
  head := leads.head
  last := leads.last
  parents := by
    apply leads.parents.imp_of_mem_imp
    intro child parent onPath _ isParent
    have different : w ≠ child := fun same => notOn (same ▸ onPath)
    rw [parentOf?_cons_of_ne different]
    exact isParent
  nodup := leads.nodup

/-- From the start and from every discovered vertex there is a way back. -/
theorem IsRooted.exists_leadsBack (rooted : IsRooted start found)
    (member : v ∈ start :: found.map Discovery.vertex) : ∃ path, LeadsBack start found v path := by
  induction rooted generalizing v with
  | start =>
      rw [List.map_nil, List.mem_singleton] at member
      subst member
      exact ⟨[v], rfl, rfl, List.isChain_singleton v, List.nodup_singleton v⟩
  | @discovered w u found _ new made ih =>
      by_cases isNew : v = w
      · subst isNew
        -- the way goes to the vertex of the discovery, and from there as before
        obtain ⟨path, leads⟩ := ih made
        have notOn : v ∉ path := fun onPath => new (leads.subset onPath)
        refine ⟨v :: path, rfl, ?_, ?_, List.nodup_cons.mpr ⟨notOn, leads.nodup⟩⟩
        · rw [List.getLast?_cons, leads.last]
          rfl
        · refine (leads.later notOn u).parents.cons fun parent isParent => ?_
          rw [leads.head, Option.mem_some_iff] at isParent
          exact isParent ▸ parentOf?_cons_self v u found
      · have old : v ∈ start :: found.map Discovery.vertex := by
          rw [List.map_cons, List.mem_cons, List.mem_cons] at member
          rw [List.mem_cons]
          exact member.imp_right fun later => later.resolve_left isNew
        obtain ⟨path, leads⟩ := ih old
        exact ⟨path, leads.later (fun onPath => new (leads.subset onPath)) u⟩

theorem IsRooted.nodup (rooted : IsRooted start found) :
    (start :: found.map Discovery.vertex).Nodup := by
  induction rooted with
  | start =>
      exact List.nodup_singleton start
  | discovered _ new _ ih =>
      rw [List.mem_cons, not_or] at new
      rw [List.nodup_cons] at ih
      rw [List.map_cons, List.nodup_cons, List.mem_cons, not_or, List.nodup_cons]
      exact ⟨⟨Ne.symm new.1, ih.1⟩, new.2, ih.2⟩

end WayBack

/-- The rounds of a search from `start` in which no arc leads back to it: the vertices that have
    been taken off the queue, in order, and what the search has come to. -/
inductive Reached (adjacency : List (List Nat)) (members : List Nat) (start : Nat) :
    List Nat → BreadthSearch → Prop where
  | start : Reached adjacency members start [] { queue := [start] }
  | round {gone waiting successors : List Nat} {v : Nat} {search next : BreadthSearch} :
      Reached adjacency members start gone search → search.queue = v :: waiting →
      adjacency[v]? = some successors →
      BreadthSearch.look members start v successors { search with queue := waiting } =
        (next, false) →
      Reached adjacency members start (gone ++ [v]) next

/-- What holds of the vertices that have been taken off the queue and of a search.
    - `order` tells that vertices are queued in the order of their discovery, the start first. -/
structure InOrder (members : List Nat) (start : Nat) (gone : List Nat) (search : BreadthSearch) :
    Prop where
  order : gone ++ search.queue = start :: search.discovered.reverse
  rooted : IsRooted start search.found
  inside : start :: search.discovered ⊆ members

/-! ### Discoveries in order -/

namespace InOrder

variable {members gone : List Nat} {start v w : Nat} {search : BreadthSearch}

theorem mem_iff (inOrder : InOrder members start gone search) :
    v ∈ gone ++ search.queue ↔ v ∈ start :: search.discovered := by
  rw [inOrder.order, List.mem_cons, List.mem_reverse, List.mem_cons]

/-- No vertex is queued twice. -/
theorem nodup (inOrder : InOrder members start gone search) : (gone ++ search.queue).Nodup := by
  have distinct := inOrder.rooted.nodup
  rw [List.nodup_cons] at distinct
  rw [inOrder.order, List.nodup_cons, List.mem_reverse, List.nodup_reverse]
  exact distinct

theorem subset (inOrder : InOrder members start gone search) : gone ++ search.queue ⊆ members :=
  fun _ queued => inOrder.inside (inOrder.mem_iff.mp queued)

theorem discover (inOrder : InOrder members start gone search) (taken : v ∈ gone)
    (member : w ∈ members) (notStart : w ≠ start) (new : w ∉ search.discovered) :
    InOrder members start gone (search.discover w v) where
  order := by
    have order := inOrder.order
    simp only [BreadthSearch.discover, BreadthSearch.discovered, List.map_cons,
      List.reverse_cons] at order ⊢
    rw [← List.append_assoc, order, List.cons_append]
  rooted := by
    apply inOrder.rooted.discovered
    · exact fun known => (List.mem_cons.mp known).elim notStart new
    · exact inOrder.mem_iff.mp (List.mem_append_left _ taken)
  inside := by
    intro u known
    rw [List.mem_cons, BreadthSearch.discovered, BreadthSearch.discover, List.map_cons,
      List.mem_cons] at known
    rcases known with isStart | rfl | old
    · exact inOrder.inside (isStart ▸ List.mem_cons_self)
    · exact member
    · exact inOrder.inside (List.mem_cons_of_mem _ old)

/-- A look at the arcs of a vertex that has been taken off the queue keeps the order. -/
theorem look (inOrder : InOrder members start gone search) (taken : v ∈ gone) (arcs : List Nat) :
    InOrder members start gone (BreadthSearch.look members start v arcs search).1 := by
  induction arcs generalizing search with
  | nil =>
      exact inOrder
  | cons w rest ih =>
      unfold BreadthSearch.look
      split
      · exact ih inOrder
      · split
        · exact inOrder
        · rename_i notStart
          split
          · rename_i fresh
            exact ih (inOrder.discover taken fresh.1 notStart fresh.2)
          · exact ih inOrder

/-- The vertex at the front of the queue is taken off. -/
theorem take {waiting : List Nat} (inOrder : InOrder members start gone search)
    (queued : search.queue = v :: waiting) :
    InOrder members start (gone ++ [v]) { search with queue := waiting } where
  order := by
    rw [List.append_assoc, List.singleton_append, ← queued]
    exact inOrder.order
  rooted := inOrder.rooted
  inside := inOrder.inside

/-- A round keeps the order, whether an arc leads back to the start or none does. -/
theorem round {waiting successors : List Nat} {next : BreadthSearch} {isClosed : Bool}
    (inOrder : InOrder members start gone search) (queued : search.queue = v :: waiting)
    (looked : BreadthSearch.look members start v successors { search with queue := waiting } =
      (next, isClosed)) :
    InOrder members start (gone ++ [v]) next := by
  have taken : v ∈ gone ++ [v] := List.mem_append_right _ (List.mem_singleton_self v)
  have kept := (inOrder.take queued).look taken successors
  rw [looked] at kept
  exact kept

end InOrder

/-- A round in which an arc of `v` leads back to the start. -/
inductive ComesBack (adjacency : List (List Nat)) (members : List Nat) (start : Nat)
    (search : BreadthSearch) (v : Nat) (last : BreadthSearch) : Prop where
  | intro {waiting successors : List Nat} :
      search.queue = v :: waiting → adjacency[v]? = some successors →
      BreadthSearch.look members start v successors { search with queue := waiting } =
        (last, true) →
      ComesBack adjacency members start search v last

/-- How a search concludes: without a circuit if the queue is empty, and with the way back, told
    from its end, if an arc leads back to the start. -/
inductive Concludes (adjacency : List (List Nat)) (members : List Nat) (start : Nat)
    (search : BreadthSearch) : Option (List Nat) → Prop where
  | empty : search.queue = [] → Concludes adjacency members start search none
  | closed {v : Nat} {last : BreadthSearch} {path : List Nat} :
      ComesBack adjacency members start search v last → LeadsBack start last.found v path →
      Concludes adjacency members start search (some path.reverse)

/-- Whether a search from `start` among members is safe.
    - `once` tells that only members are queued, and none of them twice.
    - `leadsBack` tells that the walk back comes to the start, whenever an arc leads there.
    - `ends` tells that the search ends with a result. -/
structure IsSafeSearch (adjacency : List (List Nat)) (members : List Nat) (start : Nat) :
    Prop where
  once : ∀ gone search, Reached adjacency members start gone search →
    (gone ++ search.queue).Nodup ∧ gone ++ search.queue ⊆ members
  leadsBack : ∀ gone search v last, Reached adjacency members start gone search →
    ComesBack adjacency members start search v last →
    ∃ path, walkBack start last.found v = some path ∧ LeadsBack start last.found v path
  ends : ∃ gone search result, Reached adjacency members start gone search ∧
    Concludes adjacency members start search result ∧
    shortestCircuit? adjacency members start = some result

/-! ### The whole search -/

section Rounds

variable {adjacency : List (List Nat)} {members gone : List Nat} {start v : Nat}
  {search last : BreadthSearch}

/-- Every round keeps the order. -/
theorem Reached.inOrder (reached : Reached adjacency members start gone search)
    (member : start ∈ members) : InOrder members start gone search := by
  induction reached with
  | start =>
      exact ⟨rfl, .start, List.cons_subset.mpr ⟨member, List.nil_subset _⟩⟩
  | round _ queued _ looked ih =>
      exact ih.round queued looked

/-- Once an arc leads back to the start, the walk along the discoveries does so too. -/
theorem ComesBack.exists_leadsBack (comesBack : ComesBack adjacency members start search v last)
    (inOrder : InOrder members start gone search) :
    ∃ path, LeadsBack start last.found v path ∧ path ⊆ members := by
  obtain ⟨queued, _, looked⟩ := comesBack
  have inOrder' := inOrder.round queued looked
  have known : v ∈ start :: last.discovered := inOrder'.mem_iff.mp
    (List.mem_append_left _ (List.mem_append_right _ (List.mem_singleton_self v)))
  obtain ⟨path, leads⟩ := inOrder'.rooted.exists_leadsBack known
  exact ⟨path, leads, fun u onPath => inOrder'.inside (leads.subset onPath)⟩

/-- From every round on the search ends, by the number of what is pending. -/
theorem Reached.exists_result (reached : Reached adjacency members start gone search)
    (member : start ∈ members) (valid : ∀ v ∈ members, v < adjacency.length) :
    ∃ gone' last result, Reached adjacency members start gone' last ∧
      Concludes adjacency members start last result ∧
      search.run adjacency members start = some result := by
  induction search using BreadthSearch.run.induct adjacency members start generalizing gone with
  | case1 search empty =>
      exact ⟨gone, search, none, reached, .empty empty, BreadthSearch.run_of_empty empty _ _ _⟩
  | case2 search v waiting queued outside =>
      have queuedHere : v ∈ gone ++ search.queue :=
        List.mem_append_right _ (queued ▸ List.mem_cons_self)
      have inside := valid v ((reached.inOrder member).subset queuedHere)
      rw [List.getElem?_eq_getElem inside] at outside
      exact absurd outside (Option.some_ne_none _)
  | case3 search v waiting queued successors listed last looked =>
      have comesBack : ComesBack adjacency members start search v last :=
        .intro queued listed looked
      obtain ⟨path, leads, _⟩ := comesBack.exists_leadsBack (reached.inOrder member)
      refine ⟨gone, search, some path.reverse, reached, .closed comesBack leads, ?_⟩
      simp only [BreadthSearch.run_of_queued queued listed, looked, leads.walkBack_eq,
        Option.map_some]
  | case4 search v waiting queued successors listed next looked ih =>
      obtain ⟨gone', last, result, reached', concludes, result_eq⟩ :=
        ih (reached.round queued listed looked)
      refine ⟨gone', last, result, reached', concludes, ?_⟩
      simp only [BreadthSearch.run_of_queued queued listed, looked, result_eq]

/-- A search from a member is safe, whichever vertices the members are. -/
theorem isSafeSearch (member : start ∈ members) (valid : ∀ v ∈ members, v < adjacency.length) :
    IsSafeSearch adjacency members start where
  once gone search reached :=
    ⟨(reached.inOrder member).nodup, (reached.inOrder member).subset⟩
  leadsBack gone search v last reached comesBack := by
    obtain ⟨path, leads, _⟩ := comesBack.exists_leadsBack (reached.inOrder member)
    exact ⟨path, leads.walkBack_eq, leads⟩
  ends := Reached.start.exists_result member valid

/-- There is a result, and a circuit that is found stays among the members. -/
theorem exists_shortestCircuit? (member : start ∈ members)
    (valid : ∀ v ∈ members, v < adjacency.length) :
    ∃ result, shortestCircuit? adjacency members start = some result ∧
      ∀ circuit ∈ result, circuit ⊆ members := by
  obtain ⟨gone, search, result, reached, concludes, result_eq⟩ := (isSafeSearch member valid).ends
  refine ⟨result, result_eq, ?_⟩
  cases concludes with
  | empty _ =>
      exact fun circuit isFound => absurd isFound (Option.not_mem_none circuit)
  | closed comesBack leads =>
      obtain ⟨path, leads', inside⟩ := comesBack.exists_leadsBack (reached.inOrder member)
      have same := leads.unique leads'
      rintro circuit ⟨⟩ u onCircuit
      exact inside (same ▸ List.mem_reverse.mp onCircuit)

end Rounds

end DatasetLineage.Digraph
