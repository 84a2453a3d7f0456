/-
Module: DatasetLineage.Proofs.DigraphLevels
Purpose: The levels around a vertex. A level lists the successors of the level before it that are in
  no earlier level, so it holds exactly the vertices at that distance. Successors that are listed
  more than once make no difference to the levels.
Main exports: Link, unseen, level, levels, mem_level_iff, level_succ_eq_unseen, level_eraseDups,
  mem_start_levels_iff, mem_levels_iff, pairwise_levels, levels_prefix
-/
import DatasetLineage.Collection.Distinct
import DatasetLineage.Proofs.DigraphWalk

namespace DatasetLineage.Digraph

variable {α : Type}

/-- The relation that successor lists describe. -/
def Link (successors : α → List α) (v w : α) : Prop := w ∈ successors v

variable [DecidableEq α]

/-- The vertices of a list that are not in `seen`, each at its first appearance only. -/
def unseen (seen : List α) : List α → List α
  | [] => []
  | v :: rest => if v ∈ seen then unseen seen rest else v :: unseen (v :: seen) rest

/-! ### Elements not seen before -/

section Unseen

variable {seen seen' : List α}

theorem unseen_congr (same : ∀ v, v ∈ seen ↔ v ∈ seen') (vertices : List α) :
    unseen seen vertices = unseen seen' vertices := by
  induction vertices generalizing seen seen' with
  | nil =>
      rfl
  | cons v rest ih =>
      have same' : ∀ w, w ∈ v :: seen ↔ w ∈ v :: seen' := by
        intro w
        rw [List.mem_cons, List.mem_cons, same w]
      rw [unseen, unseen, ih same, ih same', if_congr (same v) rfl rfl]

/-- Unseen vertices are those of the list that are not in `seen`, at their first appearance. -/
theorem unseen_eq_eraseDups (seen vertices : List α) :
    unseen seen vertices = (vertices.filter (· ∉ seen)).eraseDups := by
  induction vertices generalizing seen with
  | nil =>
      rfl
  | cons v rest ih =>
      by_cases old : v ∈ seen
      · rw [unseen, if_pos old, ih, List.filter_cons_of_neg (by simpa using old)]
      · have later : rest.filter (· ∉ v :: seen) =
            (rest.filter (· ∉ seen)).filter fun w => !w == v := by
          rw [List.filter_filter]
          apply List.filter_congr
          intro w _
          simp [beq_eq_decide]
        rw [unseen, if_neg old, ih, List.filter_cons_of_pos (by simpa using old),
          List.eraseDups_cons, later]

/-- What is unseen of a list completes `seen` to all that either holds. -/
theorem mem_unseen_append_iff {v : α} {vertices : List α} :
    v ∈ unseen seen vertices ++ seen ↔ v ∈ vertices ++ seen := by
  rw [unseen_eq_eraseDups, List.mem_append, List.mem_append, List.mem_eraseDups, List.mem_filter,
    decide_eq_true_iff]
  tauto

theorem unseen_append (seen front back : List α) :
    unseen seen (front ++ back) = unseen seen front ++ unseen (front ++ seen) back := by
  induction front generalizing seen with
  | nil =>
      rfl
  | cons v rest ih =>
      by_cases old : v ∈ seen
      · have same : ∀ w, w ∈ rest ++ seen ↔ w ∈ v :: rest ++ seen := by
          intro w
          simp only [List.cons_append, List.mem_cons, List.mem_append]
          exact ⟨.inr, fun h => h.elim (fun isV => .inr (isV ▸ old)) id⟩
        rw [List.cons_append, unseen, if_pos old, ih, unseen, if_pos old, unseen_congr same]
      · have same : ∀ w, w ∈ rest ++ v :: seen ↔ w ∈ v :: rest ++ seen := by
          intro w
          simp only [List.cons_append, List.mem_cons, List.mem_append]
          exact or_left_comm
        rw [List.cons_append, unseen, if_neg old, ih, unseen, if_neg old, unseen_congr same]
        rfl

/-- Repetitions in a list make no difference to what of it is unseen. -/
theorem unseen_eraseDups (seen vertices : List α) :
    unseen seen vertices.eraseDups = unseen seen vertices := by
  induction vertices using List.reverseRec with
  | nil =>
      rfl
  | append_singleton front v ih =>
      rw [← appendNew_eraseDups, unseen_append]
      by_cases repeated : v ∈ front
      · have known : v ∈ front ++ seen := List.mem_append_left seen repeated
        rw [appendNew_of_mem (List.mem_eraseDups.mpr repeated), ih, unseen, if_pos known, unseen,
          List.append_nil]
      · have same : ∀ w, w ∈ front.eraseDups ++ seen ↔ w ∈ front ++ seen := by
          intro w
          rw [List.mem_append, List.mem_append, List.mem_eraseDups]
        have new : v ∉ front.eraseDups := fun h => repeated (List.mem_eraseDups.mp h)
        rw [appendNew_of_not_mem new, unseen_append, ih, unseen_congr same]

/-- Nor do repetitions among the successors of each vertex of a level. -/
theorem unseen_flatMap_eraseDups (successors : α → List α) (seen vertices : List α) :
    unseen seen (vertices.flatMap fun v => (successors v).eraseDups) =
      unseen seen (vertices.flatMap successors) := by
  induction vertices generalizing seen with
  | nil =>
      rfl
  | cons v rest ih =>
      have same : ∀ w, w ∈ (successors v).eraseDups ++ seen ↔ w ∈ successors v ++ seen := by
        intro w
        rw [List.mem_append, List.mem_append, List.mem_eraseDups]
      rw [List.flatMap_cons, List.flatMap_cons, unseen_append, unseen_append, unseen_eraseDups,
        unseen_congr same, ih]

end Unseen

/-- The vertices at a number of hops from `start`: `start` alone at none, and at each hop more the
    successors of the level before, in order and once each, that are in no level so far. -/
def level (successors : α → List α) (start : α) : Nat → List α
  | 0 => [start]
  | k + 1 =>
    (((level successors start k).flatMap successors).filter fun v =>
      ∀ j : Fin (k + 1), v ∉ level successors start j).eraseDups
decreasing_by all_goals omega

/-- The levels from the first to the one at `hops`, one behind the other. -/
def levels (successors : α → List α) (start : α) (hops : Nat) : List α :=
  (List.range hops).flatMap fun k => level successors start (k + 1)

/-! ### Levels -/

section Levels

variable {successors : α → List α} {start v w : α} {k hops : Nat}

theorem level_zero (successors : α → List α) (start : α) : level successors start 0 = [start] := by
  rw [level]

theorem mem_level_succ :
    w ∈ level successors start (k + 1) ↔
      (∃ v ∈ level successors start k, w ∈ successors v) ∧
        ∀ j ≤ k, w ∉ level successors start j := by
  rw [level, List.mem_eraseDups, List.mem_filter, List.mem_flatMap, decide_eq_true_iff]
  constructor
  · rintro ⟨found, new⟩
    exact ⟨found, fun j near => new ⟨j, Nat.lt_succ_of_le near⟩⟩
  · rintro ⟨found, new⟩
    exact ⟨found, fun j => new j (Nat.le_of_lt_succ j.isLt)⟩

/-- A level holds exactly the vertices at its distance. -/
theorem mem_level_iff :
    v ∈ level successors start k ↔ IsDistance (Link successors) start k v := by
  induction k using Nat.strongRecOn generalizing v with
  | ind k ih =>
      cases k with
      | zero =>
          rw [level_zero, List.mem_singleton, isDistance_zero_iff]
      | succ k =>
          rw [mem_level_succ]
          constructor
          · rintro ⟨⟨u, inLevel, link⟩, new⟩
            refine ⟨((ih k k.lt_succ_self).mp inLevel).1.next link, fun j below walk => ?_⟩
            obtain ⟨i, near, distance⟩ := walk.exists_isDistance
            have within : i ≤ k := Nat.le_trans near (Nat.le_of_lt_succ below)
            exact new i within ((ih i (Nat.lt_succ_of_le within)).mpr distance)
          · rintro ⟨walk, farther⟩
            cases walk with
            | @next _ u _ walk link =>
                refine ⟨⟨u, (ih k k.lt_succ_self).mpr ⟨walk, ?_⟩, link⟩, ?_⟩
                · intro j below nearer
                  exact farther (j + 1) (Nat.succ_lt_succ below) (nearer.next link)
                · intro j near inLevel
                  have below := Nat.lt_succ_of_le near
                  exact farther j below ((ih j below).mp inLevel).1

theorem nodup_level (successors : α → List α) (start : α) (k : Nat) :
    (level successors start k).Nodup := by
  cases k with
  | zero =>
      rw [level_zero]
      exact List.nodup_singleton start
  | succ k =>
      rw [level]
      exact nodup_eraseDups _

/-- A level is what is unseen of the successors of the one before, if all earlier levels have been
    seen. -/
theorem level_succ_eq_unseen {seen : List α}
    (known : ∀ v, v ∈ seen ↔ ∃ j ≤ k, v ∈ level successors start j) :
    level successors start (k + 1) =
      unseen seen ((level successors start k).flatMap successors) := by
  rw [unseen_eq_eraseDups, level]
  congr 1
  apply List.filter_congr
  intro v _
  rw [decide_eq_decide, known]
  constructor
  · rintro new ⟨j, near, inLevel⟩
    exact new ⟨j, Nat.lt_succ_of_le near⟩ inLevel
  · rintro new j inLevel
    exact new ⟨j, Nat.le_of_lt_succ j.isLt, inLevel⟩

/-- Repetitions among successors leave the levels as they are. -/
theorem level_eraseDups (successors : α → List α) (start : α) (k : Nat) :
    level (fun v => (successors v).eraseDups) start k = level successors start k := by
  induction k using Nat.strongRecOn with
  | ind k ih =>
      cases k with
      | zero =>
          rw [level_zero, level_zero]
      | succ k =>
          let seen := (List.range (k + 1)).flatMap (level successors start)
          have known : ∀ v, v ∈ seen ↔ ∃ j ≤ k, v ∈ level successors start j := by
            intro v
            simp only [seen, List.mem_flatMap, List.mem_range, Nat.lt_succ_iff]
          have known' : ∀ v, v ∈ seen ↔
              ∃ j ≤ k, v ∈ level (fun v => (successors v).eraseDups) start j := by
            intro v
            rw [known]
            constructor
            · rintro ⟨j, near, inLevel⟩
              exact ⟨j, near, ih j (Nat.lt_succ_of_le near) ▸ inLevel⟩
            · rintro ⟨j, near, inLevel⟩
              exact ⟨j, near, ih j (Nat.lt_succ_of_le near) ▸ inLevel⟩
          rw [level_succ_eq_unseen known, level_succ_eq_unseen known', ih k k.lt_succ_self,
            unseen_flatMap_eraseDups]

theorem level_succ_eq_nil (none : level successors start k = []) :
    level successors start (k + 1) = [] := by
  rw [level, none, List.flatMap_nil, List.filter_nil, List.eraseDups_nil]

theorem level_eq_nil_of_le (none : level successors start k = []) {j : Nat} (later : k ≤ j) :
    level successors start j = [] := by
  induction j, later using Nat.le_induction with
  | base =>
      exact none
  | succ j _ ih =>
      exact level_succ_eq_nil ih

theorem mem_levels : v ∈ levels successors start hops ↔
    ∃ k < hops, v ∈ level successors start (k + 1) := by
  simp [levels]

/-- The start and the levels behind it are the levels from the one at no hops. -/
theorem mem_start_levels_iff :
    v ∈ start :: levels successors start hops ↔ ∃ k ≤ hops, v ∈ level successors start k := by
  rw [List.mem_cons, mem_levels]
  constructor
  · rintro (rfl | ⟨k, below, inLevel⟩)
    · exact ⟨0, Nat.zero_le hops, level_zero successors v ▸ List.mem_singleton_self v⟩
    · exact ⟨k + 1, below, inLevel⟩
  · rintro ⟨k, near, inLevel⟩
    cases k with
    | zero =>
        rw [level_zero] at inLevel
        exact .inl (List.mem_singleton.mp inLevel)
    | succ k =>
        exact .inr ⟨k, near, inLevel⟩

/-- The levels hold what walks of so many links reach, the start left out. -/
theorem mem_levels_iff : v ∈ levels successors start hops ↔
    v ≠ start ∧ ∃ k ≤ hops, Walk (Link successors) start k v := by
  rw [mem_levels]
  constructor
  · rintro ⟨k, below, inLevel⟩
    have distance := mem_level_iff.mp inLevel
    refine ⟨?_, k + 1, below, distance.1⟩
    rintro rfl
    exact distance.2 0 (Nat.succ_pos k) .here
  · rintro ⟨other, k, near, walk⟩
    obtain ⟨j, shorter, distance⟩ := walk.exists_isDistance
    cases j with
    | zero =>
        exact absurd (isDistance_zero_iff.mp distance) other
    | succ j =>
        exact ⟨j, Nat.le_trans shorter near, mem_level_iff.mpr distance⟩

theorem levels_succ (successors : α → List α) (start : α) (hops : Nat) :
    levels successors start (hops + 1) =
      levels successors start hops ++ level successors start (hops + 1) := by
  simp [levels, List.range_succ]

/-- No level follows an empty one. -/
theorem levels_eq_of_empty (none : level successors start (k + 1) = []) (near : k ≤ hops) :
    levels successors start hops = levels successors start k := by
  induction hops, near using Nat.le_induction with
  | base =>
      rfl
  | succ hops near ih =>
      have nothing := level_eq_nil_of_le none (Nat.succ_le_succ near)
      rw [levels_succ, ih, nothing, List.append_nil]

theorem nodup_levels (successors : α → List α) (start : α) (hops : Nat) :
    (levels successors start hops).Nodup := by
  induction hops with
  | zero =>
      exact List.nodup_nil
  | succ hops ih =>
      rw [levels_succ, List.nodup_append]
      refine ⟨ih, nodup_level successors start _, ?_⟩
      rintro v earlier w last rfl
      obtain ⟨k, below, inLevel⟩ := mem_levels.mp earlier
      have same := (mem_level_iff.mp inLevel).unique (mem_level_iff.mp last)
      omega

/-- Nearer vertices come first. -/
theorem pairwise_levels (successors : α → List α) (start : α) (hops : Nat) :
    (levels successors start hops).Pairwise fun v w => ∀ j k,
      IsDistance (Link successors) start j v → IsDistance (Link successors) start k w → j ≤ k := by
  induction hops with
  | zero =>
      exact List.Pairwise.nil
  | succ hops ih =>
      rw [levels_succ, List.pairwise_append]
      refine ⟨ih, List.pairwise_of_forall_mem_list ?_, ?_⟩
      · intro v inLevel w inLevel' j k distance distance'
        rw [distance.unique (mem_level_iff.mp inLevel),
          distance'.unique (mem_level_iff.mp inLevel')]
      · intro v earlier w last j k distance distance'
        obtain ⟨i, below, inLevel⟩ := mem_levels.mp earlier
        rw [distance.unique (mem_level_iff.mp inLevel),
          distance'.unique (mem_level_iff.mp last)]
        omega

/-- More hops only add vertices behind those that fewer hops reach. -/
theorem levels_prefix {fewer more : Nat} (le : fewer ≤ more) :
    levels successors start fewer <+: levels successors start more := by
  induction more, le using Nat.le_induction with
  | base =>
      exact List.prefix_rfl
  | succ more _ ih =>
      rw [levels_succ]
      exact ih.trans (List.prefix_append _ _)

end Levels

end DatasetLineage.Digraph
