/-
Module: DatasetLineage.Collection.Sorted
Purpose: Lists put in order by insertion. Elements that neither precedes strictly keep the order
  they had. Each element is inserted before the first one that it may precede, starting from the
  last, so a list that is nearly in order takes few steps.
Main exports: insertInOrder, inOrder, insertInOrder_perm, inOrder_perm,
  pairwise_inOrder, inOrder_eq_self, filter_inOrder, inOrder_map
-/

namespace DatasetLineage

variable {α β : Type}

/-- A list with an element inserted before the first one that it may precede. -/
def insertInOrder (precedes : α → α → Bool) (element : α) : List α → List α
  | [] => [element]
  | first :: rest =>
    if precedes element first then element :: first :: rest
    else first :: insertInOrder precedes element rest

/-- The elements of a list in order. -/
def inOrder (precedes : α → α → Bool) : List α → List α
  | [] => []
  | first :: rest => insertInOrder precedes first (inOrder precedes rest)

theorem insertInOrder_perm (precedes : α → α → Bool) (element : α) (elements : List α) :
    (insertInOrder precedes element elements).Perm (element :: elements) := by
  induction elements with
  | nil => exact List.Perm.refl _
  | cons first rest ih =>
    unfold insertInOrder
    split
    · exact List.Perm.refl _
    · exact (ih.cons first).trans (List.Perm.swap element first rest)

/-- Putting a list in order neither adds nor drops elements. -/
theorem inOrder_perm (precedes : α → α → Bool) (elements : List α) :
    (inOrder precedes elements).Perm elements := by
  induction elements with
  | nil => exact List.Perm.refl _
  | cons first rest ih =>
    exact (insertInOrder_perm precedes first (inOrder precedes rest)).trans (ih.cons first)

/-- Inserting an element keeps a list in order. -/
theorem pairwise_insertInOrder {precedes : α → α → Bool}
    (total : ∀ a b, precedes a b = true ∨ precedes b a = true)
    (trans : ∀ a b c, precedes a b = true → precedes b c = true → precedes a c = true)
    (element : α) {elements : List α} (sorted : elements.Pairwise (precedes · · = true)) :
    (insertInOrder precedes element elements).Pairwise (precedes · · = true) := by
  induction elements with
  | nil =>
      exact List.pairwise_singleton _ element
  | cons first rest ih =>
      rw [List.pairwise_cons] at sorted
      unfold insertInOrder
      split
      · rename_i inFront
        refine List.pairwise_cons.mpr ⟨?_, List.pairwise_cons.mpr sorted⟩
        intro other member
        rcases List.mem_cons.mp member with rfl | later
        · exact inFront
        · exact trans _ _ _ inFront (sorted.1 other later)
      · rename_i behind
        refine List.pairwise_cons.mpr ⟨?_, ih sorted.2⟩
        intro other member
        rw [(insertInOrder_perm precedes element rest).mem_iff] at member
        rcases List.mem_cons.mp member with rfl | later
        · exact (total first other).resolve_right behind
        · exact sorted.1 other later

/-- The list that is put in order is in order. -/
theorem pairwise_inOrder {precedes : α → α → Bool}
    (total : ∀ a b, precedes a b = true ∨ precedes b a = true)
    (trans : ∀ a b c, precedes a b = true → precedes b c = true → precedes a c = true)
    (elements : List α) : (inOrder precedes elements).Pairwise (precedes · · = true) := by
  induction elements with
  | nil =>
      exact List.Pairwise.nil
  | cons first rest ih =>
      exact pairwise_insertInOrder total trans first ih

/-! ### Parts that are in order -/

section Parts

variable {precedes : α → α → Bool} {element : α} {elements : List α}

theorem insertInOrder_eq_cons (inFront : ∀ other ∈ elements, precedes element other = true) :
    insertInOrder precedes element elements = element :: elements := by
  cases elements with
  | nil =>
      rfl
  | cons first rest =>
      rw [insertInOrder, if_pos (inFront first List.mem_cons_self)]

/-- A list that is in order stays as it is. -/
theorem inOrder_eq_self (sorted : elements.Pairwise (precedes · · = true)) :
    inOrder precedes elements = elements := by
  induction elements with
  | nil =>
      rfl
  | cons first rest ih =>
      rw [List.pairwise_cons] at sorted
      rw [inOrder, ih sorted.2, insertInOrder_eq_cons sorted.1]

theorem filter_insertInOrder
    (trans : ∀ a b c, precedes a b = true → precedes b c = true → precedes a c = true)
    (keep : α → Bool) (element : α) (sorted : elements.Pairwise (precedes · · = true)) :
    (insertInOrder precedes element elements).filter keep =
      if keep element then insertInOrder precedes element (elements.filter keep)
      else elements.filter keep := by
  induction elements with
  | nil =>
      cases kept : keep element <;> simp [insertInOrder, kept]
  | cons first rest ih =>
      rw [List.pairwise_cons] at sorted
      by_cases inFront : precedes element first = true
      · -- the element may precede all that follows, so also what is kept of it
        have inFrontOfAll : ∀ other ∈ (first :: rest).filter keep,
            precedes element other = true := by
          intro other member
          rcases List.mem_cons.mp (List.mem_filter.mp member).1 with rfl | later
          · exact inFront
          · exact trans _ _ _ inFront (sorted.1 other later)
        rw [insertInOrder, if_pos inFront, insertInOrder_eq_cons inFrontOfAll]
        cases kept : keep element <;> simp [kept]
      · rw [insertInOrder, if_neg inFront, List.filter_cons, List.filter_cons, ih sorted.2]
        cases keep element with
        | false =>
            rfl
        | true =>
            cases keep first with
            | false =>
                rfl
            | true =>
                simp [insertInOrder, inFront]

/-- Elements that are picked out of a list in order are in the order that they have by
    themselves. -/
theorem filter_inOrder (total : ∀ a b, precedes a b = true ∨ precedes b a = true)
    (trans : ∀ a b c, precedes a b = true → precedes b c = true → precedes a c = true)
    (keep : α → Bool) (elements : List α) :
    (inOrder precedes elements).filter keep = inOrder precedes (elements.filter keep) := by
  induction elements with
  | nil =>
      rfl
  | cons first rest ih =>
      rw [inOrder, filter_insertInOrder trans keep first (pairwise_inOrder total trans rest), ih,
        List.filter_cons]
      cases keep first <;> rfl

end Parts

/-! ### Images -/

section Map

variable {f : α → β} {precedes : α → α → Bool} {precedes' : β → β → Bool}

theorem insertInOrder_map (keeps : ∀ a b, precedes' (f a) (f b) = precedes a b) (element : α)
    (elements : List α) :
    insertInOrder precedes' (f element) (elements.map f) =
      (insertInOrder precedes element elements).map f := by
  induction elements with
  | nil =>
      rfl
  | cons first rest ih =>
      rw [List.map_cons, insertInOrder, insertInOrder, keeps, ih]
      split
      · rfl
      · rfl

/-- A map that keeps what may precede what keeps the order of a list that is put in order. -/
theorem inOrder_map (keeps : ∀ a b, precedes' (f a) (f b) = precedes a b) (elements : List α) :
    inOrder precedes' (elements.map f) = (inOrder precedes elements).map f := by
  induction elements with
  | nil =>
      rfl
  | cons first rest ih =>
      rw [List.map_cons, inOrder, inOrder, ih, insertInOrder_map keeps]

end Map

end DatasetLineage
