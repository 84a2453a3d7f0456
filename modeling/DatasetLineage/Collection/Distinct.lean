/-
Module: DatasetLineage.Collection.Distinct
Purpose: Lists in which every element appears once, in the order of first appearance. Adding an
  element that is already there leaves the list as it is.
Main exports: appendNew, appendAllNew, mem_appendNew, nodup_appendNew, mem_appendAllNew,
  appendNew_eraseDups, appendAllNew_eraseDups, nodup_eraseDups, eraseDups_eq_self
-/

namespace DatasetLineage

variable {α : Type} [DecidableEq α]

/-- A list with an element added at its end, unless the element is there already. -/
def appendNew (elements : List α) (element : α) : List α :=
  if element ∈ elements then elements else elements ++ [element]

/-- A list with several elements added in turn. -/
def appendAllNew (elements additions : List α) : List α := additions.foldl appendNew elements

theorem appendNew_of_mem {element : α} {elements : List α} (h : element ∈ elements) :
    appendNew elements element = elements := if_pos h

theorem appendNew_of_not_mem {element : α} {elements : List α} (h : element ∉ elements) :
    appendNew elements element = elements ++ [element] := if_neg h

@[simp] theorem mem_appendNew {a element : α} {elements : List α} :
    a ∈ appendNew elements element ↔ a ∈ elements ∨ a = element := by
  unfold appendNew
  split
  · constructor
    · exact Or.inl
    · rintro (h | rfl) <;> assumption
  · simp

theorem nodup_appendNew {element : α} {elements : List α} (h : elements.Nodup) :
    (appendNew elements element).Nodup := by
  unfold appendNew
  split
  · exact h
  · rename_i absent
    rw [List.nodup_append]
    refine ⟨h, by simp, ?_⟩
    rintro a ha b hb rfl
    exact absent (List.mem_singleton.mp hb ▸ ha)

@[simp] theorem mem_appendAllNew {a : α} {elements additions : List α} :
    a ∈ appendAllNew elements additions ↔ a ∈ elements ∨ a ∈ additions := by
  unfold appendAllNew
  induction additions generalizing elements with
  | nil => simp
  | cons b rest ih => simp [ih, or_assoc]

theorem nodup_appendAllNew {elements additions : List α} (h : elements.Nodup) :
    (appendAllNew elements additions).Nodup := by
  unfold appendAllNew
  induction additions generalizing elements with
  | nil => exact h
  | cons b rest ih => exact ih (nodup_appendNew h)

/-- Adding to a list of first appearances gives the first appearances of the longer list. -/
theorem appendNew_eraseDups (elements : List α) (element : α) :
    appendNew elements.eraseDups element = (elements ++ [element]).eraseDups := by
  rw [List.eraseDups_append]
  by_cases present : element ∈ elements <;>
    simp [appendNew, List.removeAll, present, List.eraseDups_cons]

theorem appendAllNew_eraseDups (elements additions : List α) :
    appendAllNew elements.eraseDups additions = (elements ++ additions).eraseDups := by
  unfold appendAllNew
  induction additions generalizing elements with
  | nil => simp
  | cons b rest ih =>
    rw [List.foldl_cons, appendNew_eraseDups, ih, List.append_assoc, List.singleton_append]

theorem nodup_eraseDups (elements : List α) : elements.eraseDups.Nodup := by
  have grown := appendAllNew_eraseDups [] elements
  rw [List.eraseDups_nil, List.nil_append] at grown
  rw [← grown]
  exact nodup_appendAllNew List.nodup_nil

/-- A list in which every element appears once is the list of its first appearances. -/
theorem eraseDups_eq_self {elements : List α} (distinct : elements.Nodup) :
    elements.eraseDups = elements := by
  induction elements with
  | nil => exact List.eraseDups_nil
  | cons a rest ih =>
    rw [List.nodup_cons] at distinct
    have others : rest.filter (fun b => !b == a) = rest := by
      rw [List.filter_eq_self]
      intro b member
      have different : b ≠ a := fun same => distinct.1 (same ▸ member)
      simpa using different
    rw [List.eraseDups_cons, others, ih distinct.2]

/-- Elements that are there already add nothing. -/
theorem eraseDups_append_of_subset {elements additions : List α} (h : additions ⊆ elements) :
    (elements ++ additions).eraseDups = elements.eraseDups := by
  have nothingNew : additions.removeAll elements = [] := by
    rw [List.removeAll, List.filter_eq_nil_iff]
    intro a added
    simp [h added]
  rw [List.eraseDups_append, nothingNew, List.eraseDups_nil, List.append_nil]

end DatasetLineage
