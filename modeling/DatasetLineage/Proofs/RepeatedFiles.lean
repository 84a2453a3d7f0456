/-
Module: DatasetLineage.Proofs.RepeatedFiles
Purpose: Files that are given again change nothing. The lineage of some files holds their edges and
  their warnings at their first appearance, and all that a later copy of a file has to add has
  appeared with the first one, whatever stands between the two.
Main exports: eraseDups_flatMap_eraseDups, Extraction.ofFiles_eraseDups
-/
import DatasetLineage.Proofs.FileOrder
import Mathlib.Data.List.Induction

namespace DatasetLineage

variable {α β : Type} [DecidableEq α] [DecidableEq β]

/-- What elements contribute appears first where the first of equal elements contribute it. -/
theorem eraseDups_flatMap_eraseDups (f : α → List β) (elements : List α) :
    (elements.eraseDups.flatMap f).eraseDups = (elements.flatMap f).eraseDups := by
  induction elements using List.reverseRec with
  | nil =>
      rfl
  | append_singleton front last ih =>
      rw [← appendNew_eraseDups, List.flatMap_append, List.flatMap_singleton]
      by_cases again : last ∈ front
      · have contributed : f last ⊆ front.flatMap f :=
          fun _ member => List.mem_flatMap.mpr ⟨last, again, member⟩
        rw [appendNew_of_mem (List.mem_eraseDups.mpr again), ih,
          eraseDups_append_of_subset contributed]
      · have absent : last ∉ front.eraseDups := fun member => again (List.mem_eraseDups.mp member)
        rw [appendNew_of_not_mem absent, List.flatMap_append, List.flatMap_singleton,
          ← appendAllNew_eraseDups, ih, appendAllNew_eraseDups]

namespace Extraction

/-- The lineage of some files, its edges, warnings, nodes and neighbours in their order, is the
    lineage of the files without the later copies of a file. -/
theorem ofFiles_eraseDups (files : List SourceFile) : ofFiles files.eraseDups = ofFiles files := by
  have edges : (edgesOfFiles files.eraseDups).eraseDups = (edgesOfFiles files).eraseDups :=
    eraseDups_flatMap_eraseDups _ files
  have warnings : (warningsOfFiles files.eraseDups).eraseDups =
      (warningsOfFiles files).eraseDups :=
    eraseDups_flatMap_eraseDups _ files
  rw [ofFiles_eq, ofFiles_eq, edges, warnings]

end Extraction

end DatasetLineage
