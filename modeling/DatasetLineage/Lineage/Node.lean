/-
Module: DatasetLineage.Lineage.Node
Purpose: What lineage is about: datasets, known by their names, and external files, known by their
  paths. Every dataset comes before every file; of two of a kind the one whose name is smaller by
  code points comes first.
Main exports: Node, Node.before, Node.smaller, Node.lt_irrefl, Node.lt_asymm, Node.lt_trans,
  Node.eq_of_not_lt, Node.not_lt_trans, Node.not_lt_smaller_left, Node.not_lt_smaller_right
-/

namespace DatasetLineage

/-- A dataset or an external file. -/
inductive Node where
  | dataset (name : String)
  | file (path : String)
deriving DecidableEq, Repr, Inhabited

namespace Node

/-- The name of a dataset, the path of a file. -/
def name : Node → String
  | dataset name => name
  | file path => path

/-- The order of nodes. -/
def before : Node → Node → Bool
  | dataset a, dataset b => a < b
  | dataset _, file _ => true
  | file _, dataset _ => false
  | file a, file b => a < b

instance : LT Node := ⟨fun a b => a.before b = true⟩

instance : DecidableLT Node := fun a b => inferInstanceAs (Decidable (a.before b = true))

/-- The smaller of two nodes. -/
def smaller (a b : Node) : Node := if b < a then b else a

@[simp] theorem dataset_lt_dataset {a b : String} : dataset a < dataset b ↔ a < b :=
  decide_eq_true_iff

@[simp] theorem file_lt_file {a b : String} : file a < file b ↔ a < b :=
  decide_eq_true_iff

@[simp] theorem dataset_lt_file (a b : String) : dataset a < file b := rfl

@[simp] theorem not_file_lt_dataset (a b : String) : ¬ file a < dataset b := Bool.false_ne_true

theorem lt_irrefl (a : Node) : ¬ a < a := by
  cases a with
  | dataset a =>
      simp
  | file a =>
      simp

theorem lt_asymm {a b : Node} (below : a < b) : ¬ b < a := by
  cases a with
  | dataset a =>
      cases b with
      | dataset b =>
          rw [dataset_lt_dataset] at below ⊢
          exact String.lt_asymm below
      | file b =>
          exact not_file_lt_dataset b a
  | file a =>
      cases b with
      | dataset b =>
          exact absurd below (not_file_lt_dataset a b)
      | file b =>
          rw [file_lt_file] at below ⊢
          exact String.lt_asymm below

theorem lt_trans {a b c : Node} (ab : a < b) (bc : b < c) : a < c := by
  cases c with
  | dataset c =>
      cases b with
      | dataset b =>
          cases a with
          | dataset a =>
              rw [dataset_lt_dataset] at ab bc ⊢
              exact String.lt_trans ab bc
          | file a =>
              exact absurd ab (not_file_lt_dataset a b)
      | file b =>
          exact absurd bc (not_file_lt_dataset b c)
  | file c =>
      cases a with
      | dataset a =>
          exact dataset_lt_file a c
      | file a =>
          cases b with
          | dataset b =>
              exact absurd ab (not_file_lt_dataset a b)
          | file b =>
              rw [file_lt_file] at ab bc ⊢
              exact String.lt_trans ab bc

theorem eq_of_not_lt {a b : Node} (notBelow : ¬ a < b) (notAbove : ¬ b < a) : a = b := by
  cases a with
  | dataset a =>
      cases b with
      | dataset b =>
          rw [dataset_lt_dataset, String.not_lt] at notBelow notAbove
          rw [String.le_antisymm notAbove notBelow]
      | file b =>
          exact absurd (dataset_lt_file a b) notBelow
  | file a =>
      cases b with
      | dataset b =>
          exact absurd (dataset_lt_file b a) notAbove
      | file b =>
          rw [file_lt_file, String.not_lt] at notBelow notAbove
          rw [String.le_antisymm notAbove notBelow]

theorem not_lt_trans {a b c : Node} (notAB : ¬ a < b) (notBC : ¬ b < c) : ¬ a < c := by
  intro below
  by_cases same : b = a
  · exact notBC (same ▸ below)
  · -- nodes of which neither is smaller are equal
    have notBA : ¬ ¬ b < a := fun notBA => same (eq_of_not_lt notBA notAB)
    exact notBC (lt_trans (Decidable.not_not.mp notBA) below)

instance : Std.Irrefl ((· < ·) : Node → Node → Prop) := ⟨lt_irrefl⟩

instance : Std.Asymm ((· < ·) : Node → Node → Prop) := ⟨fun _ _ => lt_asymm⟩

instance : Std.Trichotomous ((· < ·) : Node → Node → Prop) := ⟨fun _ _ => eq_of_not_lt⟩

instance : Trans ((¬ · < ·) : Node → Node → Prop) ((¬ · < ·) : Node → Node → Prop)
    ((¬ · < ·) : Node → Node → Prop) := ⟨not_lt_trans⟩

/-- Lists of nodes are compared by their first difference. -/
theorem list_le_trans {a b c : List Node} (ab : a ≤ b) (bc : b ≤ c) : a ≤ c := by
  let _ := LE.ofLT Node
  have : Std.IsLinearOrder Node := Std.IsLinearOrder.of_lt
  exact List.le_trans ab bc

theorem not_lt_smaller_left (a b : Node) : ¬ a < smaller a b := by
  unfold smaller
  split
  · rename_i below
    exact lt_asymm below
  · exact lt_irrefl a

theorem not_lt_smaller_right (a b : Node) : ¬ b < smaller a b := by
  unfold smaller
  split
  · exact lt_irrefl b
  · rename_i notBelow
    exact notBelow

end Node

end DatasetLineage
