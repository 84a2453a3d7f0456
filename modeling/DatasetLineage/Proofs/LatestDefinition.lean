/-
Module: DatasetLineage.Proofs.LatestDefinition
Purpose: Edges follow the latest definition. What a statement derives is told by the statements in
  front of it: a read feeds the dataset that was defined last among them, however many procedure
  steps and other statements stand between, and a procedure step names its own targets. The target
  that is carried from statement to statement is that name in lower case at every place, so the
  edges of a program are those of its statements, each behind its own history.
Main exports: Statement.definition?, latestDefinition?, Statement.edgesBehind,
  foldl_targetAfter_eq_latest, edgesFrom_eq_mapIdx, FollowsDefinitions, followsDefinitions_resolve
-/
import DatasetLineage.Proofs.LowercaseForms
import DatasetLineage.Proofs.OrphanReads
import Mathlib.Data.List.Basic

namespace DatasetLineage

open Text

/-- The name of the dataset that a statement defines. -/
def Statement.definition? : Statement → Option Mention
  | datasetDef name => some name
  | _ => none

/-- The name that was defined last in a history, which is a list of statements. -/
def latestDefinition? (history : List Statement) : Option Mention :=
  (history.filterMap Statement.definition?).getLast?

/-- The target of a read behind a history. -/
def targetBehind (history : List Statement) : Option String :=
  (latestDefinition? history).map fun name => lowercase name.text

/-- The edges of a statement behind a history. A read has the target behind the history. A
    procedure step goes through its outputs, and for each of them through its inputs. -/
def Statement.edgesBehind (file : String) (history : List Statement) : Statement → List Edge
  | readSource _ names =>
    names.map fun name => ⟨targetBehind history, .dataset (lowercase name.text), file⟩
  | readExternal _ path => [⟨targetBehind history, .file path.text, file⟩]
  | procStep step =>
    (step.outputs ×ˢ step.inputs).map fun (output, input) =>
      ⟨some (lowercase output.text), .dataset (lowercase input.text), file⟩
  | datasetDef _ | other => []

/-- Whether edges are those of statements, each behind the statements in front of it.
    - `derived`: they are given statement by statement, in order.
    - `latest`: the target of a read is what was defined last, in lower case, whatever statements
      that define nothing stand between.
    - `orphan`: it is absent if nothing was defined, and in no other case.
    - `origin`: all of them are from the file. -/
structure FollowsDefinitions (file : String) (statements : List Statement) (edges : List Edge) :
    Prop where
  derived : edges = (statements.mapIdx fun i statement =>
    statement.edgesBehind file (statements.take i)).flatten
  latest : ∀ front name between statement back,
    statements = front ++ .datasetDef name :: between ++ statement :: back →
      (∀ passed ∈ between, passed.defines = false) → statement.read?.isSome = true →
        ∀ edge ∈ statement.edgesBehind file (front ++ .datasetDef name :: between),
          edge.target = some (lowercase name.text)
  orphan : ∀ front statement back, statements = front ++ statement :: back →
    statement.read?.isSome = true → ∀ edge ∈ statement.edgesBehind file front,
      (edge.target = none ↔ ∀ earlier ∈ front, earlier.defines = false)
  origin : ∀ edge ∈ edges, edge.origin = file

section Histories

variable {history front between : List Statement} {statement : Statement} {name : Mention}

theorem Statement.definition?_eq_none_iff :
    statement.definition? = none ↔ statement.defines = false := by
  cases statement <;> simp [definition?, defines]

theorem latestDefinition?_eq_none_iff :
    latestDefinition? history = none ↔ ∀ earlier ∈ history, earlier.defines = false := by
  rw [latestDefinition?, List.getLast?_eq_none_iff, List.filterMap_eq_nil_iff]
  simp only [Statement.definition?_eq_none_iff]

/-- A definition is the latest one as long as only statements that define nothing follow. -/
theorem latestDefinition?_append (none : ∀ passed ∈ between, passed.defines = false) :
    latestDefinition? (front ++ .datasetDef name :: between) = some name := by
  have nothing : between.filterMap Statement.definition? = [] := by
    apply List.filterMap_eq_nil_iff.mpr
    intro passed member
    exact Statement.definition?_eq_none_iff.mpr (none passed member)
  rw [latestDefinition?, List.filterMap_append, List.filterMap_cons, Statement.definition?, nothing]
  exact List.getLast?_concat

/-- One more statement makes its own name the latest, or leaves the latest name as it is. -/
theorem targetBehind_concat (history : List Statement) (statement : Statement) :
    targetBehind (history ++ [statement]) = statement.targetAfter (targetBehind history) := by
  cases statement with
  | datasetDef name =>
      have noMore : ∀ passed ∈ ([] : List Statement), passed.defines = false := by simp
      rw [targetBehind, latestDefinition?_append noMore]
      rfl
  | _ =>
      simp [targetBehind, latestDefinition?, Statement.definition?, Statement.targetAfter]

/-- The target that is carried along a history is the latest name in lower case. -/
theorem foldl_targetAfter_eq_latest (history : List Statement) :
    history.foldl Statement.targetAfter none = targetBehind history := by
  induction history using List.reverseRecOn with
  | nil =>
      rfl
  | append_singleton history statement ih =>
      rw [List.foldl_append, ih, targetBehind_concat]
      rfl

/-- A target is in lower case already. -/
theorem map_lowercase_targetBehind (history : List Statement) :
    (targetBehind history).map lowercase = targetBehind history := by
  unfold targetBehind
  cases latestDefinition? history with
  | none =>
      rfl
  | some name =>
      exact congrArg some (lowercase_lowercase name.text)

end Histories

section Edges

variable {file : String} {history : List Statement} {statement : Statement} {edge : Edge}

/-- With the target behind a history, a statement has its edges behind that history. -/
theorem Statement.edges_targetBehind (file : String) (history : List Statement)
    (statement : Statement) :
    statement.edges file (targetBehind history) = statement.edgesBehind file history := by
  have target := map_lowercase_targetBehind history
  cases statement with
  | readSource keyword names =>
      simp only [edges, edgesBehind, Edge.fromDataset, target]
  | readExternal keyword path =>
      simp only [edges, edgesBehind, Edge.fromFile, target]
  | procStep step =>
      simp only [edges, edgesBehind, Edge.fromDataset, Option.map_some, SProd.sprod, List.product,
        List.map_flatMap, List.map_map]
      rfl
  | _ =>
      rfl

/-- Statements behind a history have their edges behind it and the statements before them. -/
theorem edgesFrom_eq_mapIdx (file : String) (history statements : List Statement) :
    edgesFrom file (targetBehind history) statements =
      statements.mapIdx fun i statement =>
        statement.edgesBehind file (history ++ statements.take i) := by
  induction statements generalizing history with
  | nil =>
      rfl
  | cons first rest ih =>
      have later := ih (history ++ [first])
      rw [targetBehind_concat] at later
      rw [edgesFrom, later, List.mapIdx_cons, first.edges_targetBehind]
      simp [List.append_assoc]

theorem target_of_mem_edgesBehind (reads : statement.read?.isSome = true)
    (member : edge ∈ statement.edgesBehind file history) : edge.target = targetBehind history := by
  cases statement with
  | readSource keyword names =>
      obtain ⟨name, _, rfl⟩ := List.mem_map.mp member
      rfl
  | readExternal keyword path =>
      cases List.mem_singleton.mp member
      rfl
  | _ =>
      exact absurd reads Bool.false_ne_true

end Edges

/-- The edges of the statements of a file follow the definitions among them. -/
theorem followsDefinitions_resolve (file : String) (statements : List Statement) :
    FollowsDefinitions file statements (resolve file statements).1 where
  derived := by
    have run := edgesFrom_eq_mapIdx file [] statements
    rw [resolve_eq]
    exact congrArg List.flatten run
  latest front name between statement back _ none reads edge member := by
    rw [target_of_mem_edgesBehind reads member, targetBehind, latestDefinition?_append none]
    rfl
  orphan front statement back _ reads edge member := by
    rw [target_of_mem_edgesBehind reads member, targetBehind, Option.map_eq_none_iff]
    exact latestDefinition?_eq_none_iff
  origin edge member := by
    rw [resolve_eq] at member
    obtain ⟨_, _, _, _, here⟩ := mem_flatten_edgesFrom.mp member
    exact Statement.origin_of_mem_edges here

end DatasetLineage
