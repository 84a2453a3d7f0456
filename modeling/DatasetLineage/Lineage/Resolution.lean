/-
Module: DatasetLineage.Lineage.Resolution
Purpose: From the statements of one program file to its edges. Statements are taken in order, with
  the dataset that the latest DATA statement defines as the target of what is read. A read before
  the first DATA statement has no target and is reported. A procedure step derives each of its
  outputs from each of its inputs and leaves the target alone.
Main exports: Statement.targetAfter, Statement.edges, Statement.problems, Resolution, resolve
-/
import DatasetLineage.Lineage.Edge
import DatasetLineage.Program.Diagnostic
import DatasetLineage.Program.Statement

namespace DatasetLineage

open Text

namespace Statement

/-- The target behind a statement. -/
def targetAfter (target : Option String) : Statement → Option String
  | datasetDef name => some (lowercase name.text)
  | _ => target

/-- The edges of a statement. -/
def edges (file : String) (target : Option String) : Statement → List Edge
  | readSource _ names => names.map fun name => Edge.fromDataset target name.text file
  | readExternal _ path => [Edge.fromFile target path.text file]
  | procStep step =>
    step.outputs.flatMap fun output =>
      step.inputs.map fun input => Edge.fromDataset (some output.text) input.text file
  | datasetDef _ | other => []

/-- What is wrong with a statement where it stands. -/
def problems (target : Option String) : Statement → List Diagnostic
  | readSource keyword names =>
    if target.isNone then
      [⟨keyword.position,
        .readWithoutTarget keyword.text (.datasets (names.map Mention.text))⟩]
    else []
  | readExternal keyword path =>
    if target.isNone then
      [⟨keyword.position, .readWithoutTarget keyword.text (.file path.text)⟩]
    else []
  | _ => []

end Statement

/-- Statements that are being resolved: the target in force, and edges and diagnostics so far, both
    latest first. -/
structure Resolution where
  target : Option String := none
  edges : List Edge := []
  diagnostics : List Diagnostic := []
deriving DecidableEq, Repr

/-- One more statement. -/
def Resolution.add (file : String) (resolution : Resolution) (statement : Statement) :
    Resolution :=
  ⟨statement.targetAfter resolution.target,
    (statement.edges file resolution.target).reverse ++ resolution.edges,
    (statement.problems resolution.target).reverse ++ resolution.diagnostics⟩

/-- The edges and diagnostics of the statements of a file, in order. -/
def resolve (file : String) (statements : List Statement) : List Edge × List Diagnostic :=
  let resolution := statements.foldl (Resolution.add file) {}
  (resolution.edges.reverse, resolution.diagnostics.reverse)

end DatasetLineage
