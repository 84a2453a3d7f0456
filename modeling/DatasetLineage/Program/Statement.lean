/-
Module: DatasetLineage.Program.Statement
Purpose: Statements, reduced to what lineage needs of them.
Main exports: ProcStep, Statement
-/
import DatasetLineage.Program.Token

namespace DatasetLineage

/-- A procedure step from its PROC statement to its end: what it is called and the datasets that
    its options name as read and as written. -/
structure ProcStep where
  procedure : Mention
  inputs : List Mention
  outputs : List Mention
deriving DecidableEq, Repr

/-- A statement.
    - `datasetDef` opens the definition of a dataset.
    - `readSource` reads datasets, `readExternal` an external file, into the dataset being defined.
    - `procStep` is a whole procedure step.
    - `other` is any statement that adds nothing by itself. -/
inductive Statement where
  | datasetDef (name : Mention)
  | readSource (keyword : Mention) (names : List Mention)
  | readExternal (keyword : Mention) (path : Mention)
  | procStep (step : ProcStep)
  | other
deriving DecidableEq, Repr

end DatasetLineage
