/-
Module: DatasetLineage.Lineage.Edge
Purpose: Edges of lineage: a dataset is derived from a dataset or a file, according to one program
  file. Names of datasets are in lower case, because case does not tell datasets apart; paths are
  kept as they are. An edge without a target is an orphan: it reads before anything is defined.
Main exports: Edge, Edge.fromDataset, Edge.fromFile, Edge.targetNode?, Edge.isOrphan
-/
import DatasetLineage.Lineage.Node
import DatasetLineage.Text.Lowercase

namespace DatasetLineage

open Text

/-- The target is derived from the source, as the program file `origin` says. -/
structure Edge where
  target : Option String
  source : Node
  origin : String
deriving DecidableEq, Repr

namespace Edge

/-- The edge to a dataset that is read. -/
def fromDataset (target : Option String) (source origin : String) : Edge :=
  ⟨target.map lowercase, .dataset (lowercase source), origin⟩

/-- The edge to an external file that is read. -/
def fromFile (target : Option String) (path origin : String) : Edge :=
  ⟨target.map lowercase, .file path, origin⟩

/-- The target as a node. -/
def targetNode? (edge : Edge) : Option Node := edge.target.map Node.dataset

/-- Whether the edge has no target. -/
def isOrphan (edge : Edge) : Bool := edge.target.isNone

/-- Whether a node is the target or the source of the edge. -/
def touches (edge : Edge) (node : Node) : Bool :=
  edge.targetNode? == some node || edge.source == node

end Edge

end DatasetLineage
