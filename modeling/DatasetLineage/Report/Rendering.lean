/-
Module: DatasetLineage.Report.Rendering
Purpose: The reports of the program: the lineage of files as JSON, as a CSV table of its edges or
  as a drawing, and the answer to a query as JSON.
Main exports: Format, Edge.json, Warning.json, Extraction.json, edgeTable, Extraction.render,
  QueryAnswer, QueryAnswer.json
-/
import DatasetLineage.Lineage.Extraction
import DatasetLineage.Lineage.Graph.Cycle
import DatasetLineage.Lineage.Graph.Query
import DatasetLineage.Report.CsvTable
import DatasetLineage.Report.Drawing
import DatasetLineage.Report.JsonValue

namespace DatasetLineage

/-- The forms of a report on the lineage of files. -/
inductive Format where
  | json
  | csv
  | dot
deriving DecidableEq, Repr, Inhabited

namespace Format

/-- Every form. -/
def all : List Format := [json, csv, dot]

/-- The name of a form. -/
def name : Format → String
  | json => "json"
  | csv => "csv"
  | dot => "dot"

end Format

/-- The name of the dataset that an edge reads, if it reads one. -/
def Edge.sourceDataset? (edge : Edge) : Option String :=
  match edge.source with
  | .dataset name => some name
  | .file _ => none

/-- The path of the file that an edge reads, if it reads one. -/
def Edge.sourceFile? (edge : Edge) : Option String :=
  match edge.source with
  | .dataset _ => none
  | .file path => some path

/-- An edge as a record of four fields. -/
def Edge.json (edge : Edge) : JsonValue :=
  .record
    [("target", .optionalText edge.target), ("source", .optionalText edge.sourceDataset?),
     ("source_file", .optionalText edge.sourceFile?), ("origin_file", .text edge.origin)]

/-- A node as a record of its kind and name. -/
def Node.json (node : Node) : JsonValue :=
  let kind := match node with
    | dataset _ => "dataset"
    | file _ => "file"
  .record [("kind", .text kind), ("name", .text node.name)]

/-- A cycle as a record. -/
def Cycle.json (cycle : Cycle) : JsonValue := .record [("nodes", .list (cycle.nodes.map Node.json))]

/-- A warning as a record. -/
def Warning.json (warning : Warning) : JsonValue :=
  .record
    [("file", .text warning.file), ("line", .number warning.position.line),
     ("col", .number warning.position.column), ("kind", .text warning.kind.name),
     ("message", .text warning.message)]

/-- The lineage of files as a record. -/
def Extraction.json (extraction : Extraction) : JsonValue :=
  .record
    [("edges", .list (extraction.edges.map Edge.json)),
     ("warnings", .list (extraction.warnings.map Warning.json)),
     ("cycles", .list (extraction.graph.cycles.map Cycle.json))]

/-- An edge as a row of a table; what is missing is an empty field. -/
def Edge.row (edge : Edge) : List String :=
  [edge.target.getD "", edge.sourceDataset?.getD "", edge.sourceFile?.getD "", edge.origin]

/-- The table of some edges, under a header. -/
def edgeTable (edges : List Edge) : String :=
  csvTable (["target", "source", "source_file", "origin_file"] :: edges.map Edge.row)

/-- The report on the lineage of files. Only JSON has a pretty layout. -/
def Extraction.render (extraction : Extraction) (format : Format) (pretty : Bool) : String :=
  match format with
  | .json => extraction.json.render pretty
  | .csv => edgeTable extraction.edges
  | .dot => extraction.graph.dotText

/-- The answer to a query: the nodes that one node leads to in a direction within a number of hops,
    and the edges at that node. -/
structure QueryAnswer where
  node : Node
  direction : Direction
  maxDepth : Nat
  nodes : List Node
  edges : List Edge
deriving DecidableEq, Repr

/-- The answer to a query about a node of a graph. -/
def LineageGraph.query (graph : LineageGraph) (node : Node) (direction : Direction)
    (maxDepth : Nat) : QueryAnswer :=
  ⟨node, direction, maxDepth, graph.reach direction node maxDepth, graph.edgesFor node⟩

/-- An answer as a record. -/
def QueryAnswer.json (answer : QueryAnswer) : JsonValue :=
  .record
    [("node", answer.node.json), ("direction", .text answer.direction.name),
     ("max_depth", .number answer.maxDepth), ("nodes", .list (answer.nodes.map Node.json)),
     ("edges", .list (answer.edges.map Edge.json))]

end DatasetLineage
