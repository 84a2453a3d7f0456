/-
Module: DatasetLineage.Report.Drawing
Purpose: A lineage graph as a drawing in the DOT language: first its nodes, datasets as boxes and
  files as notes, then its edges, each an arrow from the source to the target. An edge without a
  target is a dashed arrow to a placeholder `?`, which is declared last if there is such an edge.
Main exports: Shape, DrawingLine, LineageGraph.drawing, escaped, dotId,
  DrawingLine.text, LineageGraph.dotText
-/
import DatasetLineage.Lineage.Graph

namespace DatasetLineage

/-- The outlines of nodes. -/
inductive Shape where
  | box
  | note
deriving DecidableEq, Repr

/-- The name of an outline. -/
def Shape.name : Shape → List Char
  | box => ['b', 'o', 'x']
  | note => ['n', 'o', 't', 'e']

/-- One line of a drawing. -/
inductive DrawingLine where
  | node (id : String) (shape : Shape)
  | arrow (tail head : String)
  | orphanArrow (tail : String)
  | placeholder
deriving DecidableEq, Repr

/-- The outline of a node. -/
def Node.shape : Node → Shape
  | dataset _ => .box
  | file _ => .note

/-- The line that declares a node. -/
def Node.line (node : Node) : DrawingLine := .node node.name node.shape

/-- The line that draws an edge. -/
def Edge.line (edge : Edge) : DrawingLine :=
  match edge.target with
  | some target => .arrow edge.source.name target
  | none => .orphanArrow edge.source.name

/-- The lines of a drawing. -/
def LineageGraph.drawing (graph : LineageGraph) : List DrawingLine :=
  graph.nodes.map Node.line ++ graph.edges.map Edge.line
    ++ if graph.edges.any Edge.isOrphan then [.placeholder] else []

/-- A name as it is written between quotation marks: backslashes and quotation marks in it follow a
    backslash. -/
def escaped (name : List Char) : List Char :=
  name.flatMap fun c => if c = '\\' ∨ c = '\x22' then ['\\', c] else [c]

/-- A quoted identifier. -/
def dotId (name : String) : List Char := '\x22' :: escaped name.toList ++ ['\x22']

/-- A line as it is written, without its indent and line end. -/
def DrawingLine.content : DrawingLine → List Char
  | node id shape => dotId id ++ " [shape=".toList ++ shape.name ++ "];".toList
  | arrow tail head => dotId tail ++ " -> ".toList ++ dotId head ++ ";".toList
  | orphanArrow tail => dotId tail ++ " -> ".toList ++ dotId "?" ++ " [style=dashed];".toList
  | placeholder => dotId "?" ++ " [shape=plaintext];".toList

/-- A line as it is written. -/
def DrawingLine.text (line : DrawingLine) : List Char :=
  "    ".toList ++ line.content ++ ['\n']

/-- The text of a drawing. -/
def dotText (lines : List DrawingLine) : String :=
  String.ofList ("digraph lineage \x7b\n    rankdir=LR;\n".toList
    ++ lines.flatMap DrawingLine.text ++ "\x7d\n".toList)

/-- A lineage graph as a drawing. -/
def LineageGraph.dotText (graph : LineageGraph) : String := DatasetLineage.dotText graph.drawing

end DatasetLineage
