/-
Module: DatasetLineage.Lineage.Extraction
Purpose: The lineage of program files. Files are read one by one and merged in the order given; an
  edge or a warning that comes again is kept once.
Main exports: SourceFile, FileLineage, FileLineage.ofFile, Extraction, Extraction.ofFiles
-/
import DatasetLineage.Collection.Sorted
import DatasetLineage.Lineage.Graph
import DatasetLineage.Lineage.Resolution
import DatasetLineage.Program.Parsed

namespace DatasetLineage

/-- A program file. -/
structure SourceFile where
  name : String
  content : String
deriving DecidableEq, Repr

/-- The lineage of one file. -/
structure FileLineage where
  file : String
  edges : List Edge
  warnings : List Warning
deriving DecidableEq, Repr

/-- The lineage of the file `name` in which `scanned` was found. Warnings are in the order of their
    places; at one place those about characters come first, then those about statements, then those
    about reads. -/
def FileLineage.ofScanned (name : String) (scanned : Scanned) : FileLineage :=
  let parsed := Parsed.ofScanned scanned
  let (edges, diagnostics) := resolve name parsed.statements
  let ordered :=
    inOrder (fun a b => a.position.notAfter b.position) (parsed.diagnostics ++ diagnostics)
  ⟨name, edges, ordered.map (Diagnostic.warning name)⟩

/-- The lineage of a file. -/
def FileLineage.ofFile (file : SourceFile) : FileLineage :=
  ofScanned file.name (Scanned.ofText file.content)

theorem FileLineage.ofFile_eq (file : SourceFile) :
    ofFile file =
      let parsed := Parsed.ofText file.content
      let (edges, diagnostics) := resolve file.name parsed.statements
      ⟨file.name, edges, (inOrder (fun a b => a.position.notAfter b.position)
        (parsed.diagnostics ++ diagnostics)).map (Diagnostic.warning file.name)⟩ := rfl

/-- The lineage of several files. -/
structure Extraction where
  graph : LineageGraph := {}
  warnings : List Warning := []
deriving DecidableEq, Repr

namespace Extraction

/-- The edges of all files. -/
def edges (extraction : Extraction) : List Edge := extraction.graph.edges

/-- One more file's lineage. -/
def add (extraction : Extraction) (lineage : FileLineage) : Extraction :=
  ⟨extraction.graph.merge lineage.edges, appendAllNew extraction.warnings lineage.warnings⟩

/-- The lineage of files whose own lineages are given. -/
def ofLineages (lineages : List FileLineage) : Extraction := lineages.foldl add {}

/-- The lineage of a list of files. -/
def ofFiles (files : List SourceFile) : Extraction := ofLineages (files.map FileLineage.ofFile)

end Extraction

end DatasetLineage
