/-
Module: DatasetLineage.Lineage.Counted
Purpose: Lineage with places as they are counted in 32 bits. Counting is done in scanning alone:
  statements and warnings keep the places that tokens were given, and warnings are put in order by
  these.
Main exports: Token.counted, Diagnostic.counted, Scanned.counted, FileLineage.counted,
  Extraction.counted
-/
import DatasetLineage.Lineage.Extraction
import DatasetLineage.Text.Counters

namespace DatasetLineage

/-- A token at the place that the counters tell for it. -/
def Token.counted (token : Token) : Token := { token with position := token.position.counted }

/-- A diagnostic at the place that the counters tell for it. -/
def Diagnostic.counted (diagnostic : Diagnostic) : Diagnostic :=
  { diagnostic with position := diagnostic.position.counted }

/-- The tokens and diagnostics of a program text, each at the place that the counters tell behind
    the characters in front of it. -/
def Scanned.counted (text : String) : Scanned :=
  ⟨(ofText text).tokens.map Token.counted, (ofText text).diagnostics.map Diagnostic.counted⟩

/-- The lineage of a file, with its warnings in the order of the places that the counters tell. -/
def FileLineage.counted (file : SourceFile) : FileLineage :=
  ofScanned file.name (.counted file.content)

/-- The lineage of a list of files in which places are counted. -/
def Extraction.counted (files : List SourceFile) : Extraction :=
  ofLineages (files.map FileLineage.counted)

end DatasetLineage
