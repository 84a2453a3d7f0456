import DatasetLineage.Main
import DatasetLineage.Proofs.CaseOfLetters
import DatasetLineage.Proofs.GraphCycles
import DatasetLineage.Proofs.GraphTraversal
import DatasetLineage.Proofs.InvisibleComments
import DatasetLineage.Proofs.ProcedureOptions
import DatasetLineage.Proofs.ProgramLineage
import DatasetLineage.Proofs.RepeatedFiles
import DatasetLineage.Proofs.ScanLocality
import DatasetLineage.Proofs.DistinctWarnings
import DatasetLineage.Proofs.LineageProvenance
import DatasetLineage.Proofs.PrintedNames
import DatasetLineage.Proofs.ReadGroups
import DatasetLineage.Proofs.LatestDefinition
import DatasetLineage.Proofs.StrangeRuns
import DatasetLineage.Proofs.MacroReferences
import DatasetLineage.Proofs.QuotedLiterals
import DatasetLineage.Proofs.EndOfTokens
import DatasetLineage.Proofs.DrawnNodes
import DatasetLineage.Proofs.PrintedTokens
import DatasetLineage.Proofs.PrintedReports
import DatasetLineage.Proofs.UnambiguousJson
import DatasetLineage.Proofs.FoundFiles
import DatasetLineage.Proofs.CountedPlaces
