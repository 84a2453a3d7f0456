/-
Module: DatasetLineage.Proofs.CaseOfLetters
Purpose: The case of A to Z makes no difference to lineage. Names of datasets are in lower case
  already, so folding the letters of a program leaves targets and datasets as they are and folds
  paths only. Diagnostics keep their places and kinds, and so does the order in which they are
  reported. Two programs that agree up to case fold to one and the same program.
Main exports: Node.folded, Edge.folded, Warning.summary, resolve_folded,
  FileLineage.edges_ofFile_foldCase, FileLineage.summaries_ofFile_foldCase,
  FileLineage.AlikeUpToCase, FileLineage.alikeUpToCase_of_same
-/
import DatasetLineage.Lineage.Extraction
import DatasetLineage.Proofs.FoldedStatements

namespace DatasetLineage

open Text

/-- A node with the letters of a path folded. The name of a dataset is in lower case already. -/
def Node.folded : Node → Node
  | dataset name => dataset name
  | file path => file (foldCase path)

/-- An edge with the letters folded of the path that is read. -/
def Edge.folded (edge : Edge) : Edge := { edge with source := edge.source.folded }

/-- Where a warning is and of which kind it is. -/
def Warning.summary (warning : Warning) : Position × WarningKind :=
  (warning.position, warning.kind)

section Resolutions

variable (file : String) (target : Option String)

theorem Edge.fromDataset_foldCase (source : String) :
    fromDataset target (foldCase source) file = (fromDataset target source file).folded := by
  rw [fromDataset, lowercase_foldCase]
  rfl

theorem Edge.fromDataset_some_foldCase (target source : String) :
    fromDataset (some (foldCase target)) source file = fromDataset (some target) source file := by
  rw [fromDataset, Option.map_some, lowercase_foldCase]
  rfl

theorem Statement.targetAfter_folded (statement : Statement) :
    statement.folded.targetAfter target = statement.targetAfter target := by
  cases statement with
  | datasetDef name =>
      exact congrArg some (lowercase_foldCase name.text)
  | _ =>
      rfl

theorem Statement.edges_folded (statement : Statement) :
    statement.folded.edges file target = (statement.edges file target).map Edge.folded := by
  cases statement with
  | readSource keyword names =>
      simp [edges, folded, Mention.folded, Function.comp_def, Edge.fromDataset_foldCase]
  | procStep step =>
      simp [edges, folded, ProcStep.folded, Mention.folded, List.flatMap_map, List.map_flatMap,
        Function.comp_def, Edge.fromDataset_foldCase, Edge.fromDataset_some_foldCase]
  | _ =>
      rfl

theorem Statement.problems_folded (statement : Statement) :
    statement.folded.problems target =
      (statement.problems target).map Diagnostic.folded := by
  cases statement with
  | readSource keyword names =>
      cases target with
      | none =>
          simp [problems, folded, Mention.folded, Diagnostic.folded, Problem.folded,
            ReadOperands.folded, Function.comp_def]
      | some name =>
          rfl
  | readExternal keyword path =>
      cases target <;> rfl
  | _ =>
      rfl

end Resolutions

/-- Statements that are being resolved, folded. -/
def Resolution.folded (resolution : Resolution) : Resolution :=
  { resolution with
    edges := resolution.edges.map Edge.folded
    diagnostics := resolution.diagnostics.map Diagnostic.folded }

theorem Resolution.add_folded (file : String) (resolution : Resolution) (statement : Statement) :
    resolution.folded.add file statement.folded = (resolution.add file statement).folded := by
  simp [add, folded, Statement.targetAfter_folded, Statement.edges_folded,
    Statement.problems_folded]

/-- Folded statements have the edges and diagnostics of the statements, folded. -/
theorem resolve_folded (file : String) (statements : List Statement) :
    resolve file (statements.map Statement.folded) =
      ((resolve file statements).1.map Edge.folded,
        (resolve file statements).2.map Diagnostic.folded) := by
  have run : (statements.map Statement.folded).foldl (Resolution.add file) {} =
      (statements.foldl (Resolution.add file) {}).folded :=
    foldl_folded (Resolution.add_folded file) {} statements
  simp only [resolve, run, Resolution.folded, List.map_reverse]

theorem Problem.kind_folded (problem : Problem) : problem.folded.kind = problem.kind := by
  cases problem <;> rfl

theorem Diagnostic.summary_warning_folded (file : String) (diagnostic : Diagnostic) :
    (diagnostic.folded.warning file).summary = (diagnostic.warning file).summary := by
  simp only [Warning.summary, warning, folded, Problem.kind_folded]

namespace FileLineage

variable (name text : String)

/-- The edges of a folded program are those of the program, folded. -/
theorem edges_ofFile_foldCase :
    (ofFile ⟨name, foldCase text⟩).edges = (ofFile ⟨name, text⟩).edges.map Edge.folded := by
  simp only [ofFile_eq, Parsed.ofText_foldCase, Parsed.folded, resolve_folded]

/-- The warnings about a folded program are those about the program, up to their messages. -/
theorem summaries_ofFile_foldCase :
    (ofFile ⟨name, foldCase text⟩).warnings.map Warning.summary =
      (ofFile ⟨name, text⟩).warnings.map Warning.summary := by
  have ordered (diagnostics : List Diagnostic) :
      inOrder (fun a b : Diagnostic => a.position.notAfter b.position)
          (diagnostics.map Diagnostic.folded) =
        (inOrder (fun a b : Diagnostic => a.position.notAfter b.position) diagnostics).map
          Diagnostic.folded :=
    inOrder_map (fun _ _ => rfl) diagnostics
  simp only [ofFile_eq, Parsed.ofText_foldCase, Parsed.folded, resolve_folded, ← List.map_append,
    ordered, List.map_map, Function.comp_def, Diagnostic.summary_warning_folded]

/-- Whether two program texts are alike up to the case of A to Z in what they say, as files of one
    name.
    - `tokens`: their tokens stand at the same places and are of the same kinds, up to the case of
      names, values of literals and spellings.
    - `statements`: their statements are the same up to the case of names and paths.
    - `edges`: their edges have the same targets, datasets and origins, and paths up to case.
    - `warnings`: their warnings are about the same places and of the same kinds, in the same
      order. -/
structure AlikeUpToCase (name text text' : String) : Prop where
  tokens : (Scanned.ofText text).tokens.map Token.folded =
    (Scanned.ofText text').tokens.map Token.folded
  statements : (Parsed.ofText text).statements.map Statement.folded =
    (Parsed.ofText text').statements.map Statement.folded
  edges : (ofFile ⟨name, text⟩).edges.map Edge.folded =
    (ofFile ⟨name, text'⟩).edges.map Edge.folded
  warnings : (ofFile ⟨name, text⟩).warnings.map Warning.summary =
    (ofFile ⟨name, text'⟩).warnings.map Warning.summary

/-- Program texts that agree up to the case of A to Z are alike in all that is found in them. -/
theorem alikeUpToCase_of_same (name : String) {text text' : String}
    (same : sameUpToAsciiCase text text' = true) : AlikeUpToCase name text text' := by
  have folded : foldCase text = foldCase text' := foldCase_eq_iff.mpr same
  constructor
  · have tokens := congrArg (fun text => (Scanned.ofText text).tokens) folded
    simpa only [Scanned.ofText_foldCase] using tokens
  · have statements := congrArg (fun text => (Parsed.ofText text).statements) folded
    simpa only [Parsed.ofText_foldCase, Parsed.folded] using statements
  · rw [← edges_ofFile_foldCase, ← edges_ofFile_foldCase, folded]
  · rw [← summaries_ofFile_foldCase, ← summaries_ofFile_foldCase name text', folded]

/-- A read without a target, a qualified name with a sigma at each of its ends, a path, an option
    without a value, and a literal that is not closed. -/
theorem alikeUpToCase_of_mixed :
    let text := "set a; Data Ας.Σx; infile 'In §/b.csv' dsd; Proc Sort Data=É.k out=; quit; 'é /*Q"
    let text' := "SET A; dATA Ας.ΣX; InFile 'in §/B.CSV' DSD; pROC sORT dATA=É.K OUT=; Quit; 'é /*q"
    sameUpToAsciiCase text text' = true ∧ AlikeUpToCase "job.sas" text text' := by
  intro text text'
  have same : sameUpToAsciiCase text text' = true := by decide +kernel
  exact ⟨same, alikeUpToCase_of_same "job.sas" same⟩

end FileLineage

end DatasetLineage
