/-
Module: DatasetLineage.Program.Statement.Option
Purpose: The words in a statement that are no names of datasets but say how datasets are used: the
  options of a read statement, which are passed over, and the options of a procedure step whose
  value is a dataset. DATA= names one that the step reads, OUT= and BASE= one that it writes.
Main exports: Token.fault, isReadOption, DatasetOption.isInput, datasetOption?, ProcStep.addOption,
  ProcStep.addOptions
-/
import DatasetLineage.Program.Diagnostic
import DatasetLineage.Program.Statement

namespace DatasetLineage

open Text

/-- A fault at a token. -/
def Token.fault (token : Token) (fault : Fault) : Diagnostic :=
  ⟨token.position, .faultyStatement token.spelling fault⟩

/-- The options of SET, MERGE, UPDATE and MODIFY, which are never names of datasets. -/
def readOptions : List String :=
  ["end", "nobs", "point", "key", "indsname", "curobs", "open", "unique", "keyreset"]

/-- Whether a name is an option of a read statement, in any ASCII case. -/
def isReadOption (name : String) : Bool :=
  readOptions.any fun option => sameUpToAsciiCase option name

/-- Every dataset option. -/
def DatasetOption.all : List DatasetOption := [data, out, base]

/-- Whether the option names a dataset that is read. -/
def DatasetOption.isInput : DatasetOption → Bool
  | data => true
  | out | base => false

/-- The dataset option that a token names, in any ASCII case. -/
def datasetOption? (token : Token) : Option DatasetOption :=
  match token.kind with
  | .keyword .data => some .data
  | .identifier name => DatasetOption.all.find? fun option => sameUpToAsciiCase option.name name
  | _ => none

/-- A step with the dataset of one more option. -/
def ProcStep.addOption (step : ProcStep) (option : DatasetOption) (dataset : Mention) : ProcStep :=
  if option.isInput then { step with inputs := step.inputs ++ [dataset] }
  else { step with outputs := step.outputs ++ [dataset] }

/-- A step with the datasets of further options added behind those that it has. -/
def ProcStep.addOptions (step : ProcStep) (values : List (DatasetOption × Mention)) : ProcStep :=
  { step with
    inputs := step.inputs ++ (values.filter (·.1.isInput)).map (·.2)
    outputs := step.outputs ++ (values.filter (!·.1.isInput)).map (·.2) }

/-- Options are added one after the other. -/
theorem ProcStep.addOptions_cons (step : ProcStep) (option : DatasetOption) (dataset : Mention)
    (values : List (DatasetOption × Mention)) :
    step.addOptions ((option, dataset) :: values) =
      (step.addOption option dataset).addOptions values := by
  cases input : option.isInput <;> simp [addOptions, addOption, input]

end DatasetLineage
