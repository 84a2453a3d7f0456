/-
Module: DatasetLineage.Program.Segment.Proc
Purpose: The dataset options of a procedure step, told from all tokens of a statement and the token
  that stops it.
Main exports: OptionValues, optionValues
-/
import DatasetLineage.Program.Statement.Option

namespace DatasetLineage

/-- The datasets that options name, in order, and what is wrong with options. -/
structure OptionValues where
  values : List (DatasetOption × Mention)
  diagnostics : List Diagnostic

/-- The dataset options among the tokens of a statement that ends at `stop`. An option is a name of
    one followed by an equals sign. If no name stands behind the sign, that token is reported, and
    the search goes on at the sign. -/
def optionValues (stop : Token) : List Token → OptionValues
  | [] => ⟨[], []⟩
  | [_] => ⟨[], []⟩
  | [option, equals] =>
    match datasetOption? option with
    | some name =>
      if equals.isMark '=' then ⟨[], [stop.fault (.missingOptionValue name)]⟩ else ⟨[], []⟩
    | none => ⟨[], []⟩
  | option :: equals :: value :: rest =>
    match datasetOption? option with
    | none => optionValues stop (equals :: value :: rest)
    | some name =>
      if equals.isMark '=' then
        match value.name? with
        | some _ =>
          let found := optionValues stop rest
          ⟨(name, value.mention) :: found.values, found.diagnostics⟩
        | none =>
          let found := optionValues stop (equals :: value :: rest)
          ⟨found.values, value.fault (.missingOptionValue name) :: found.diagnostics⟩
      else optionValues stop (equals :: value :: rest)

end DatasetLineage
