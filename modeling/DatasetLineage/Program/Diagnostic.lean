/-
Module: DatasetLineage.Program.Diagnostic
Purpose: What can be wrong with a program, as causes, and the one wording of each. Nothing here
  stops the reading of a program: a diagnostic goes beside the result.
Main exports: Fault, Problem, Problem.kind, Problem.message, Diagnostic, Warning, Warning.text
-/
import DatasetLineage.Program.Token
import DatasetLineage.Text.Uppercase

namespace DatasetLineage

open Text

/-- The three families of warnings. -/
inductive WarningKind where
  | lex
  | parse
  | orphanReference
deriving DecidableEq, Repr, Inhabited

namespace WarningKind

/-- Every kind of warning. -/
def all : List WarningKind := [lex, parse, orphanReference]

/-- The name of a kind. -/
def name : WarningKind → String
  | lex => "lex"
  | parse => "parse"
  | orphanReference => "orphan_reference"

/-- The kind that a text names; case matters. -/
def ofName? (text : String) : Option WarningKind := all.find? fun kind => kind.name == text

end WarningKind

/-- An option of a procedure whose value is a dataset. -/
inductive DatasetOption where
  | data
  | out
  | base
deriving DecidableEq, Repr, Inhabited

/-- The option in capitals. -/
def DatasetOption.name : DatasetOption → String
  | data => "DATA"
  | out => "OUT"
  | base => "BASE"

/-- What is wrong with a statement. A keyword is given as it is spelled in the program. -/
inductive Fault where
  | unclosedParenthesis
  | missingDatasetName
  | unexpectedTokens (keyword : String)
  | missingSources (keyword : String)
  | missingPath (found : TokenKind)
  | missingProcedureName
  | missingOptionValue (option : DatasetOption)
deriving DecidableEq, Repr

/-- The wording of a fault. -/
def Fault.message : Fault → String
  | unclosedParenthesis => "Unclosed parenthesis in statement options."
  | missingDatasetName => "Expected dataset name after `DATA`."
  | unexpectedTokens keyword =>
    "Ignored unexpected tokens in `" ++ uppercase keyword ++ "` statement."
  | missingSources keyword => "`" ++ uppercase keyword ++ "` statement names no source dataset."
  | missingPath found => "Expected quoted path after `INFILE`, found " ++ found.label ++ "."
  | missingProcedureName => "Expected procedure name after `PROC`."
  | missingOptionValue option => "Expected dataset name after `" ++ option.name ++ "=`."

/-- What a read statement reads, for the message about a read without a target. -/
inductive ReadOperands where
  | datasets (names : List String)
  | file (path : String)
deriving DecidableEq, Repr

/-- The operands as a message gives them. -/
def ReadOperands.text : ReadOperands → String
  | datasets names => ", ".intercalate (names.map fun name => "`" ++ name ++ "`")
  | file path => "file \"" ++ path ++ "\""

/-- What is wrong at one place of a program. -/
inductive Problem where
  | unterminatedComment
  | unterminatedString (delimiter : Char)
  | unexpectedCharacters (characters : String)
  | faultyStatement (spelling : String) (fault : Fault)
  | readWithoutTarget (keyword : String) (operands : ReadOperands)
deriving DecidableEq, Repr

/-- The family that a problem belongs to. -/
def Problem.kind : Problem → WarningKind
  | unterminatedComment | unterminatedString _ | unexpectedCharacters _ => .lex
  | faultyStatement _ _ => .parse
  | readWithoutTarget _ _ => .orphanReference

/-- The wording of a problem. -/
def Problem.message : Problem → String
  | unterminatedComment => "Found unterminated comment"
  | unterminatedString delimiter =>
    "Found unterminated string starting with " ++ delimiter.toString
  | unexpectedCharacters characters =>
    "Found unexpected characters while scanning: `" ++ characters ++ "`"
  | faultyStatement spelling fault => "at '" ++ spelling ++ "': " ++ fault.message
  | readWithoutTarget keyword operands =>
    "`" ++ uppercase keyword ++ "` reads " ++ operands.text
      ++ " before any `DATA` statement defined a target."

/-- A problem and its place in one program. -/
structure Diagnostic where
  position : Position
  problem : Problem
deriving DecidableEq, Repr

/-- A diagnostic as it is reported: with the file, and put into words. -/
structure Warning where
  file : String
  position : Position
  kind : WarningKind
  message : String
deriving DecidableEq, Repr

/-- The report of a diagnostic of `file`. -/
def Diagnostic.warning (file : String) (diagnostic : Diagnostic) : Warning :=
  ⟨file, diagnostic.position, diagnostic.problem.kind, diagnostic.problem.message⟩

/-- A warning as one line of text. -/
def Warning.text (warning : Warning) : String :=
  "[" ++ warning.file ++ " line: " ++ toString warning.position.line
    ++ ", col: " ++ toString warning.position.column ++ "] "
    ++ warning.kind.name ++ " warning: " ++ warning.message

end DatasetLineage
