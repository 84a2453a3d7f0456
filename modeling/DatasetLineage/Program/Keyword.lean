/-
Module: DatasetLineage.Program.Keyword
Purpose: The nine words of a SAS program that matter to lineage, and how they are recognised. A
  keyword is recognised in any mixture of ASCII upper and lower case.
Main exports: Keyword, Keyword.ofText?, Keyword.name, Keyword.readsDatasets, Keyword.opensStep,
  Keyword.endsStep
-/
import DatasetLineage.Text.AsciiCase

namespace DatasetLineage

open Text

/-- The words that open or close steps and that open the statements that read. -/
inductive Keyword where
  | data
  | set
  | merge
  | update
  | modify
  | infile
  | proc
  | run
  | quit
deriving DecidableEq, Repr, Inhabited

namespace Keyword

/-- Every keyword. -/
def all : List Keyword := [data, set, merge, update, modify, infile, proc, run, quit]

/-- The keyword in capitals. -/
def name : Keyword → String
  | data => "DATA"
  | set => "SET"
  | merge => "MERGE"
  | update => "UPDATE"
  | modify => "MODIFY"
  | infile => "INFILE"
  | proc => "PROC"
  | run => "RUN"
  | quit => "QUIT"

/-- The keyword that a text spells, up to ASCII case. -/
def ofText? (text : String) : Option Keyword :=
  all.find? fun keyword => sameUpToAsciiCase keyword.name text

/-- Whether the keyword opens a statement whose operands are datasets that are read. -/
def readsDatasets : Keyword → Bool
  | set | merge | update | modify => true
  | _ => false

/-- Whether the keyword opens a step. -/
def opensStep : Keyword → Bool
  | data | proc => true
  | _ => false

/-- Whether the keyword closes a step. -/
def endsStep : Keyword → Bool
  | run | quit => true
  | _ => false

end Keyword

end DatasetLineage
