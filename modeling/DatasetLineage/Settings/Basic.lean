/-
Module: DatasetLineage.Settings.Basic
Purpose: The settings of the program, how they are read from a settings file, and which paths they
  select. A setting that the file leaves out has its default; an unknown key, a repeated one, or
  a value of the wrong kind makes the whole file unacceptable.
Main exports: Settings, Settings.ofText?, extension?, Settings.matchesExtension
-/
import DatasetLineage.Settings.Document
import DatasetLineage.Text.AsciiCase

namespace DatasetLineage

open Text

/-- The settings. `extensions` are those of the files that are read in a directory, without their
    dot; `maxDepth` is the number of hops of a query that does not give one; `parallel` allows
    files to be read at the same time, which no result depends on. -/
structure Settings where
  extensions : List String := ["sas"]
  maxDepth : Nat := 32
  parallel : Bool := true
deriving DecidableEq, Repr

namespace Settings

/-- The settings with one entry of a file in force. -/
def set? (settings : Settings) (key : String) (value : SettingValue) : Option Settings :=
  match key, value with
  | "extensions", .texts values => some { settings with extensions := values }
  | "max_depth", .number value => some { settings with maxDepth := value }
  | "parallel", .flag value => some { settings with parallel := value }
  | _, _ => none

/-- The settings that a settings file gives. -/
def ofText? (text : String) : Option Settings := do
  let entries ← entries? text
  if (entries.map (·.1)).Nodup then
    entries.foldlM (fun settings entry => settings.set? entry.1 entry.2) {}
  else none

/-- The parts of a path between its slashes. -/
def pathParts (path : List Char) : List (List Char) :=
  path.foldr
    (fun c parts => if c = '/' then [] :: parts else
      match parts with
      | [] => [[c]]
      | part :: rest => (c :: part) :: rest)
    [[]]

/-- The last part of a path, where empty parts and single dots do not count. Two dots are not a
    name. -/
def fileName? (path : String) : Option (List Char) :=
  match ((pathParts path.toList).filter fun part => part ≠ [] ∧ part ≠ ['.']).getLast? with
  | some part => if part = ['.', '.'] then none else some part
  | none => none

/-- The extension of a path: what stands behind the last dot of its file name, unless nothing
    stands before that dot. -/
def extension? (path : String) : Option String :=
  match fileName? path with
  | none => none
  | some name =>
    let reversed := name.reverse
    match reversed.dropWhile (· ≠ '.') with
    | '.' :: _ :: _ => some (String.ofList (reversed.takeWhile (· ≠ '.')).reverse)
    | _ => none

/-- Whether the extension of a path is one of those in the settings, up to ASCII case. -/
def matchesExtension (settings : Settings) (path : String) : Bool :=
  match extension? path with
  | some extension => settings.extensions.any fun wanted => sameUpToAsciiCase extension wanted
  | none => false

end Settings

end DatasetLineage
