/-
Module: DatasetLineage.Main
Purpose: The command line program. It finds what is at the paths of a request, hands that over,
  and prints the report or the reason why there is none, or help if that is asked for. Below a
  directory only files of the wanted extensions are read, and symbolic links are not followed.
Main exports: main
-/
import DatasetLineage.CommandLine.Help
import DatasetLineage.CommandLine.Run

namespace DatasetLineage

/-- The bytes of the file at a path, if it can be read. -/
def readBytes (path : String) : IO (Option (List UInt8)) := do
  try
    return some (← IO.FS.readBinFile path).toList
  catch _ =>
    return none

/-- What is in a directory. Files that are not wanted are left unread. -/
partial def loadEntries (wanted : String → Bool) (directory : String) :
    IO (List (String × FileTree)) := do
  let place := (← IO.currentDir) / directory
  let found ← try place.readDir catch _ => pure #[]
  let mut entries := []
  for entry in found do
    let path := directory ++ "/" ++ entry.fileName
    match (← entry.path.symlinkMetadata).type with
    | .dir => entries := (entry.fileName, .directory (← loadEntries wanted path)) :: entries
    | .file =>
      let bytes ← if wanted path then readBytes path else pure none
      entries := (entry.fileName, .file bytes) :: entries
    | _ => pure ()
  return entries

/-- What is at a path. -/
def loadTree (wanted : String → Bool) (path : String) : IO (Option FileTree) := do
  if ← ((← IO.currentDir) / path).isDir then
    return some (.directory (← loadEntries wanted path))
  else
    return (← readBytes path).map fun bytes => .file (some bytes)

/-- What is at the paths that an input names: its settings file, then its program files. -/
def loadInput (input : Input) : IO Lookup := do
  let settingsTree ← match input.settings with
    | some path => loadTree (fun _ => false) path
    | none => pure none
  let lookupSettings : Lookup := fun path =>
    if input.settings = some path then settingsTree else none
  match input.loadSettings lookupSettings with
  | .error _ => return lookupSettings
  | .ok settings =>
    let sourceTree ← loadTree settings.matchesExtension input.source
    return fun path => if path = input.source then sourceTree else lookupSettings path

/-- How the program is called. -/
def usage : String :=
  "Usage: extract PATH [-c FILE] [--sequential] [-f json|csv|dot] [--pretty]\n"
    ++ "       query PATH --node NAME [--file] [--direction upstream|downstream]\n"
    ++ "             [--max-depth N] [-c FILE] [--sequential] [--pretty]\n"

end DatasetLineage

open DatasetLineage in
/-- Runs the program. The exit code is 1 if a request fails and 2 if neither a request is made nor
    help is asked for. -/
def main (arguments : List String) : IO UInt32 := do
  let lookup : Lookup ← match Request.ofArguments? arguments with
    | some request => loadInput request.input
    | none => pure fun _ => none
  match run lookup arguments with
  | .printed text =>
    IO.print text
    return 0
  | .failed failure =>
    IO.eprintln ("Error: " ++ failure.message)
    return 1
  | .misused =>
    if asksForHelp arguments then
      IO.print usage
      return 0
    else
      IO.eprint usage
      return 2
