/-
Module: DatasetLineage.CommandLine.Run
Purpose: What the program does for a command line, given what it finds at each path. The settings
  file is read first, then the program files; a query is answered only about a node of the graph.
Main exports: Failure, Failure.message, Outcome, Lookup, Input.loadSettings, Input.loadSources,
  Request.answer, printedText, run
-/
import DatasetLineage.CommandLine.Arguments
import DatasetLineage.CommandLine.FileTree
import DatasetLineage.Text.Blank
import DatasetLineage.Text.Utf8

namespace DatasetLineage

/-- Why a request cannot be answered. -/
inductive Failure where
  | unreadableSettings (path : String)
  | unacceptableSettings (path : String)
  | unreadableSource (path : String)
  | unknownNode (node : Node)
deriving DecidableEq, Repr

/-- The wording of a failure. -/
def Failure.message : Failure → String
  | unreadableSettings path => "Failed to read config file: " ++ path
  | unacceptableSettings path =>
    "Failed to parse config due to error: not a settings file (" ++ path ++ ")"
  | unreadableSource path => "Failed to read sas file " ++ path
  | unknownNode node => "Node `" ++ node.name ++ "` not found in lineage graph"

/-- What becomes of a run of the program. -/
inductive Outcome where
  | printed (text : String)
  | failed (failure : Failure)
  | misused
deriving DecidableEq, Repr

/-- The file system as the program sees it: what is at a path, if anything is. -/
abbrev Lookup := String → Option FileTree

/-- The bytes of the file at a path. -/
def Lookup.bytes? (lookup : Lookup) (path : String) : Option (List UInt8) :=
  match lookup path with
  | some (.file bytes) => bytes
  | _ => none

/-- The settings in force for an input. -/
def Input.loadSettings (input : Input) (lookup : Lookup) : Except Failure Settings :=
  match input.settings with
  | none => .ok {}
  | some path =>
    match (lookup.bytes? path).bind Text.Utf8.decodeStrict? with
    | none => .error (.unreadableSettings path)
    | some text =>
      match Settings.ofText? text with
      | none => .error (.unacceptableSettings path)
      | some settings => .ok settings

/-- A program file with its bytes, in which unreadable characters are replaced. -/
def sourceFile (path : String) : Option (List UInt8) → Except Failure SourceFile
  | some bytes => .ok ⟨path, Text.Utf8.decodeLossy bytes⟩
  | none => .error (.unreadableSource path)

/-- The program files of a tree at a path. A file given by itself is read whatever its extension;
    in a directory the extension decides. -/
def programFiles (settings : Settings) (path : String) :
    FileTree → Except Failure (List SourceFile)
  | .file bytes => (sourceFile path bytes).map fun file => [file]
  | .directory entries =>
    let found := (FileTree.directory entries).files.map fun (below, bytes) =>
      (joinPath path below, bytes)
    (found.filter fun (path, _) => settings.matchesExtension path).mapM fun (path, bytes) =>
      sourceFile path bytes

/-- The program files of an input. -/
def Input.loadSources (input : Input) (settings : Settings) (lookup : Lookup) :
    Except Failure (List SourceFile) :=
  match lookup input.source with
  | some tree => programFiles settings input.source tree
  | none => .error (.unreadableSource input.source)

/-- The report that answers a request about the lineage of its files. -/
def Request.report (request : Request) (settings : Settings) (extraction : Extraction) :
    Except Failure String :=
  match request with
  | extract _ format pretty => .ok (extraction.render format pretty)
  | query _ node direction maxDepth pretty =>
    if extraction.graph.contains node then
      let answer := extraction.graph.query node direction (maxDepth.getD settings.maxDepth)
      .ok (answer.json.render pretty)
    else .error (.unknownNode node)

/-- The report that answers a request. -/
def Request.answer (request : Request) (lookup : Lookup) : Except Failure String := do
  let settings ← request.input.loadSettings lookup
  let files ← request.input.loadSources settings lookup
  request.report settings (Extraction.ofFiles files)

/-- A report as it is printed: without blanks at its end, and with one line end. -/
def printedText (report : String) : String := Text.trimEnd report ++ "\n"

/-- A run of the program. -/
def run (lookup : Lookup) (arguments : List String) : Outcome :=
  match Request.ofArguments? arguments with
  | none => .misused
  | some request =>
    match request.answer lookup with
    | .ok report => .printed (printedText report)
    | .error failure => .failed failure

end DatasetLineage
