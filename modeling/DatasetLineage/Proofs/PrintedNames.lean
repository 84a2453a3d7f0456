/-
Module: DatasetLineage.Proofs.PrintedNames
Purpose: What is printed about edges can be asked about. A query puts the name of a dataset in lower
  case, which the names of edges are in already, so the name of a dataset or a path that an edge is
  printed with asks about an end of this very edge. Ends of edges are all that a graph has for
  nodes, so no other name is found.
Main exports: Edge.printed, Node.asked, AskFor, exists_of_queryRequest?, Node.query, Queries,
  queries_file, Extraction.AnswersNames, Extraction.answersNames_ofFiles
-/
import DatasetLineage.CommandLine.OptionSyntax
import DatasetLineage.CommandLine.Run
import DatasetLineage.Proofs.LineageProvenance

namespace DatasetLineage

open Text

/-- The names in the record of an edge, each as a node of its kind: the dataset that is derived, and
    the dataset or the path that is read. -/
def Edge.printed (edge : Edge) : List Node :=
  edge.target.toList.map Node.dataset ++ edge.sourceDataset?.toList.map Node.dataset ++
    edge.sourceFile?.toList.map Node.file

namespace Node

/-- Whether a query has to say `--file` to ask about a name. -/
def isFile : Node → Bool
  | dataset _ => false
  | file _ => true

/-- The node that a query asks about by a name. Only the name of a dataset is put in lower case. -/
def asked : Node → Node
  | dataset name => dataset (lowercase name)
  | file path => file path

/-- The arguments of a query that gives a name and nothing else. Behind the separator every source
    is an operand, whatever it begins with. -/
def query (source : String) : Node → List String
  | dataset name => ["--node=" ++ name, "--", source]
  | file path => ["--node=" ++ path, "--file", "--", source]

theorem eq_of_name_eq {a b : Node} (sameName : a.name = b.name) (sameKind : a.isFile = b.isFile) :
    a = b := by
  cases a with
  | dataset name =>
      cases b with
      | dataset other =>
          exact congrArg dataset sameName
      | file path =>
          cases sameKind
  | file path =>
      cases b with
      | dataset name =>
          cases sameKind
      | file other =>
          exact congrArg file sameName

end Node

/-! ### Arguments of a query -/

section Arguments

variable {arguments : List String} {name other : Node} {request : Request}

/-- The options of the command that queries. -/
def queryOptions : List OptionName := [.node, .file, .direction, .maxDepth] ++ inputOptions

/-- Whether the arguments of a query give a name: behind `--node`, and with `--file` if it is a
    path. -/
def AskFor (arguments : List String) (name : Node) : Prop :=
  ∃ given, readArguments queryOptions none arguments = some given ∧
    value? given .node = some (some name.name) ∧ flag? given .file = some name.isFile

/-- Arguments ask about one name at most. -/
theorem AskFor.unique (one : AskFor arguments name) (another : AskFor arguments other) :
    name = other := by
  obtain ⟨given, read, node, file⟩ := one
  obtain ⟨given', read', node', file'⟩ := another
  cases read.symm.trans read'
  have sameName : some (some name.name) = some (some other.name) := node.symm.trans node'
  have sameKind : some name.isFile = some other.isFile := file.symm.trans file'
  exact Node.eq_of_name_eq (by simpa using sameName) (by simpa using sameKind)

/-- A query is about the node that its arguments ask about by a name. -/
theorem exists_of_queryRequest? (read : queryRequest? arguments = some request) :
    ∃ name input direction maxDepth pretty, AskFor arguments name ∧
      request = .query input name.asked direction maxDepth pretty := by
  unfold queryRequest? at read
  simp only [bind, Option.bind_eq_some_iff] at read
  obtain ⟨given, isRead, input, _, _, isNode, text, rfl, isFile, hasFile, _, _, direction, _,
    _, _, rest⟩ := read
  -- the node does not depend on how the number of hops is given
  have made : ∃ maxDepth pretty, request =
      .query input (if isFile then Node.file text else Node.dataset (lowercase text)) direction
        maxDepth pretty := by
    split at rest
    · obtain ⟨maxDepth, _, rest⟩ := Option.bind_eq_some_iff.mp rest
      obtain ⟨pretty, _, same⟩ := Option.bind_eq_some_iff.mp rest
      exact ⟨maxDepth, pretty, (Option.some.inj same).symm⟩
    · obtain ⟨maxDepth, _, rest⟩ := Option.bind_eq_some_iff.mp rest
      obtain ⟨pretty, _, same⟩ := Option.bind_eq_some_iff.mp rest
      exact ⟨maxDepth, pretty, (Option.some.inj same).symm⟩
  obtain ⟨maxDepth, pretty, rfl⟩ := made
  cases isFile with
  | false =>
      exact ⟨.dataset text, input, direction, maxDepth, pretty,
        ⟨given, isRead, isNode, hasFile⟩, rfl⟩
  | true =>
      exact ⟨.file text, input, direction, maxDepth, pretty,
        ⟨given, isRead, isNode, hasFile⟩, rfl⟩

theorem AskFor.exists_query (asks : AskFor arguments name)
    (read : Request.ofArguments? ("query" :: arguments) = some request) :
    ∃ input direction maxDepth pretty,
      request = .query input name.asked direction maxDepth pretty := by
  obtain ⟨other, input, direction, maxDepth, pretty, asks', rfl⟩ := exists_of_queryRequest? read
  exact ⟨input, direction, maxDepth, pretty, by rw [asks.unique asks']⟩

/-- The arguments that a query for a name is read as. -/
def Node.queryArguments (source : String) : Node → List Argument
  | dataset name => [.option .node (some name), .operand source]
  | file path => [.option .node (some path), .option .file none, .operand source]

/-- A name behind the equals sign is the value of the option, whatever it begins with. -/
theorem spells_node (value : String) :
    OptionName.Spells .node ("--node=" ++ value).toList (some value.toList) := by
  rw [String.toList_append]
  exact .longEquals rfl value.toList

/-- A query that gives a name is read as that name and its source. -/
theorem ReadsOptions.query {read : List String → Option (List Argument)}
    (reads : ReadsOptions queryOptions read) (source : String) (name : Node) :
    read (name.query source) = some (name.queryArguments source) := by
  have file : OptionName.Spells .file "--file".toList none := .long
  cases name with
  | dataset name =>
      rw [Node.query, reads.joined .node (by decide) _ _ _ (spells_node name), reads.separator,
        String.ofList_toList]
      rfl
  | file path =>
      rw [Node.query, reads.joined .node (by decide) _ _ _ (spells_node path),
        reads.flag .file (by decide) _ _ rfl file, reads.separator, String.ofList_toList]
      rfl

theorem askFor_query (source : String) (name : Node) : AskFor (name.query source) name := by
  refine ⟨name.queryArguments source, (readsOptions_readArguments _).query source name, ?_⟩
  cases name with
  | dataset name =>
      exact ⟨rfl, rfl⟩
  | file path =>
      exact ⟨rfl, rfl⟩

theorem ofArguments?_query {source : String} (nonempty : source ≠ "") (name : Node) :
    Request.ofArguments? ("query" :: name.query source) =
      some (.query ⟨source, none, false⟩ name.asked .upstream none false) := by
  have read := (readsOptions_readArguments _).query source name
  have input : input? (name.queryArguments source) = some ⟨source, none, false⟩ := by
    cases name <;>
      simp [input?, Node.queryArguments, value?, flag?, occurrences, operands, nonempty]
  unfold queryOptions at read
  unfold Request.ofArguments? queryRequest?
  simp only [read, bind, Option.bind_some, input]
  cases name with
  | dataset name =>
      rfl
  | file path =>
      rfl

end Arguments

/-! ### Runs of a query -/

section Runs

variable {lookup : Lookup} {arguments : List String} {name node : Node} {request : Request}
  {settings : Settings} {files : List SourceFile}

/-- Whether a command line asks about a name, and the program files that it asks about are these. -/
def Queries (lookup : Lookup) (arguments : List String) (name : Node) (files : List SourceFile) :
    Prop :=
  AskFor arguments name ∧ ∃ request settings,
    Request.ofArguments? ("query" :: arguments) = some request ∧
      request.input.loadSettings lookup = .ok settings ∧
      request.input.loadSources settings lookup = .ok files

/-- Every program file can be asked about every name. -/
theorem queries_file {source : String} (nonempty : source ≠ "") {bytes : List UInt8}
    (isFile : lookup source = some (.file (some bytes))) (name : Node) :
    Queries lookup (name.query source) name [⟨source, Utf8.decodeLossy bytes⟩] := by
  refine ⟨askFor_query source name, _, {}, ofArguments?_query nonempty name, rfl, ?_⟩
  have given : (Request.query ⟨source, none, false⟩ name.asked .upstream none false).input.source =
      source := rfl
  rw [Input.loadSources, given, isFile]
  rfl

/-- Once a request is read and its files are there, its report decides what becomes of the run. -/
theorem run_of_ofArguments? (read : Request.ofArguments? arguments = some request)
    (loaded : request.input.loadSettings lookup = .ok settings)
    (given : request.input.loadSources settings lookup = .ok files) :
    run lookup arguments = match request.report settings (.ofFiles files) with
      | .ok report => .printed (printedText report)
      | .error failure => .failed failure := by
  have answer : request.answer lookup = request.report settings (.ofFiles files) := by
    rw [Request.answer, loaded]
    simp only [bind, Except.bind, given]
  cases reported : request.report settings (.ofFiles files) with
  | ok report =>
      simp [run, read, answer, reported]
  | error failure =>
      simp [run, read, answer, reported]

/-- A query for a name is answered if the graph has the node, and otherwise this node is reported as
    unknown. -/
theorem Queries.run_eq (queries : Queries lookup arguments name files) :
    (Extraction.ofFiles files).graph.contains name.asked = true ∧
        (∃ text, run lookup ("query" :: arguments) = .printed text) ∨
      (Extraction.ofFiles files).graph.contains name.asked = false ∧
        run lookup ("query" :: arguments) = .failed (.unknownNode name.asked) := by
  obtain ⟨asks, request, settings, read, loaded, given⟩ := queries
  rw [run_of_ofArguments? read loaded given]
  obtain ⟨input, direction, maxDepth, pretty, rfl⟩ := asks.exists_query read
  cases known : (Extraction.ofFiles files).graph.contains name.asked with
  | true =>
      simp [Request.report, known]
  | false =>
      simp [Request.report, known]

end Runs

/-! ### Names of edges -/

section Edges

variable {edge : Edge} {name : Node}

/-- The names that an edge is printed with are its ends. -/
theorem Edge.printed_eq_endpoints (edge : Edge) : edge.printed = edge.endpoints := by
  obtain ⟨target, source, origin⟩ := edge
  cases target <;> cases source <;> rfl

/-- An edge that is taken from tokens is printed with names that are asked about as they are. -/
theorem Edge.TakenFrom.asked {tokens : List Token} (taken : edge.TakenFrom tokens)
    (isPrinted : name ∈ edge.printed) : name.asked = name := by
  rw [Edge.printed_eq_endpoints] at isPrinted
  cases name with
  | file path =>
      rfl
  | dataset name =>
      obtain ⟨token, _, _, rfl⟩ := taken.namedBy isPrinted
      exact congrArg Node.dataset (lowercase_lowercase token.spelling)

end Edges

namespace Extraction

variable {files : List SourceFile} {edge : Edge} {name node : Node}

theorem asked_of_mem_printed (member : edge ∈ (ofFiles files).edges)
    (isPrinted : name ∈ edge.printed) : name.asked = name := by
  obtain ⟨file, _, ofFile⟩ := mem_edges_ofFiles.mp member
  exact (FileLineage.takenFrom_of_mem_edges ofFile).asked isPrinted

theorem mem_edgesFor_iff :
    edge ∈ (ofFiles files).graph.edgesFor node ↔
      edge ∈ (ofFiles files).edges ∧ node ∈ edge.printed := by
  rw [LineageGraph.edgesFor, List.mem_filter, Edge.touches_iff, Edge.printed_eq_endpoints]
  rfl

/-- The nodes of the graph are those that an edge is printed with. -/
theorem contains_iff :
    (ofFiles files).graph.contains node = true ↔
      ∃ edge ∈ (ofFiles files).edges, node ∈ edge.printed := by
  have known : (ofFiles files).graph.contains node = true ↔
      (ofFiles files).graph.edgesFor node ≠ [] := by
    rw [ofFiles_eq]
    exact LineageGraph.contains_stored_iff
  rw [known]
  constructor
  · intro nonempty
    obtain ⟨edge, member⟩ := List.exists_mem_of_ne_nil _ nonempty
    exact ⟨edge, mem_edgesFor_iff.mp member⟩
  · rintro ⟨edge, member⟩
    exact List.ne_nil_of_mem (mem_edgesFor_iff.mpr member)

/-- How the lineage of some files answers to names.
    - `found`: a name that an edge is printed with asks about a node of the graph, and the edge is
      among the edges of this node.
    - `missing`: a node that no edge is printed with is not in the graph.
    - `answered`, `refused`: so a query for a printed name prints an answer, and one that asks about
      a node that is not printed fails for it. -/
structure AnswersNames (files : List SourceFile) : Prop where
  found : ∀ edge ∈ (ofFiles files).edges, ∀ name ∈ edge.printed,
    (ofFiles files).graph.contains name.asked = true ∧
      edge ∈ (ofFiles files).graph.edgesFor name.asked
  missing : ∀ node, (∀ edge ∈ (ofFiles files).edges, node ∉ edge.printed) →
    (ofFiles files).graph.contains node = false
  answered : ∀ lookup arguments name, Queries lookup arguments name files →
    (∃ edge ∈ (ofFiles files).edges, name ∈ edge.printed) →
      ∃ text, run lookup ("query" :: arguments) = .printed text
  refused : ∀ lookup arguments name, Queries lookup arguments name files →
    (∀ edge ∈ (ofFiles files).edges, name.asked ∉ edge.printed) →
      run lookup ("query" :: arguments) = .failed (.unknownNode name.asked)

/-- Whatever the lineage of some files is printed with can be asked about, and nothing else. -/
theorem answersNames_ofFiles (files : List SourceFile) : AnswersNames files where
  found edge member name isPrinted := by
    rw [asked_of_mem_printed member isPrinted]
    exact ⟨contains_iff.mpr ⟨edge, member, isPrinted⟩, mem_edgesFor_iff.mpr ⟨member, isPrinted⟩⟩
  missing node unprinted := by
    rw [Bool.eq_false_iff, Ne, contains_iff]
    rintro ⟨edge, member, isPrinted⟩
    exact unprinted edge member isPrinted
  answered lookup arguments name queries printed := by
    obtain ⟨edge, member, isPrinted⟩ := printed
    rcases queries.run_eq with ⟨_, answered⟩ | ⟨unknown, _⟩
    · exact answered
    · rw [asked_of_mem_printed member isPrinted, Bool.eq_false_iff, Ne, contains_iff] at unknown
      exact absurd ⟨edge, member, isPrinted⟩ unknown
  refused lookup arguments name queries unprinted := by
    rcases queries.run_eq with ⟨known, _⟩ | ⟨_, failed⟩
    · obtain ⟨edge, member, isPrinted⟩ := contains_iff.mp known
      exact absurd isPrinted (unprinted edge member)
    · exact failed

end Extraction

end DatasetLineage
