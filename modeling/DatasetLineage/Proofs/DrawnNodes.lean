/-
Module: DatasetLineage.Proofs.DrawnNodes
Purpose: Which nodes a drawing keeps apart. A drawing knows a node by its name alone, so its
  vertices are the names of nodes. That is one vertex for each node if no dataset is called like a
  file and, where the placeholder is drawn, no file is called like that. A dataset never is, because
  its name is made of letters, digits, underscores, ampersands and dots.
Main exports: DotDigraph.vertices, DotDigraph.Draws, LineageGraph.vertexNames,
  LineageGraph.DrawnApart, LineageGraph.KeepsNodesApart, LineageGraph.mem_vertices_drawn,
  LineageGraph.draws_drawn, LineageGraph.NamesApart, LineageGraph.keepsNodesApart_stored_iff,
  LineageGraph.DrawsNames, Extraction.drawsNames_ofFiles
-/
import DatasetLineage.Proofs.DrawingReader
import DatasetLineage.Proofs.PrintedNames

namespace DatasetLineage

open Text

/-- The identifiers that a statement mentions. -/
def DotStatement.ids : DotStatement → List String
  | setting _ _ => []
  | node id _ => [id]
  | arrow tail head _ => [tail, head]

namespace DotDigraph

/-- The vertices of a digraph: what its statements mention, each once. -/
def vertices (digraph : DotDigraph) : List String :=
  (digraph.statements.flatMap DotStatement.ids).eraseDups

/-- Whether a digraph has an arrow between two vertices. -/
def Draws (digraph : DotDigraph) (tail head : String) : Prop :=
  ∃ trait?, .arrow tail head trait? ∈ digraph.statements

end DotDigraph

namespace LineageGraph

/-- The names of the nodes and, if some edge has no target, the name of the placeholder. -/
def vertexNames (graph : LineageGraph) : List String :=
  graph.nodes.map Node.name ++ if graph.orphans = [] then [] else ["?"]

/-- Whether a digraph that is drawn for a graph keeps its nodes apart.
    - `ids`: different nodes have different identifiers.
    - `placeholder`: if some edge has no target, no node has the identifier of the placeholder.
    - `vertices`: there is one vertex for each node, and one for the placeholder if it is used.
    - `arrows`: an arrow leads from one node to another only if this one reads that one. -/
structure DrawnApart (graph : LineageGraph) (digraph : DotDigraph) : Prop where
  ids : ∀ a ∈ graph.nodes, ∀ b ∈ graph.nodes, a ≠ b → dotId a.name ≠ dotId b.name
  placeholder : graph.orphans ≠ [] → ∀ node ∈ graph.nodes, dotId node.name ≠ dotId "?"
  vertices : digraph.vertices.Perm graph.vertexNames
  arrows : ∀ a ∈ graph.nodes, ∀ b ∈ graph.nodes, digraph.Draws a.name b.name → graph.Reads b a

/-- Whether the text of a graph draws a digraph that keeps its nodes apart. -/
def KeepsNodesApart (graph : LineageGraph) : Prop :=
  ∃ digraph, readDot? graph.dotText.toList = some digraph ∧ graph.DrawnApart digraph

/-- What it takes for a drawing to keep the nodes of a graph apart.
    - `kinds`: no file is called like a dataset.
    - `placeholder`: if some edge has no target, no file is called like the placeholder. -/
structure NamesApart (graph : LineageGraph) : Prop where
  kinds : ∀ name, .dataset name ∈ graph.nodes → .file name ∉ graph.nodes
  placeholder : graph.orphans ≠ [] → .file "?" ∉ graph.nodes

end LineageGraph

/-- Different names have different identifiers. -/
theorem dotId_inj {name other : String} : dotId name = dotId other ↔ name = other := by
  constructor
  · intro same
    have one := (lexes_dotId name).dotTokens?
    have another := (lexes_dotId other).dotTokens?
    rw [same, another] at one
    simpa [eq_comm] using one
  · exact congrArg dotId

theorem Node.ids_declaration (node : Node) : node.declaration.ids = [node.name] := by
  cases node <;> rfl

/-- An edge is declared as an arrow from its source to its target, or to the placeholder instead of
    a target. -/
theorem Edge.exists_declaration_eq (edge : Edge) :
    ∃ trait?, edge.declaration = .arrow edge.source.name (edge.target.getD "?") trait? := by
  unfold Edge.declaration
  cases edge.target with
  | some target =>
      exact ⟨none, rfl⟩
  | none =>
      exact ⟨some ⟨"style", "dashed"⟩, rfl⟩

namespace LineageGraph

/-! ### The drawn digraph -/

section Digraph

variable {graph : LineageGraph} {edges : List Edge} {edge : Edge} {id tail head : String}

theorem mem_vertexNames :
    id ∈ graph.vertexNames ↔
      (∃ node ∈ graph.nodes, node.name = id) ∨ graph.orphans ≠ [] ∧ id = "?" := by
  rw [vertexNames, List.mem_append, List.mem_map]
  by_cases none : graph.orphans = [] <;> simp [none]

/-- What a drawing says is its setting or is about a node, an edge or the placeholder. -/
theorem mem_statements_drawn {statement : DotStatement} :
    statement ∈ graph.drawn.statements ↔
      statement = .setting "rankdir" "LR" ∨
      (∃ node ∈ graph.nodes, node.declaration = statement) ∨
      (∃ edge ∈ graph.edges, edge.declaration = statement) ∨
      graph.orphans ≠ [] ∧ statement = .node "?" ⟨"shape", "plaintext"⟩ := by
  rw [drawn, declarations, List.mem_cons, List.mem_append, List.mem_append, List.mem_map,
    List.mem_map, or_assoc]
  by_cases none : graph.orphans = [] <;> simp [none]

/-- The arrows of a drawing are its edges. -/
theorem draws_drawn :
    graph.drawn.Draws tail head ↔
      ∃ edge ∈ graph.edges, edge.source.name = tail ∧ edge.target.getD "?" = head := by
  constructor
  · rintro ⟨trait?, member⟩
    rcases mem_statements_drawn.mp member with isSetting | ⟨node, _, ofNode⟩ |
      ⟨edge, given, ofEdge⟩ | ⟨_, isPlaceholder⟩
    · cases isSetting
    · cases node <;> cases ofNode
    · obtain ⟨style?, declared⟩ := edge.exists_declaration_eq
      cases declared.symm.trans ofEdge
      exact ⟨edge, given, rfl, rfl⟩
    · cases isPlaceholder
  · rintro ⟨edge, given, rfl, rfl⟩
    obtain ⟨trait?, declared⟩ := edge.exists_declaration_eq
    exact ⟨trait?, mem_statements_drawn.mpr (.inr (.inr (.inl ⟨edge, given, declared⟩)))⟩

theorem source_mem_nodes (given : edge ∈ edges) : edge.source ∈ (stored edges).nodes :=
  mem_nodes_stored.mpr ⟨edge, given, Edge.mem_endpoints.mpr (.inr rfl)⟩

theorem target_mem_nodes {target : String} (given : edge ∈ edges)
    (isTarget : edge.target = some target) : .dataset target ∈ (stored edges).nodes := by
  have targetNode : edge.targetNode? = some (.dataset target) := by
    rw [Edge.targetNode?, isTarget, Option.map_some]
  exact mem_nodes_stored.mpr ⟨edge, given, Edge.mem_endpoints.mpr (.inl targetNode)⟩

theorem orphans_ne_nil (given : edge ∈ graph.edges) (noTarget : edge.target = none) :
    graph.orphans ≠ [] := by
  have isOrphan : edge ∈ graph.orphans := by
    rw [orphans, List.mem_filter, Edge.isOrphan, noTarget]
    exact ⟨given, rfl⟩
  exact List.ne_nil_of_mem isOrphan

/-- Edges have no vertices but the names of nodes and the placeholder. -/
theorem mem_vertexNames_of_mem_edges (given : edge ∈ edges) :
    edge.source.name ∈ (stored edges).vertexNames ∧
      edge.target.getD "?" ∈ (stored edges).vertexNames := by
  constructor
  · exact mem_vertexNames.mpr (.inl ⟨edge.source, source_mem_nodes given, rfl⟩)
  · cases isTarget : edge.target with
    | some target =>
        exact mem_vertexNames.mpr (.inl ⟨.dataset target, target_mem_nodes given isTarget, rfl⟩)
    | none =>
        have used : (stored edges).orphans ≠ [] := orphans_ne_nil given isTarget
        exact mem_vertexNames.mpr (.inr ⟨used, rfl⟩)

/-- The vertices of a drawing are the names of the nodes and the placeholder. -/
theorem mem_vertices_drawn :
    id ∈ (stored edges).drawn.vertices ↔ id ∈ (stored edges).vertexNames := by
  rw [DotDigraph.vertices, List.mem_eraseDups, List.mem_flatMap]
  constructor
  · rintro ⟨statement, member, mentioned⟩
    rcases mem_statements_drawn.mp member with rfl | ⟨node, given, rfl⟩ | ⟨edge, given, rfl⟩ |
      ⟨used, rfl⟩
    · cases mentioned
    · rw [Node.ids_declaration, List.mem_singleton] at mentioned
      exact mem_vertexNames.mpr (.inl ⟨node, given, mentioned.symm⟩)
    · obtain ⟨source, target⟩ := mem_vertexNames_of_mem_edges given
      obtain ⟨trait?, declared⟩ := edge.exists_declaration_eq
      rw [declared] at mentioned
      rcases List.mem_pair.mp mentioned with rfl | rfl
      · exact source
      · exact target
    · exact mem_vertexNames.mpr (.inr ⟨used, List.mem_singleton.mp mentioned⟩)
  · intro isName
    rcases mem_vertexNames.mp isName with ⟨node, given, rfl⟩ | ⟨used, rfl⟩
    · refine ⟨node.declaration, mem_statements_drawn.mpr (.inr (.inl ⟨node, given, rfl⟩)), ?_⟩
      rw [Node.ids_declaration]
      exact List.mem_singleton_self node.name
    · exact ⟨_, mem_statements_drawn.mpr (.inr (.inr (.inr ⟨used, rfl⟩))),
        List.mem_singleton_self "?"⟩

end Digraph

/-! ### Names that keep nodes apart -/

section Apart

variable {graph : LineageGraph} {edges : List Edge} {a b : Node}

theorem NamesApart.eq_of_name_eq (apart : graph.NamesApart) (ofA : a ∈ graph.nodes)
    (ofB : b ∈ graph.nodes) (sameName : a.name = b.name) : a = b := by
  apply Node.eq_of_name_eq sameName
  cases a with
  | dataset name =>
      cases b with
      | dataset other =>
          rfl
      | file path =>
          cases sameName
          exact absurd ofB (apart.kinds _ ofA)
  | file path =>
      cases b with
      | dataset name =>
          cases sameName
          exact absurd ofA (apart.kinds _ ofB)
      | file other =>
          rfl

/-- Where the placeholder is used, no node is called like it. -/
theorem NamesApart.name_ne_placeholder (apart : graph.NamesApart)
    (noDataset : .dataset "?" ∉ graph.nodes) (used : graph.orphans ≠ []) (given : a ∈ graph.nodes) :
    a.name ≠ "?" := by
  intro sameName
  cases a with
  | dataset name =>
      cases sameName
      exact noDataset given
  | file path =>
      cases sameName
      exact apart.placeholder used given

theorem NamesApart.nodup_vertexNames (apart : (stored edges).NamesApart)
    (noDataset : .dataset "?" ∉ (stored edges).nodes) : (stored edges).vertexNames.Nodup := by
  have names : ((stored edges).nodes.map Node.name).Nodup :=
    (nodup_nodes_stored edges).map_on fun a ofA b ofB => apart.eq_of_name_eq ofA ofB
  rw [vertexNames]
  by_cases none : (stored edges).orphans = []
  · rwa [if_pos none, List.append_nil]
  · have unused : "?" ∉ (stored edges).nodes.map Node.name := by
      intro isName
      obtain ⟨node, given, sameName⟩ := List.mem_map.mp isName
      exact apart.name_ne_placeholder noDataset none given sameName
    rw [if_neg none]
    exact names.append (List.nodup_singleton "?") (List.disjoint_singleton.mpr unused)

/-- If names are apart, an arrow from one node to another is an edge between these. -/
theorem NamesApart.reads_of_draws (apart : (stored edges).NamesApart)
    (noDataset : .dataset "?" ∉ (stored edges).nodes) (ofA : a ∈ (stored edges).nodes)
    (ofB : b ∈ (stored edges).nodes) (draws : (stored edges).drawn.Draws a.name b.name) :
    (stored edges).Reads b a := by
  obtain ⟨edge, given, isTail, isHead⟩ := draws_drawn.mp draws
  have isSource : edge.source = a := apart.eq_of_name_eq (source_mem_nodes given) ofA isTail
  cases isTarget : edge.target with
  | some target =>
      rw [isTarget, Option.getD_some] at isHead
      have isTargetNode : .dataset target = b :=
        apart.eq_of_name_eq (target_mem_nodes given isTarget) ofB isHead
      refine ⟨edge, given, ?_, isSource⟩
      rw [Edge.targetNode?, isTarget, Option.map_some, isTargetNode]
  | none =>
      rw [isTarget, Option.getD_none] at isHead
      have used : (stored edges).orphans ≠ [] := orphans_ne_nil given isTarget
      exact absurd isHead.symm (apart.name_ne_placeholder noDataset used ofB)

/-- A drawing keeps the nodes of a graph apart if their names are, and only then. -/
theorem keepsNodesApart_stored_iff (noDataset : .dataset "?" ∉ (stored edges).nodes) :
    (stored edges).KeepsNodesApart ↔ (stored edges).NamesApart := by
  constructor
  · rintro ⟨digraph, _, apart⟩
    constructor
    · intro name isDataset isFile
      exact apart.ids _ isDataset _ isFile Node.noConfusion rfl
    · intro used isFile
      exact apart.placeholder used _ isFile rfl
  · intro apart
    refine ⟨(stored edges).drawn, readDot?_text _, ?_, ?_, ?_, ?_⟩
    · intro a ofA b ofB different sameId
      exact different (apart.eq_of_name_eq ofA ofB (dotId_inj.mp sameId))
    · intro used node given sameId
      exact apart.name_ne_placeholder noDataset used given (dotId_inj.mp sameId)
    · apply (List.perm_ext_iff_of_nodup (nodup_eraseDups _)
        (apart.nodup_vertexNames noDataset)).mpr
      exact fun id => mem_vertices_drawn
    · intro a ofA b ofB draws
      exact apart.reads_of_draws noDataset ofA ofB draws

end Apart

/-- How a graph is drawn.
    - `ids`: an identifier tells the name of a node and nothing else about it.
    - `shown`: the text is that of a digraph whose vertices are the names of the nodes, and the
      placeholder if it is used, and whose arrows are the edges.
    - `apart`: so nodes are kept apart exactly if their names are. -/
structure DrawsNames (graph : LineageGraph) : Prop where
  ids : ∀ a b : Node, dotId a.name = dotId b.name ↔ a.name = b.name
  shown : ∃ digraph, readDot? graph.dotText.toList = some digraph ∧
    (∀ id, id ∈ digraph.vertices ↔ id ∈ graph.vertexNames) ∧
    ∀ tail head, digraph.Draws tail head ↔
      ∃ edge ∈ graph.edges, edge.source.name = tail ∧ edge.target.getD "?" = head
  apart : graph.KeepsNodesApart ↔ graph.NamesApart

theorem drawsNames_stored {edges : List Edge} (noDataset : .dataset "?" ∉ (stored edges).nodes) :
    (stored edges).DrawsNames where
  ids _ _ := dotId_inj
  shown := ⟨(stored edges).drawn, readDot?_text _, fun _ => mem_vertices_drawn,
    fun _ _ => draws_drawn⟩
  apart := keepsNodesApart_stored_iff noDataset

end LineageGraph

/-! ### The name of the placeholder -/

section Names

variable {c : Char} {spelling rest : List Char}

/-- A word is made of characters that words go on with and of dots. -/
theorem IsWordBefore.isWordTail_or_dot (isWord : IsWordBefore rest spelling)
    (member : c ∈ spelling) : isWordTail c = true ∨ c = '.' := by
  obtain ⟨first, tail, spelled, starts, takes⟩ := isWord
  have behind : c ∈ first :: tail → isWordTail c = true ∨ c = '.' := by
    intro inWord
    rcases List.mem_cons.mp inWord with rfl | inTail
    · exact .inl (isWordTail_of_isWordStart starts)
    · exact isWordTail_or_dot_of_takesTail takes inTail
  rcases spelled with rfl | rfl
  · exact behind member
  · rcases List.mem_cons.mp member with rfl | inWord
    · exact .inl rfl
    · exact behind inWord

/-- There is no question mark in a word or a number. -/
theorem question_not_mem_of_fits {piece : Piece} {statementStart : Bool}
    (fits : piece.Fits statementStart rest)
    (named : piece = .word spelling ∨ piece = .number spelling) : '?' ∉ spelling := by
  rcases named with rfl | rfl
  · intro member
    rcases fits.isWordTail_or_dot member with inWord | isDot
    · exact absurd inWord (by decide +kernel)
    · exact absurd isDot (by decide)
  · obtain ⟨first, tail, rfl, digit, goesOn, _⟩ := fits
    intro member
    rcases List.mem_cons.mp member with rfl | inTail
    · exact absurd digit (by decide)
    · exact absurd (goesOn _ inTail) (by decide +kernel)

/-- No identifier of a text has a question mark, in lower case neither. -/
theorem NamedIn.question_not_mem {text name : String} (named : NamedIn text name) :
    '?' ∉ name.toList := by
  obtain ⟨token, _, _, rfl, spelling, piece, isNamed, spelled, front, back, split, _⟩ := named
  have member : piece ∈ Piece.ofText text.toList := by
    rw [split]
    exact List.mem_append_cons_self
  obtain ⟨_, _, fits⟩ := (Piece.separated_ofText text.toList).exists_fits member
  intro inName
  have inSpelling := mem_of_mem_lowercase (by decide) inName
  rw [spelled, String.toList_ofList] at inSpelling
  exact question_not_mem_of_fits fits isNamed inSpelling

end Names

namespace Extraction

variable {files : List SourceFile}

/-- No dataset is called like the placeholder. -/
theorem placeholder_not_mem_nodes : .dataset "?" ∉ (ofFiles files).graph.nodes := by
  intro isNode
  obtain ⟨edge, given, isPrinted⟩ := contains_iff.mp (List.contains_iff_mem.mpr isNode)
  rw [Edge.printed_eq_endpoints] at isPrinted
  obtain ⟨file, _, ofFile⟩ := mem_edges_ofFiles.mp given
  have named := (FileLineage.takenFrom_of_mem_edges ofFile).namedBy isPrinted
  exact (namedIn_of_namedBy named).question_not_mem (by decide)

/-- The drawing of the lineage of some files knows nodes by their names. -/
theorem drawsNames_ofFiles (files : List SourceFile) : (ofFiles files).graph.DrawsNames := by
  have noDataset : .dataset "?" ∉ (ofFiles files).graph.nodes := placeholder_not_mem_nodes
  rw [ofFiles_eq] at noDataset ⊢
  exact LineageGraph.drawsNames_stored noDataset

/-- A dataset and a file of one name are one vertex, so an arrow from the file looks like one from
    the dataset. -/
theorem not_keepsNodesApart_of_same_name :
    let graph := (ofFiles [⟨"p.sas", "data b; infile 'a'; data c; set a;"⟩]).graph
    graph.nodes = [.dataset "b", .file "a", .dataset "c", .dataset "a"] ∧
      graph.drawn.Draws "a" "b" ∧ ¬ graph.Reads (.dataset "b") (.dataset "a") ∧
      ¬ graph.KeepsNodesApart := by
  intro graph
  have nodes : graph.nodes = [.dataset "b", .file "a", .dataset "c", .dataset "a"] := by
    decide +kernel
  have arrow : .arrow "a" "b" none ∈ graph.drawn.statements := by decide +kernel
  have edges : graph.edges =
      [⟨some "b", .file "a", "p.sas"⟩, ⟨some "c", .dataset "a", "p.sas"⟩] := by
    decide +kernel
  refine ⟨nodes, ⟨none, arrow⟩, ?_, ?_⟩
  · rintro ⟨edge, given, target, source⟩
    rw [edges] at given
    rcases List.mem_pair.mp given with rfl | rfl
    · cases source
    · exact absurd target (by decide)
  · rintro ⟨digraph, _, apart⟩
    exact apart.ids (.dataset "a") (by simp [nodes]) (.file "a") (by simp [nodes])
      Node.noConfusion rfl

/-- A file can be called like the placeholder. -/
example :
    let graph := (ofFiles [⟨"p.sas", "infile '?';"⟩]).graph
    graph.nodes = [.file "?"] ∧ graph.vertexNames = ["?", "?"] := by
  decide +kernel

end Extraction

end DatasetLineage
