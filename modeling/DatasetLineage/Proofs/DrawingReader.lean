/-
Module: DatasetLineage.Proofs.DrawingReader
Purpose: A reader for the DOT language, as far as drawings need it, and what it makes of a drawing.
  An identifier in quotation marks goes up to the first mark that does not follow a backslash, and
  backslashes in front of a backslash or of a quotation mark are dropped. Reading the text of a
  graph gives back its nodes and its edges in order, whatever their names are: a name is one
  identifier, wherever it stands.
Main exports: DotToken, DotScan, dotTokens?, DotStatement, DotDigraph, readDot?, Lexes, lexes_dotId,
  Node.declaration, Edge.declaration, LineageGraph.declarations, LineageGraph.drawn,
  LineageGraph.ReadsBack, LineageGraph.readDot?_text, LineageGraph.readsBack_dotText
-/
import DatasetLineage.Report.Drawing

namespace DatasetLineage

/-! ### The reader -/

section Reader

/-- The tokens of a drawing: an identifier in quotation marks, by what it stands for, a word, an
    arrow, or any other character by itself. -/
inductive DotToken where
  | quoted (name : String)
  | word (letters : String)
  | arrow
  | mark (c : Char)
deriving DecidableEq, Repr

/-- Where a reader stands between two characters, with what it has read of a token latest first.
    - `between`: between two tokens.
    - `dash`: behind a `-`, which may begin an arrow.
    - `word`: behind a letter.
    - `quoted`: inside quotation marks.
    - `escape`: inside of them, behind a backslash that changes what the next character means. -/
inductive DotPlace where
  | between
  | dash
  | word (letters : List Char)
  | quoted (name : List Char)
  | escape (name : List Char)
deriving DecidableEq, Repr

/-- A reader between two characters: the tokens that are complete, latest first, and its place. -/
structure DotScan where
  tokens : List DotToken
  place : DotPlace
deriving DecidableEq, Repr

namespace DotScan

/-- A reader that has read nothing. -/
def start : DotScan := ⟨[], .between⟩

/-- The reader behind a character that begins a token. -/
def begin (tokens : List DotToken) (c : Char) : DotScan :=
  if c = '\x22' then ⟨tokens, .quoted []⟩
  else if c = '-' then ⟨tokens, .dash⟩
  else if c.isAlpha then ⟨tokens, .word [c]⟩
  else if c.isWhitespace then ⟨tokens, .between⟩
  else ⟨.mark c :: tokens, .between⟩

/-- The reader behind one more character. -/
def step (scan : DotScan) (c : Char) : DotScan :=
  match scan.place with
  | .between => begin scan.tokens c
  | .dash =>
    if c = '>' then ⟨.arrow :: scan.tokens, .between⟩ else begin (.mark '-' :: scan.tokens) c
  | .word letters =>
    if c.isAlpha then ⟨scan.tokens, .word (c :: letters)⟩
    else begin (.word (String.ofList letters.reverse) :: scan.tokens) c
  | .quoted name =>
    if c = '\\' then ⟨scan.tokens, .escape name⟩
    else if c = '\x22' then ⟨.quoted (String.ofList name.reverse) :: scan.tokens, .between⟩
    else ⟨scan.tokens, .quoted (c :: name)⟩
  | .escape name =>
    if c = '\\' ∨ c = '\x22' then ⟨scan.tokens, .quoted (c :: name)⟩
    else ⟨scan.tokens, .quoted (c :: '\\' :: name)⟩

/-- The reader behind a stretch of text. -/
def read (scan : DotScan) (text : List Char) : DotScan := text.foldl step scan

end DotScan

/-- The tokens of a text, unless it ends inside quotation marks. -/
def dotTokens? (text : List Char) : Option (List DotToken) :=
  let scan := DotScan.start.read text
  match scan.place with
  | .between => some scan.tokens.reverse
  | .dash => some (.mark '-' :: scan.tokens).reverse
  | .word letters => some (.word (String.ofList letters.reverse) :: scan.tokens).reverse
  | .quoted _ | .escape _ => none

/-- An attribute in brackets. -/
structure DotAttribute where
  name : String
  value : String
deriving DecidableEq, Repr

/-- A statement about a drawing as a whole, about a node or about an arrow. -/
inductive DotStatement where
  | setting (name value : String)
  | node (id : String) (trait : DotAttribute)
  | arrow (tail head : String) (trait? : Option DotAttribute)
deriving DecidableEq, Repr

/-- A digraph: its name and its statements. -/
structure DotDigraph where
  name : String
  statements : List DotStatement
deriving DecidableEq, Repr

/-- The statement that tokens make, the semicolon behind them left out. -/
def dotStatement? : List DotToken → Option DotStatement
  | [.word name, .mark '=', .word value] => some (.setting name value)
  | [.quoted id, .mark '[', .word name, .mark '=', .word value, .mark ']'] =>
    some (.node id ⟨name, value⟩)
  | [.quoted tail, .arrow, .quoted head] => some (.arrow tail head none)
  | [.quoted tail, .arrow, .quoted head, .mark '[', .word name, .mark '=', .word value,
      .mark ']'] => some (.arrow tail head (some ⟨name, value⟩))
  | _ => none

/-- The statements up to the brace that ends a digraph, each with a semicolon behind it. The tokens
    of a statement that has been begun are given latest first. -/
def dotStatements? (begun : List DotToken) : List DotToken → Option (List DotStatement)
  | [] => none
  | token :: rest =>
    if token = .mark ';' then
      match dotStatement? begun.reverse with
      | some statement => (dotStatements? [] rest).map (statement :: ·)
      | none => none
    else if token = .mark '\x7d' then
      if begun = [] ∧ rest = [] then some [] else none
    else dotStatements? (token :: begun) rest

/-- The digraph that a text describes. -/
def readDot? (text : List Char) : Option DotDigraph :=
  match dotTokens? text with
  | some (.word "digraph" :: .word name :: .mark '\x7b' :: body) =>
    (dotStatements? [] body).map (DotDigraph.mk name)
  | _ => none

end Reader

/-! ### Statements and their tokens -/

section Printed

/-- The tokens of a statement, the semicolon behind them left out. -/
def DotStatement.tokens : DotStatement → List DotToken
  | setting name value => [.word name, .mark '=', .word value]
  | node id trait =>
    [.quoted id, .mark '[', .word trait.name, .mark '=', .word trait.value, .mark ']']
  | arrow tail head none => [.quoted tail, .arrow, .quoted head]
  | arrow tail head (some trait) =>
    [.quoted tail, .arrow, .quoted head, .mark '[', .word trait.name, .mark '=',
      .word trait.value, .mark ']']

theorem dotStatement?_tokens (statement : DotStatement) :
    dotStatement? statement.tokens = some statement := by
  cases statement with
  | arrow tail head trait? =>
      cases trait? <;> rfl
  | _ =>
      rfl

/-- A statement has neither a semicolon nor a brace in it. -/
theorem DotStatement.inner_tokens (statement : DotStatement) :
    ∀ token ∈ statement.tokens, token ≠ .mark ';' ∧ token ≠ .mark '\x7d' := by
  cases statement with
  | arrow tail head trait? =>
      cases trait? <;> simp [tokens]
  | _ =>
      simp [tokens]

/-- Tokens inside of a statement are gathered. -/
theorem dotStatements?_inner {tokens : List DotToken}
    (inner : ∀ token ∈ tokens, token ≠ .mark ';' ∧ token ≠ .mark '\x7d')
    (begun rest : List DotToken) :
    dotStatements? begun (tokens ++ rest) = dotStatements? (tokens.reverse ++ begun) rest := by
  induction tokens generalizing begun with
  | nil =>
      rfl
  | cons token tokens ih =>
      rw [List.forall_mem_cons] at inner
      obtain ⟨⟨notSemicolon, notBrace⟩, later⟩ := inner
      rw [List.cons_append, dotStatements?, if_neg notSemicolon, if_neg notBrace, ih later]
      simp

/-- Statements with a semicolon behind each are read back. -/
theorem dotStatements?_flatMap_tokens (statements : List DotStatement) :
    dotStatements? []
      (statements.flatMap (fun statement => statement.tokens ++ [.mark ';']) ++
        [.mark '\x7d']) = some statements := by
  induction statements with
  | nil =>
      rfl
  | cons statement statements ih =>
      rw [List.flatMap_cons, List.append_assoc, List.append_assoc,
        dotStatements?_inner statement.inner_tokens, List.singleton_append, dotStatements?,
        if_pos rfl, List.append_nil, List.reverse_reverse, dotStatement?_tokens]
      simp [ih]

end Printed

/-! ### Texts and their tokens -/

section Lexing

/-- Whether a text that stands between tokens is read as some tokens, whatever stands behind it. -/
def Lexes (text : List Char) (tokens : List DotToken) : Prop :=
  ∀ done, (DotScan.mk done .between).read text = ⟨tokens.reverse ++ done, .between⟩

namespace Lexes

variable {text behind : List Char} {tokens others : List DotToken}

theorem append (front : Lexes text tokens) (back : Lexes behind others) :
    Lexes (text ++ behind) (tokens ++ others) := by
  intro done
  have whole : (DotScan.mk done .between).read (text ++ behind) =
      ((DotScan.mk done .between).read text).read behind := List.foldl_append
  rw [whole, front done, back]
  simp

theorem flatMap {α : Type} {texts : α → List Char} {tokens : α → List DotToken}
    (each : ∀ a, Lexes (texts a) (tokens a)) (list : List α) :
    Lexes (list.flatMap texts) (list.flatMap tokens) := by
  induction list with
  | nil =>
      intro done
      rfl
  | cons a list ih =>
      rw [List.flatMap_cons, List.flatMap_cons]
      exact (each a).append ih

theorem dotTokens? (lexes : Lexes text tokens) : dotTokens? text = some tokens := by
  have read : DotScan.start.read text = ⟨tokens.reverse ++ [], .between⟩ := lexes []
  simp [DatasetLineage.dotTokens?, read]

end Lexes

/-- A text with each occurrence of one character replaced. -/
def replaceEach (old : Char) (new text : List Char) : List Char :=
  text.flatMap fun c => if c = old then new else [c]

/-- Quotation marks have to be seen to last, because they bring in backslashes. -/
theorem escaped_eq_replaceEach (name : List Char) :
    escaped name = replaceEach '\x22' ['\\', '\x22'] (replaceEach '\\' ['\\', '\\'] name) := by
  induction name with
  | nil =>
      rfl
  | cons c name ih =>
      have split : ∀ old new, replaceEach old new (c :: name) =
          (if c = old then new else [c]) ++ replaceEach old new name := fun _ _ => rfl
      by_cases backslash : c = '\\'
      · subst backslash
        simp_all [escaped, replaceEach]
      · by_cases quotation : c = '\x22'
        · subst quotation
          simp_all [escaped, replaceEach]
        · simp_all [escaped, replaceEach]

theorem dotId_eq (name : String) : dotId name = '\x22' :: (escaped name.toList ++ ['\x22']) := rfl

/-- Inside quotation marks, an escaped name is read as the name and ends nothing. -/
theorem read_escaped (done : List DotToken) (acc name : List Char) :
    (DotScan.mk done (.quoted acc)).read (escaped name) =
      ⟨done, .quoted (name.reverse ++ acc)⟩ := by
  induction name generalizing acc with
  | nil =>
      rfl
  | cons c name ih =>
      have later := ih (c :: acc)
      rw [List.reverse_cons, List.append_assoc, List.singleton_append, ← later]
      by_cases special : c = '\\' ∨ c = '\x22'
      · -- the backslash in front keeps the character from being looked at
        have split : escaped (c :: name) = '\\' :: c :: escaped name := by
          simp [escaped, special]
        simp [split, DotScan.read, DotScan.step, special]
      · have split : escaped (c :: name) = c :: escaped name := by
          simp [escaped, special]
        rw [not_or] at special
        simp [split, DotScan.read, DotScan.step, special]

/-- A quoted identifier is one token, which stands for the name. -/
theorem lexes_dotId (name : String) : Lexes (dotId name) [.quoted name] := by
  intro done
  have inside := read_escaped done [] name.toList
  have whole : (DotScan.mk done .between).read (dotId name) =
      ((DotScan.mk done (.quoted [])).read (escaped name.toList)).step '\x22' := by
    rw [dotId_eq]
    exact List.foldl_append
  rw [whole, inside]
  simp [DotScan.step]

end Lexing

/-- The declaration of a node: its name, and the outline of its kind. -/
def Node.declaration : Node → DotStatement
  | dataset name => .node name ⟨"shape", "box"⟩
  | file path => .node path ⟨"shape", "note"⟩

/-- The declaration of an edge: an arrow from the source to the target, or a dashed one to the
    placeholder if there is no target. -/
def Edge.declaration (edge : Edge) : DotStatement :=
  match edge.target with
  | some target => .arrow edge.source.name target none
  | none => .arrow edge.source.name "?" (some ⟨"style", "dashed"⟩)

/-! ### The drawing of a graph -/

namespace LineageGraph

/-- What a drawing of a graph declares: its nodes, then its edges, both in order, and at last the
    placeholder if it is used. -/
def declarations (graph : LineageGraph) : List DotStatement :=
  graph.nodes.map Node.declaration ++ graph.edges.map Edge.declaration ++
    if graph.orphans = [] then [] else [.node "?" ⟨"shape", "plaintext"⟩]

/-- The digraph that a drawing of a graph describes: one setting, then the declarations. -/
def drawn (graph : LineageGraph) : DotDigraph :=
  ⟨"lineage", .setting "rankdir" "LR" :: graph.declarations⟩

/-- How the text of a graph is read.
    - `declared`: what it says is the declarations of the graph.
    - `quoted`: in a name, each backslash is doubled, and then a backslash is put in front of each
      quotation mark.
    - `whole`: such a name is one identifier, which ends where the text of the name ends. -/
structure ReadsBack (graph : LineageGraph) : Prop where
  declared : readDot? graph.dotText.toList = some graph.drawn
  quoted : ∀ name : String, dotId name =
    '\x22' :: replaceEach '\x22' ['\\', '\x22'] (replaceEach '\\' ['\\', '\\'] name.toList) ++
      ['\x22']
  whole : ∀ (name : String) (tokens : List DotToken) (behind : List Char),
    (DotScan.mk tokens .between).read (dotId name ++ behind) =
      (DotScan.mk (.quoted name :: tokens) .between).read behind

end LineageGraph

/-! ### Lines of a drawing -/

section Lines

/-- What a line declares. -/
def DrawingLine.declaration : DrawingLine → DotStatement
  | node id shape => .node id ⟨"shape", String.ofList shape.name⟩
  | arrow tail head => .arrow tail head none
  | orphanArrow tail => .arrow tail "?" (some ⟨"style", "dashed"⟩)
  | placeholder => .node "?" ⟨"shape", "plaintext"⟩

theorem Node.declaration_line (node : Node) : node.line.declaration = node.declaration := by
  cases node <;> rfl

theorem Edge.declaration_line (edge : Edge) : edge.line.declaration = edge.declaration := by
  unfold Edge.line Edge.declaration
  cases edge.target <;> rfl

/-- The lines of a drawing say what is declared. -/
theorem LineageGraph.map_declaration_drawing (graph : LineageGraph) :
    graph.drawing.map DrawingLine.declaration = graph.declarations := by
  have nodes : (graph.nodes.map Node.line).map DrawingLine.declaration =
      graph.nodes.map Node.declaration := by
    rw [List.map_map]
    exact List.map_congr_left fun node _ => node.declaration_line
  have edges : (graph.edges.map Edge.line).map DrawingLine.declaration =
      graph.edges.map Edge.declaration := by
    rw [List.map_map]
    exact List.map_congr_left fun edge _ => edge.declaration_line
  have isUsed : graph.edges.any Edge.isOrphan = false ↔ graph.orphans = [] := by
    rw [orphans, List.filter_eq_nil_iff, List.any_eq_false]
  rw [drawing, declarations, List.map_append, List.map_append, nodes, edges]
  by_cases none : graph.orphans = []
  · rw [if_pos none, isUsed.mpr none]
    rfl
  · have used : graph.edges.any Edge.isOrphan = true :=
      (Bool.not_eq_false _).mp fun unused => none (isUsed.mp unused)
    rw [if_neg none, used]
    rfl

/-- A line without its indent and its end is read as its declaration and the semicolon. -/
theorem DrawingLine.lexes_content (line : DrawingLine) :
    Lexes line.content (line.declaration.tokens ++ [.mark ';']) := by
  cases line with
  | node id shape =>
      have outline : Lexes (" [shape=".toList ++ shape.name ++ "];".toList)
          [.mark '[', .word "shape", .mark '=', .word (String.ofList shape.name), .mark ']',
            .mark ';'] := by
        cases shape with
        | box =>
            exact fun _ => rfl
        | note =>
            exact fun _ => rfl
      have whole := (lexes_dotId id).append outline
      rwa [← List.append_assoc, ← List.append_assoc] at whole
  | arrow tail head =>
      have arrow : Lexes " -> ".toList [.arrow] := fun _ => rfl
      have stop : Lexes ";".toList [.mark ';'] := fun _ => rfl
      exact (((lexes_dotId tail).append arrow).append (lexes_dotId head)).append stop
  | orphanArrow tail =>
      have arrow : Lexes " -> ".toList [.arrow] := fun _ => rfl
      have style : Lexes " [style=dashed];".toList
          [.mark '[', .word "style", .mark '=', .word "dashed", .mark ']', .mark ';'] :=
        fun _ => rfl
      exact (((lexes_dotId tail).append arrow).append (lexes_dotId "?")).append style
  | placeholder =>
      have outline : Lexes " [shape=plaintext];".toList
          [.mark '[', .word "shape", .mark '=', .word "plaintext", .mark ']', .mark ';'] :=
        fun _ => rfl
      exact (lexes_dotId "?").append outline

theorem DrawingLine.lexes_text (line : DrawingLine) :
    Lexes line.text (line.declaration.tokens ++ [.mark ';']) := by
  have indent : Lexes "    ".toList [] := fun _ => rfl
  have lineEnd : Lexes ['\n'] [] := fun _ => rfl
  have whole := (indent.append line.lexes_content).append lineEnd
  rwa [List.nil_append, List.append_nil] at whole

theorem readDot?_of_tokens {text : List Char} {name : String} {body : List DotToken}
    (tokens : dotTokens? text = some (.word "digraph" :: .word name :: .mark '\x7b' :: body)) :
    readDot? text = (dotStatements? [] body).map (DotDigraph.mk name) := by
  simp [readDot?, tokens]

/-- Lines are read as what they declare. -/
theorem readDot?_dotText (lines : List DrawingLine) :
    readDot? (dotText lines).toList =
      some ⟨"lineage", .setting "rankdir" "LR" :: lines.map DrawingLine.declaration⟩ := by
  have name : Lexes "digraph lineage \x7b\n".toList
      [.word "digraph", .word "lineage", .mark '\x7b'] := fun _ => rfl
  have setting : Lexes "    rankdir=LR;\n".toList
      [.word "rankdir", .mark '=', .word "LR", .mark ';'] := fun _ => rfl
  have opening : Lexes "digraph lineage \x7b\n    rankdir=LR;\n".toList
      [.word "digraph", .word "lineage", .mark '\x7b', .word "rankdir", .mark '=', .word "LR",
        .mark ';'] := name.append setting
  have closing : Lexes "\x7d\n".toList [.mark '\x7d'] := fun _ => rfl
  have body := Lexes.flatMap DrawingLine.lexes_text lines
  have tokens := ((opening.append body).append closing).dotTokens?
  have statements := dotStatements?_flatMap_tokens
    (.setting "rankdir" "LR" :: lines.map DrawingLine.declaration)
  rw [List.flatMap_cons, List.flatMap_map] at statements
  -- the text is named first, because its literals are lists of characters as well
  have text : (dotText lines).toList = _ := String.toList_ofList
  rw [text, readDot?_of_tokens tokens]
  exact congrArg (Option.map (DotDigraph.mk "lineage")) statements

theorem LineageGraph.readDot?_text (graph : LineageGraph) :
    readDot? graph.dotText.toList = some graph.drawn := by
  rw [dotText, readDot?_dotText, map_declaration_drawing, drawn]

end Lines

/-- The text of a graph is read as what the graph declares, and no name in it ends early. -/
theorem LineageGraph.readsBack_dotText (graph : LineageGraph) : graph.ReadsBack where
  declared := graph.readDot?_text
  quoted name := by
    rw [dotId_eq, escaped_eq_replaceEach, List.cons_append]
  whole name tokens behind := by
    have read : (DotScan.mk tokens .between).read (dotId name ++ behind) =
        ((DotScan.mk tokens .between).read (dotId name)).read behind := List.foldl_append
    rw [read, lexes_dotId name tokens]
    rfl

end DatasetLineage
