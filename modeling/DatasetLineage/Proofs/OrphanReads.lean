/-
Module: DatasetLineage.Proofs.OrphanReads
Purpose: Reads that have no target. Statements read without a target up to the first one that
  defines a dataset. Each of these reads is reported where its keyword stands, in the order of the
  program, and has an edge without a target, because a read names something that it reads. No other
  statement has such an edge, and nothing else is reported as such a read. So a file has an edge
  without a target if a read without a target is reported for it, and only then.
Main exports: Statement.read?, orphanReads, edgesFrom, problemsFrom, resolve_eq,
  mem_flatten_edgesFrom, problemsFrom_none, FileLineage.warnings_ofScanned,
  FileLineage.PairsOrphans, FileLineage.pairsOrphans, FileLineage.warnsInOrder,
  Extraction.exists_isOrphan_iff_of_pairs
-/
import DatasetLineage.Proofs.FaultPlaces
import DatasetLineage.Proofs.FileOrder

namespace DatasetLineage

/-- The keyword of a statement that reads, and what it reads. -/
def Statement.read? : Statement → Option (Mention × ReadOperands)
  | readSource keyword names => some (keyword, .datasets (names.map Mention.text))
  | readExternal keyword path => some (keyword, .file path.text)
  | _ => none

/-- Whether a target is in force behind the statement whatever stands in front of it. -/
def Statement.defines : Statement → Bool
  | datasetDef _ => true
  | _ => false

/-- What statements read in front of the first one that defines a dataset. -/
def orphanReads (statements : List Statement) : List (Mention × ReadOperands) :=
  (statements.takeWhile (!·.defines)).filterMap Statement.read?

/-- The report of a read without a target. -/
def readWithoutTarget (read : Mention × ReadOperands) : Diagnostic :=
  ⟨read.1.position, .readWithoutTarget read.1.text read.2⟩

/-- The edges of each of some statements, if `target` is in force in front of them. -/
def edgesFrom (file : String) (target : Option String) : List Statement → List (List Edge)
  | [] => []
  | statement :: rest =>
    statement.edges file target :: edgesFrom file (statement.targetAfter target) rest

/-- What is wrong with statements, if `target` is in force in front of them. -/
def problemsFrom (target : Option String) : List Statement → List Diagnostic
  | [] => []
  | statement :: rest =>
    statement.problems target ++ problemsFrom (statement.targetAfter target) rest

/-! ### Edges and warnings of statements -/

section Resolutions

variable {target : Option String} {statement : Statement} {statements : List Statement}

/-- Statements add their edges and diagnostics to those in front of them. -/
theorem foldl_add_resolution (file : String) (resolution : Resolution)
    (statements : List Statement) :
    statements.foldl (Resolution.add file) resolution =
      ⟨statements.foldl Statement.targetAfter resolution.target,
        (edgesFrom file resolution.target statements).flatten.reverse ++ resolution.edges,
        (problemsFrom resolution.target statements).reverse ++ resolution.diagnostics⟩ := by
  induction statements generalizing resolution with
  | nil =>
      rfl
  | cons statement rest ih =>
      rw [List.foldl_cons, ih]
      simp [Resolution.add, edgesFrom, problemsFrom]

theorem resolve_eq (file : String) (statements : List Statement) :
    resolve file statements =
      ((edgesFrom file none statements).flatten, problemsFrom none statements) := by
  rw [resolve, foldl_add_resolution]
  simp

/-- The edges of a statement are told by the target that the statements in front of it leave. -/
theorem getElem?_edgesFrom (file : String) (target : Option String) (front : List Statement)
    (statement : Statement) (back : List Statement) :
    (edgesFrom file target (front ++ statement :: back))[front.length]? =
      some (statement.edges file (front.foldl Statement.targetAfter target)) := by
  induction front generalizing target with
  | nil =>
      rfl
  | cons first rest ih =>
      exact ih (first.targetAfter target)

/-- An edge of statements is an edge of one of them. -/
theorem mem_flatten_edgesFrom {file : String} {edge : Edge} :
    edge ∈ (edgesFrom file target statements).flatten ↔
      ∃ front statement back, statements = front ++ statement :: back ∧
        edge ∈ statement.edges file (front.foldl Statement.targetAfter target) := by
  induction statements generalizing target with
  | nil =>
      simp [edgesFrom]
  | cons first rest ih =>
      rw [edgesFrom, List.flatten_cons, List.mem_append, ih]
      constructor
      · rintro (here | ⟨front, statement, back, rfl, later⟩)
        · exact ⟨[], first, rest, rfl, here⟩
        · exact ⟨first :: front, statement, back, rfl, later⟩
      · rintro ⟨front, statement, back, split, member⟩
        cases front with
        | nil =>
            obtain ⟨rfl, rfl⟩ := List.cons.inj split
            exact .inl member
        | cons first' front =>
            obtain ⟨rfl, rfl⟩ := List.cons.inj split
            exact .inr ⟨front, statement, back, rfl, member⟩

theorem Statement.origin_of_mem_edges {file : String} {edge : Edge}
    (member : edge ∈ statement.edges file target) : edge.origin = file := by
  cases statement with
  | readSource keyword names =>
      obtain ⟨_, _, rfl⟩ := List.mem_map.mp member
      rfl
  | readExternal keyword path =>
      cases List.mem_singleton.mp member
      rfl
  | procStep step =>
      obtain ⟨_, _, ofOutput⟩ := List.mem_flatMap.mp member
      obtain ⟨_, _, rfl⟩ := List.mem_map.mp ofOutput
      rfl
  | _ =>
      exact absurd member List.not_mem_nil

/-- No target is in force behind statements of which none defines a dataset. -/
theorem foldl_targetAfter_eq_none_iff :
    statements.foldl Statement.targetAfter target = none ↔
      target = none ∧ ∀ statement ∈ statements, statement.defines = false := by
  induction statements generalizing target with
  | nil =>
      simp
  | cons first rest ih =>
      rw [List.foldl_cons, ih, List.forall_mem_cons, ← and_assoc]
      refine and_congr_left' ?_
      cases first <;> simp [Statement.targetAfter, Statement.defines]

theorem Statement.problems_none (statement : Statement) :
    statement.problems none = statement.read?.toList.map readWithoutTarget := by
  cases statement <;> rfl

theorem Statement.problems_some (statement : Statement) (target : String) :
    statement.problems (some target) = [] := by
  cases statement <;> rfl

theorem problemsFrom_some (target : String) (statements : List Statement) :
    problemsFrom (some target) statements = [] := by
  induction statements generalizing target with
  | nil =>
      rfl
  | cons first rest ih =>
      rw [problemsFrom, first.problems_some]
      cases first <;> exact ih _

theorem Statement.defines_of_read? {read : Mention × ReadOperands}
    (reads : statement.read? = some read) : statement.defines = false := by
  cases statement with
  | datasetDef name =>
      cases reads
  | _ =>
      rfl

theorem orphanReads_cons (first : Statement) (rest : List Statement) :
    orphanReads (first :: rest) =
      if first.defines then [] else first.read?.toList ++ orphanReads rest := by
  cases defines : first.defines with
  | true =>
      simp [orphanReads, defines]
  | false =>
      cases read : first.read? <;> simp [orphanReads, defines, read]

/-- What is wrong with the statements of a program is that some read without a target. -/
theorem problemsFrom_none (statements : List Statement) :
    problemsFrom none statements = (orphanReads statements).map readWithoutTarget := by
  induction statements with
  | nil =>
      rfl
  | cons first rest ih =>
      rw [problemsFrom, first.problems_none, orphanReads_cons]
      cases first with
      | datasetDef name =>
          exact problemsFrom_some _ rest
      | _ =>
          simp [Statement.targetAfter, ih, Statement.defines]

theorem diagnostics_resolve (file : String) (statements : List Statement) :
    (resolve file statements).2 = (orphanReads statements).map readWithoutTarget := by
  rw [resolve_eq, problemsFrom_none]

/-- What is read without a target is read by a statement with no definition in front of it. -/
theorem mem_orphanReads {read : Mention × ReadOperands} :
    read ∈ orphanReads statements ↔
      ∃ front statement back, statements = front ++ statement :: back ∧
        statement.read? = some read ∧ ∀ earlier ∈ front, earlier.defines = false := by
  induction statements with
  | nil =>
      simp [orphanReads]
  | cons first rest ih =>
      rw [orphanReads_cons]
      constructor
      · intro member
        cases defines : first.defines with
        | true =>
            simp [defines] at member
        | false =>
            rw [defines, if_neg Bool.false_ne_true, List.mem_append, ih] at member
            rcases member with here | ⟨front, statement, back, rfl, reads, earlier⟩
            · refine ⟨[], first, rest, rfl, Option.mem_toList.mp here, ?_⟩
              exact fun _ member => absurd member List.not_mem_nil
            · exact ⟨first :: front, statement, back, rfl, reads,
                List.forall_mem_cons.mpr ⟨defines, earlier⟩⟩
      · rintro ⟨front, statement, back, split, reads, earlier⟩
        cases front with
        | nil =>
            obtain ⟨rfl, rfl⟩ := List.cons.inj split
            rw [Statement.defines_of_read? reads, if_neg Bool.false_ne_true]
            exact List.mem_append_left _ (Option.mem_toList.mpr reads)
        | cons first' front =>
            obtain ⟨rfl, rfl⟩ := List.cons.inj split
            obtain ⟨here, later⟩ := List.forall_mem_cons.mp earlier
            rw [here, if_neg Bool.false_ne_true]
            exact List.mem_append_right _
              (ih.mpr ⟨front, statement, back, rfl, reads, later⟩)

/-- A statement has an edge without a target if it reads and no target is in force. -/
theorem Statement.MadeFrom.exists_isOrphan_iff {tokens : List Token}
    (made : statement.MadeFrom tokens) (file : String) (target : Option String) :
    (∃ edge ∈ statement.edges file target, edge.isOrphan = true) ↔
      statement.read?.isSome = true ∧ target = none := by
  cases made with
  | datasetDef isName =>
      simp [edges, read?]
  | readSource reads nonempty areNames =>
      obtain ⟨name, isFirst⟩ := List.exists_mem_of_ne_nil _ nonempty
      constructor
      · rintro ⟨edge, member, orphan⟩
        obtain ⟨name, named, rfl⟩ := List.mem_map.mp member
        exact ⟨rfl, by simpa [Edge.isOrphan, Edge.fromDataset] using orphan⟩
      · rintro ⟨_, rfl⟩
        exact ⟨_, List.mem_map_of_mem (List.mem_map_of_mem isFirst), rfl⟩
  | readExternal reads isString =>
      simp [edges, read?, Edge.isOrphan, Edge.fromFile]
  | procStep isName areNames inputsInOrder outputsInOrder sharedOut =>
      simp [edges, read?, Edge.isOrphan, Edge.fromDataset]
  | other =>
      simp [edges, read?]

theorem Statement.MadeFrom.position_read?_sublist {tokens : List Token}
    (made : statement.MadeFrom tokens) :
    (statement.read?.toList.map (·.1.position)).Sublist (tokens.map Token.position) := by
  cases made <;> simp [read?]

/-- Reads without a target stand at places of tokens, in order. -/
theorem AreMadeFrom.positions_orphanReads_sublist {tokens : List Token}
    (made : AreMadeFrom statements tokens) :
    ((orphanReads statements).map (·.1.position)).Sublist (tokens.map Token.position) := by
  obtain ⟨used, each, part⟩ := made
  refine List.Sublist.trans ?_ (part.map Token.position)
  clear part
  induction each with
  | nil =>
      exact List.Sublist.refl []
  | cons first _ ih =>
      rw [orphanReads_cons, List.flatten_cons, List.map_append]
      split
      · exact List.nil_sublist _
      · rw [List.map_append]
        exact first.position_read?_sublist.append ih

end Resolutions

/-! ### Order of places -/

section Places

theorem Position.notAfter_total (a b : Position) : a.notAfter b = true ∨ b.notAfter a = true := by
  simp only [notAfter, Bool.or_eq_true, Bool.and_eq_true, decide_eq_true_eq, beq_iff_eq]
  omega

theorem Position.notAfter_trans (a b c : Position) (first : a.notAfter b = true)
    (second : b.notAfter c = true) : a.notAfter c = true := by
  simp only [notAfter, Bool.or_eq_true, Bool.and_eq_true, decide_eq_true_eq,
    beq_iff_eq] at first second ⊢
  omega

theorem Position.Before.notAfter {a b : Position} (before : a.Before b) :
    a.notAfter b = true := by
  unfold Before at before
  simp only [Position.notAfter, Bool.or_eq_true, Bool.and_eq_true, decide_eq_true_eq, beq_iff_eq]
  omega

/-- What is wrong with a piece is reported where the piece begins. -/
theorem Piece.mem_diagnostics {place : Position} {piece : Piece} {diagnostic : Diagnostic}
    (member : diagnostic ∈ piece.diagnostics place) :
    diagnostic.position = place ∧ diagnostic.problem.kind = .lex := by
  unfold diagnostics at member
  split at member
  · cases List.mem_singleton.mp member
    exact ⟨rfl, rfl⟩
  · cases List.mem_singleton.mp member
    exact ⟨rfl, rfl⟩
  · cases List.mem_singleton.mp member
    exact ⟨rfl, rfl⟩
  · exact absurd member List.not_mem_nil

theorem Scanned.kind_eq_lex {text : String} {diagnostic : Diagnostic}
    (member : diagnostic ∈ (ofText text).diagnostics) : diagnostic.problem.kind = .lex := by
  obtain ⟨placed, _, here⟩ := List.mem_flatMap.mp member
  exact (Piece.mem_diagnostics here).2

end Places

/-! ### Lineage of a file -/

namespace FileLineage

variable {name : String} {scanned : Scanned}

/-- The warnings of a file: its diagnostics in the order of their places. -/
theorem warnings_ofScanned (name : String) (scanned : Scanned) :
    (ofScanned name scanned).warnings =
      (inOrder (fun a b : Diagnostic => a.position.notAfter b.position)
        (scanned.diagnostics ++ (Parsed.ofTokens scanned.tokens).diagnostics ++
          (orphanReads (Parsed.ofScanned scanned).statements).map readWithoutTarget)).map
        (Diagnostic.warning name) := by
  simp only [ofScanned, resolve_eq, problemsFrom_none, Parsed.ofScanned]

theorem edges_ofScanned (name : String) (scanned : Scanned) :
    (ofScanned name scanned).edges =
      (edgesFrom name none (Parsed.ofScanned scanned).statements).flatten := by
  rw [ofScanned, resolve_eq]

theorem warnings_ofFile (file : SourceFile) :
    (ofFile file).warnings =
      (inOrder (fun a b : Diagnostic => a.position.notAfter b.position)
        ((Scanned.ofText file.content).diagnostics ++
          (Parsed.ofTokens (Scanned.ofText file.content).tokens).diagnostics ++
          (orphanReads (Parsed.ofText file.content).statements).map readWithoutTarget)).map
        (Diagnostic.warning file.name) :=
  warnings_ofScanned file.name (Scanned.ofText file.content)

theorem edges_ofFile (file : SourceFile) :
    (ofFile file).edges =
      (edgesFrom file.name none (Parsed.ofText file.content).statements).flatten :=
  edges_ofScanned file.name (Scanned.ofText file.content)

theorem origin_of_mem_edges {edge : Edge} (member : edge ∈ (ofScanned name scanned).edges) :
    edge.origin = name := by
  rw [edges_ofScanned] at member
  obtain ⟨_, _, _, _, here⟩ := mem_flatten_edgesFrom.mp member
  exact Statement.origin_of_mem_edges here

theorem file_of_mem_warnings {warning : Warning}
    (member : warning ∈ (ofScanned name scanned).warnings) : warning.file = name := by
  rw [warnings_ofScanned] at member
  obtain ⟨diagnostic, _, rfl⟩ := List.mem_map.mp member
  rfl

/-- The warnings about the reads of a file without a target: one for each read in front of the first
    definition, where its keyword stands, in the order of the program. -/
def orphanWarnings (name : String) (scanned : Scanned) : List Warning :=
  (orphanReads (Parsed.ofScanned scanned).statements).map fun (keyword, operands) =>
    ⟨name, keyword.position, .orphanReference,
      (Problem.readWithoutTarget keyword.text operands).message⟩

/-- The edges without a target of a file and the warnings about reads.
    - `warnings`: those for the reads in front of the first definition, as often as there are such
      reads, and no others.
    - `placed`: they come in the order of the places that the keywords of the reads hold.
    - `edges`: the edges of the file are those of its statements, one statement after the other.
    - `shares`: of these, the edges of a statement have one without a target if it reads and no
      statement in front of it defines a dataset. -/
structure PairsOrphans (name : String) (scanned : Scanned) : Prop where
  warnings : ((ofScanned name scanned).warnings.filter (·.kind = .orphanReference)).Perm
    (orphanWarnings name scanned)
  placed : ((ofScanned name scanned).warnings.filter (·.kind = .orphanReference)).Pairwise
    fun one other => one.position.notAfter other.position = true
  edges : (ofScanned name scanned).edges =
    (edgesFrom name none (Parsed.ofScanned scanned).statements).flatten
  shares : ∀ front statement back,
    (Parsed.ofScanned scanned).statements = front ++ statement :: back →
      ∃ edges,
        (edgesFrom name none (Parsed.ofScanned scanned).statements)[front.length]? = some edges ∧
          ((∃ edge ∈ edges, edge.isOrphan = true) ↔
            statement.read?.isSome = true ∧ ∀ earlier ∈ front, earlier.defines = false)

/-- Whether the warnings about reads without a target come in the order of the program. -/
def WarnsInOrder (name : String) (scanned : Scanned) : Prop :=
  (ofScanned name scanned).warnings.filter (·.kind = .orphanReference) =
    orphanWarnings name scanned

/-- The warnings about reads without a target are those about the statements that have one, in the
    order of their places. -/
theorem filter_warnings_ofScanned
    (ofLex : ∀ diagnostic ∈ scanned.diagnostics, diagnostic.problem.kind = .lex) :
    (ofScanned name scanned).warnings.filter (·.kind = .orphanReference) =
      (inOrder (fun a b : Diagnostic => a.position.notAfter b.position)
        ((orphanReads (Parsed.ofScanned scanned).statements).map readWithoutTarget)).map
        (Diagnostic.warning name) := by
  have noLex : scanned.diagnostics.filter (·.problem.kind = .orphanReference) = [] :=
    List.filter_eq_nil_iff.mpr fun diagnostic member => by simp [ofLex diagnostic member]
  have noParse : (Parsed.ofTokens scanned.tokens).diagnostics.filter
      (·.problem.kind = .orphanReference) = [] :=
    List.filter_eq_nil_iff.mpr fun diagnostic member => by
      simp [(Parsed.areFaultsAt_ofTokens scanned.tokens).kind_eq_parse member]
  have all : ((orphanReads (Parsed.ofScanned scanned).statements).map readWithoutTarget).filter
      (·.problem.kind = .orphanReference) =
        (orphanReads (Parsed.ofScanned scanned).statements).map readWithoutTarget :=
    List.filter_eq_self.mpr fun diagnostic member => by
      obtain ⟨read, _, rfl⟩ := List.mem_map.mp member
      rfl
  have ofKind : (fun warning : Warning => decide (warning.kind = .orphanReference)) ∘
      Diagnostic.warning name =
        fun diagnostic : Diagnostic => decide (diagnostic.problem.kind = .orphanReference) :=
    rfl
  rw [warnings_ofScanned, List.filter_map, ofKind,
    filter_inOrder (fun a b => Position.notAfter_total a.position b.position)
      (fun a b c => Position.notAfter_trans a.position b.position c.position),
    List.filter_append, List.filter_append, noLex, noParse, all, List.nil_append,
    List.nil_append]

theorem orphanWarnings_eq (name : String) (scanned : Scanned) :
    orphanWarnings name scanned =
      ((orphanReads (Parsed.ofScanned scanned).statements).map readWithoutTarget).map
        (Diagnostic.warning name) := by
  rw [List.map_map]
  rfl

theorem pairsOrphans
    (ofLex : ∀ diagnostic ∈ scanned.diagnostics, diagnostic.problem.kind = .lex) :
    PairsOrphans name scanned where
  warnings := by
    rw [filter_warnings_ofScanned ofLex, orphanWarnings_eq]
    exact (inOrder_perm _ _).map _
  placed := by
    rw [filter_warnings_ofScanned ofLex, List.pairwise_map]
    exact pairwise_inOrder (fun a b => Position.notAfter_total a.position b.position)
      (fun a b c => Position.notAfter_trans a.position b.position c.position) _
  edges := edges_ofScanned name scanned
  shares front statement back split := by
    have member : statement ∈ (Parsed.ofScanned scanned).statements := by simp [split]
    obtain ⟨tokens, made, _⟩ := (Parsed.areMadeFrom_ofScanned scanned).exists_madeFrom member
    refine ⟨_, split ▸ getElem?_edgesFrom name none front statement back, ?_⟩
    rw [made.exists_isOrphan_iff, foldl_targetAfter_eq_none_iff]
    simp

/-- Reads without a target are in the order of their places if the tokens are. -/
theorem pairwise_orphanReads
    (ordered : (scanned.tokens.map Token.position).Pairwise Position.Before) :
    ((orphanReads (Parsed.ofScanned scanned).statements).map
      readWithoutTarget).Pairwise (fun a b => a.position.Before b.position) := by
  have part := (Parsed.areMadeFrom_ofScanned scanned).positions_orphanReads_sublist
  have places := ordered.sublist part
  rw [List.pairwise_map] at places ⊢
  exact places

/-- Reads are reported in the order of the program if the tokens are in the order of their
    places. -/
theorem warnsInOrder
    (ofLex : ∀ diagnostic ∈ scanned.diagnostics, diagnostic.problem.kind = .lex)
    (ordered : (scanned.tokens.map Token.position).Pairwise Position.Before) :
    WarnsInOrder name scanned := by
  rw [WarnsInOrder, filter_warnings_ofScanned ofLex, orphanWarnings_eq,
    inOrder_eq_self ((pairwise_orphanReads ordered).imp Position.Before.notAfter)]

/-! ### Orphan edges and their warnings -/

namespace PairsOrphans

/-- A file has an edge without a target if it reads without a target. -/
theorem exists_isOrphan_iff (pairs : PairsOrphans name scanned) :
    (∃ edge ∈ (ofScanned name scanned).edges, edge.isOrphan = true) ↔
      ∃ read, read ∈ orphanReads (Parsed.ofScanned scanned).statements := by
  simp only [mem_orphanReads]
  constructor
  · rintro ⟨edge, member, orphan⟩
    rw [pairs.edges] at member
    obtain ⟨front, statement, back, split, here⟩ := mem_flatten_edgesFrom.mp member
    obtain ⟨edges, share, iff⟩ := pairs.shares front statement back split
    rw [split, getElem?_edgesFrom] at share
    obtain ⟨reads, earlier⟩ := iff.mp ⟨edge, Option.some.inj share ▸ here, orphan⟩
    obtain ⟨read, isRead⟩ := Option.isSome_iff_exists.mp reads
    exact ⟨read, front, statement, back, split, isRead, earlier⟩
  · rintro ⟨read, front, statement, back, split, isRead, earlier⟩
    obtain ⟨edges, share, iff⟩ := pairs.shares front statement back split
    have reads : statement.read?.isSome = true := Option.isSome_iff_exists.mpr ⟨read, isRead⟩
    obtain ⟨edge, member, orphan⟩ := iff.mpr ⟨reads, earlier⟩
    refine ⟨edge, ?_, orphan⟩
    rw [pairs.edges]
    exact List.mem_flatten.mpr ⟨edges, List.mem_of_getElem? share, member⟩

/-- A file is warned about a read without a target if it reads without a target. -/
theorem exists_orphanReference_iff (pairs : PairsOrphans name scanned) :
    (∃ warning ∈ (ofScanned name scanned).warnings, warning.kind = .orphanReference) ↔
      ∃ read, read ∈ orphanReads (Parsed.ofScanned scanned).statements := by
  have listed (warning : Warning) := pairs.warnings.mem_iff (a := warning)
  simp only [List.mem_filter, decide_eq_true_eq, orphanWarnings, List.mem_map] at listed
  constructor
  · rintro ⟨warning, member, ofKind⟩
    obtain ⟨read, isRead, _⟩ := (listed warning).mp ⟨member, ofKind⟩
    exact ⟨read, isRead⟩
  · rintro ⟨read, isRead⟩
    obtain ⟨member, ofKind⟩ := (listed _).mpr ⟨read, isRead, rfl⟩
    exact ⟨_, member, ofKind⟩

end PairsOrphans

end FileLineage

/-! ### Lineage of some files -/

namespace Extraction

variable {lineages : List FileLineage}

theorem mem_edges_ofLineages {edge : Edge} :
    edge ∈ (ofLineages lineages).edges ↔ ∃ lineage ∈ lineages, edge ∈ lineage.edges := by
  rw [ofLineages_eq, edges, LineageGraph.edges_stored, List.mem_eraseDups, List.mem_flatMap]

theorem mem_warnings_ofLineages {warning : Warning} :
    warning ∈ (ofLineages lineages).warnings ↔
      ∃ lineage ∈ lineages, warning ∈ lineage.warnings := by
  rw [ofLineages_eq, List.mem_eraseDups, List.mem_flatMap]

theorem mem_edges_ofFiles {files : List SourceFile} {edge : Edge} :
    edge ∈ (ofFiles files).edges ↔ ∃ file ∈ files, edge ∈ (FileLineage.ofFile file).edges := by
  simp [ofFiles, mem_edges_ofLineages]

/-- If edges without a target are paired with warnings in every file, files of a name have one if
    they are warned about one. -/
theorem exists_isOrphan_iff_of_pairs {scan : SourceFile → Scanned}
    (pairs : ∀ file, FileLineage.PairsOrphans file.name (scan file)) (files : List SourceFile)
    (name : String) :
    let extraction := ofLineages (files.map fun file => .ofScanned file.name (scan file))
    (∃ edge ∈ extraction.edges, edge.isOrphan = true ∧ edge.origin = name) ↔
      ∃ warning ∈ extraction.warnings, warning.kind = .orphanReference ∧ warning.file = name := by
  have paired (file : SourceFile) :=
    (pairs file).exists_isOrphan_iff.trans (pairs file).exists_orphanReference_iff.symm
  simp only [mem_edges_ofLineages, mem_warnings_ofLineages, List.mem_map]
  constructor
  · rintro ⟨edge, ⟨_, ⟨file, given, rfl⟩, here⟩, orphan, rfl⟩
    obtain ⟨warning, warned, ofKind⟩ := (paired file).mp ⟨edge, here, orphan⟩
    refine ⟨warning, ⟨_, ⟨file, given, rfl⟩, warned⟩, ofKind, ?_⟩
    rw [FileLineage.file_of_mem_warnings warned, FileLineage.origin_of_mem_edges here]
  · rintro ⟨warning, ⟨_, ⟨file, given, rfl⟩, here⟩, ofKind, rfl⟩
    obtain ⟨edge, derived, orphan⟩ := (paired file).mpr ⟨warning, here, ofKind⟩
    refine ⟨edge, ⟨_, ⟨file, given, rfl⟩, derived⟩, orphan, ?_⟩
    rw [FileLineage.file_of_mem_warnings here, FileLineage.origin_of_mem_edges derived]

end Extraction

end DatasetLineage
