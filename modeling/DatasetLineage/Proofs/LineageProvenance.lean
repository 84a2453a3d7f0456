/-
Module: DatasetLineage.Proofs.LineageProvenance
Purpose: Where lineage comes from. The datasets of an edge are identifiers of the program in lower
  case, its path is the value of a literal, and both stand in the text as pieces of their own, so
  neither in a comment nor, for an identifier, in a literal. Warnings are at places of tokens, or
  where a comment begins that is not closed.
Main exports: NamedBy, Edge.TakenFrom, Statement.MadeFrom.takenFrom, takenFrom_of_mem_edgesFrom,
  Piece.StandsAt, Scanned.mem_tokens_ofText, NamedIn, LiteralIn, FileLineage.HasProvenance,
  FileLineage.provenance_ofFile
-/
import DatasetLineage.Proofs.LowercaseForms
import DatasetLineage.Proofs.OrphanReads
import DatasetLineage.Proofs.ScanLocality

namespace DatasetLineage

open Text

/-- Whether a name is that of an identifier among tokens, in lower case. -/
def NamedBy (tokens : List Token) (name : String) : Prop :=
  ∃ token ∈ tokens, token.name?.isSome = true ∧ name = lowercase token.spelling

/-- Whether the datasets and the path of an edge are taken from tokens. -/
structure Edge.TakenFrom (tokens : List Token) (edge : Edge) : Prop where
  target : ∀ target ∈ edge.target, NamedBy tokens target
  dataset : ∀ name, edge.source = .dataset name → NamedBy tokens name
  path : ∀ path, edge.source = .file path → ∃ token ∈ tokens, token.kind = .string path

/-! ### Edges and warnings of tokens -/

section Tokens

variable {token : Token} {part tokens : List Token} {statement : Statement}
  {target : Option String} {file : String} {edge : Edge}

theorem Token.text_mention (isName : token.name?.isSome = true) :
    token.mention.text = token.spelling := by
  unfold name? at isName
  unfold mention
  split
  · next value kind =>
      simp [kind] at isName
  · rfl

theorem Token.text_mention_of_isString {value : String} (isString : token.kind = .string value) :
    token.mention.text = value := by
  rw [mention, isString]

theorem namedBy_mention (member : token ∈ tokens) (isName : token.name?.isSome = true) :
    NamedBy tokens (lowercase token.mention.text) :=
  ⟨token, member, isName, by rw [Token.text_mention isName]⟩

/-- A target stays as it is when it is put in lower case again. -/
theorem namedBy_of_mem_map (named : ∀ name ∈ target, NamedBy tokens name) :
    ∀ name ∈ target.map lowercase, NamedBy tokens name := by
  intro name member
  obtain ⟨name, isTarget, rfl⟩ := Option.mem_map.mp member
  obtain ⟨token, given, isName, rfl⟩ := named name isTarget
  exact ⟨token, given, isName, lowercase_lowercase token.spelling⟩

theorem Edge.TakenFrom.fromDataset (named : ∀ name ∈ target.map lowercase, NamedBy tokens name)
    (member : token ∈ tokens) (isName : token.name?.isSome = true) :
    (Edge.fromDataset target token.mention.text file).TakenFrom tokens where
  target := named
  dataset := by
    rintro name ⟨⟩
    exact namedBy_mention member isName
  path := fun _ same => nomatch same

theorem Edge.TakenFrom.fromFile {value : String}
    (named : ∀ name ∈ target.map lowercase, NamedBy tokens name) (member : token ∈ tokens)
    (isString : token.kind = .string value) :
    (Edge.fromFile target token.mention.text file).TakenFrom tokens where
  target := named
  dataset := fun _ same => nomatch same
  path := by
    rintro path ⟨⟩
    exact ⟨token, member, by rw [Token.text_mention_of_isString isString, isString]⟩

/-- Each dataset of an edge that is taken from tokens is an identifier among them. -/
theorem Edge.TakenFrom.namedBy {name : String} (taken : edge.TakenFrom tokens)
    (isEnd : .dataset name ∈ edge.endpoints) : NamedBy tokens name := by
  rcases Edge.mem_endpoints.mp isEnd with isTarget | isSource
  · obtain ⟨target, given, same⟩ := Option.map_eq_some_iff.mp isTarget
    cases same
    exact taken.target name given
  · exact taken.dataset name isSource

/-- The target behind a statement is the one in front of it or is taken from its tokens. -/
theorem Statement.MadeFrom.named_targetAfter (made : statement.MadeFrom part)
    (given : part ⊆ tokens) (named : ∀ name ∈ target, NamedBy tokens name) :
    ∀ name ∈ statement.targetAfter target, NamedBy tokens name := by
  cases made with
  | datasetDef isName =>
      rintro name ⟨⟩
      exact namedBy_mention (given (List.mem_singleton_self _)) isName
  | _ =>
      exact named

/-- The edges of a statement are taken from its tokens, up to the target in front of it. -/
theorem Statement.MadeFrom.takenFrom (made : statement.MadeFrom part) (given : part ⊆ tokens)
    (named : ∀ name ∈ target, NamedBy tokens name)
    (member : edge ∈ statement.edges file target) : edge.TakenFrom tokens := by
  cases made with
  | datasetDef isName =>
      exact absurd member List.not_mem_nil
  | readSource reads nonempty areNames =>
      obtain ⟨mention, isMention, rfl⟩ := List.mem_map.mp member
      obtain ⟨name, inNames, rfl⟩ := List.mem_map.mp isMention
      exact .fromDataset (namedBy_of_mem_map named)
        (given (List.mem_cons_of_mem _ inNames)) (areNames name inNames)
  | readExternal reads isString =>
      cases List.mem_singleton.mp member
      exact .fromFile (namedBy_of_mem_map named) (given (by simp)) isString
  | procStep isName areNames inputsInOrder outputsInOrder sharedOut =>
      obtain ⟨output, isOutput, ofOutput⟩ := List.mem_flatMap.mp member
      obtain ⟨input, isInput, rfl⟩ := List.mem_map.mp ofOutput
      obtain ⟨written, inOutputs, rfl⟩ := List.mem_map.mp isOutput
      obtain ⟨read, inInputs, rfl⟩ := List.mem_map.mp isInput
      have isWritten := outputsInOrder.subset inOutputs
      have isRead := inputsInOrder.subset inInputs
      have named : ∀ name ∈ (some written.mention.text).map lowercase, NamedBy tokens name := by
        rintro name ⟨⟩
        exact namedBy_mention (given (List.mem_cons_of_mem _ isWritten))
          (areNames written isWritten)
      exact .fromDataset named (given (List.mem_cons_of_mem _ isRead)) (areNames read isRead)
  | other =>
      exact absurd member List.not_mem_nil

/-- The edges of statements are taken from their tokens, up to the target in front of them. -/
theorem takenFrom_of_mem_edgesFrom {statements : List Statement}
    (made : ∀ statement ∈ statements, ∃ part, statement.MadeFrom part ∧ part.Sublist tokens)
    (named : ∀ name ∈ target, NamedBy tokens name)
    (member : edge ∈ (edgesFrom file target statements).flatten) : edge.TakenFrom tokens := by
  induction statements generalizing target with
  | nil =>
      exact absurd member List.not_mem_nil
  | cons first rest ih =>
      obtain ⟨⟨part, here, given⟩, later⟩ := List.forall_mem_cons.mp made
      rw [edgesFrom, List.flatten_cons, List.mem_append] at member
      rcases member with ofFirst | ofRest
      · exact here.takenFrom given.subset named ofFirst
      · exact ih later (here.named_targetAfter given.subset named) ofRest

end Tokens

/-- Whether a piece is cut from a text at a place: its characters stand there, between those of the
    pieces in front and behind. -/
def Piece.StandsAt (text : List Char) (piece : Piece) (place : Position) : Prop :=
  ∃ front back, Piece.ofText text = front ++ piece :: back ∧
    text = spellingOf front ++ (piece.spelling ++ spellingOf back) ∧
      place = placeAt text (spellingOf front).length

/-- Whether a name is that of an identifier of a text in lower case. The identifier is a word or a
    number of the text, so it stands in no comment and in no literal. -/
def NamedIn (text : String) (name : String) : Prop :=
  ∃ token ∈ (Scanned.ofText text).tokens, token.name?.isSome = true ∧
    name = lowercase token.spelling ∧
      ∃ (spelling : List Char) (piece : Piece),
        (piece = .word spelling ∨ piece = .number spelling) ∧
          token.spelling = String.ofList spelling ∧ piece.StandsAt text.toList token.position

/-- Whether a path is the value of a literal of a text. -/
def LiteralIn (text : String) (path : String) : Prop :=
  ∃ token ∈ (Scanned.ofText text).tokens, token.kind = .string path ∧
    ∃ delimiter value closed, path = String.ofList value ∧
      (Piece.quoted delimiter value closed).StandsAt text.toList token.position

/-! ### Tokens and warnings of a text -/

section Pieces

variable {text : String} {token : Token} {piece : Piece} {place : Position}

theorem exists_front_of_mem_placedFrom {pieces : List Piece} {start : Position}
    (member : (place, piece) ∈ placedFrom start pieces) :
    ∃ front back, pieces = front ++ piece :: back ∧ place = start.after (spellingOf front) := by
  induction pieces generalizing start with
  | nil =>
      exact absurd member List.not_mem_nil
  | cons first rest ih =>
      rcases List.mem_cons.mp member with here | later
      · obtain ⟨rfl, rfl⟩ := Prod.mk.inj here
        exact ⟨[], rest, rfl, rfl⟩
      · obtain ⟨front, back, rfl, rfl⟩ := ih later
        exact ⟨first :: front, back, rfl, by rw [spellingOf_cons, Position.after_append]⟩

/-- Scanning takes each piece at the place where it stands. -/
theorem standsAt_of_mem_placedFrom {characters : List Char}
    (member : (place, piece) ∈ placedFrom .start (Piece.ofText characters)) :
    piece.StandsAt characters place := by
  obtain ⟨front, back, split, rfl⟩ := exists_front_of_mem_placedFrom member
  have spelled := Piece.spelling_ofText characters
  rw [split, spellingOf_append, spellingOf_cons] at spelled
  refine ⟨front, back, split, spelled.symm, ?_⟩
  rw [after_start_eq_placeAt _ (piece.spelling ++ spellingOf back), spelled]

theorem Scanned.mem_tokens_ofText :
    token ∈ (ofText text).tokens ↔
      (∃ place piece, (place, piece) ∈ placedFrom .start (Piece.ofText text.toList) ∧
        token ∈ piece.tokens place) ∨
      token = Token.endAt (Position.start.after text.toList) := by
  rw [ofText_eq, List.mem_append, List.mem_singleton, scannedFrom, List.mem_flatMap, Prod.exists]

theorem Scanned.mem_diagnostics_ofText {diagnostic : Diagnostic} :
    diagnostic ∈ (ofText text).diagnostics ↔
      ∃ place piece, (place, piece) ∈ placedFrom .start (Piece.ofText text.toList) ∧
        diagnostic ∈ piece.diagnostics place := by
  rw [ofText_eq, scannedFrom, List.mem_flatMap, Prod.exists]

/-- Only words and numbers become identifiers. -/
theorem Piece.exists_spelling_of_isName (member : token ∈ piece.tokens place)
    (isName : token.name?.isSome = true) :
    ∃ spelling, (piece = .word spelling ∨ piece = .number spelling) ∧
      token.spelling = String.ofList spelling ∧ token.position = place := by
  have noMark : ∀ {characters}, token ∉ markTokens place characters := by
    intro characters inRun
    obtain ⟨c, _, kind⟩ := exists_kind_of_mem_markTokens inRun
    simp [Token.name?, kind] at isName
  cases piece with
  | word spelling =>
      cases List.mem_singleton.mp member
      exact ⟨spelling, .inl rfl, rfl, rfl⟩
  | number spelling =>
      cases List.mem_singleton.mp member
      exact ⟨spelling, .inr rfl, rfl, rfl⟩
  | quoted delimiter value closed =>
      cases List.mem_singleton.mp member
      simp [Token.name?] at isName
  | mark c =>
      exact absurd member noMark
  | strange first more =>
      exact absurd member noMark
  | _ =>
      exact absurd member List.not_mem_nil

theorem wordKind_ne_string (spelling : List Char) (value : String) :
    wordKind spelling ≠ .string value := by
  unfold wordKind
  split
  · split <;> simp
  · simp

/-- Only literals become strings. -/
theorem Piece.exists_quoted_of_isString {path : String} (member : token ∈ piece.tokens place)
    (isString : token.kind = .string path) :
    ∃ delimiter value closed, piece = .quoted delimiter value closed ∧
      path = String.ofList value ∧ token.position = place := by
  have noMark : ∀ {characters}, token ∉ markTokens place characters := by
    intro characters inRun
    obtain ⟨c, _, kind⟩ := exists_kind_of_mem_markTokens inRun
    exact nomatch kind.symm.trans isString
  cases piece with
  | quoted delimiter value closed =>
      cases List.mem_singleton.mp member
      exact ⟨delimiter, value, closed, rfl, (TokenKind.string.inj isString).symm, rfl⟩
  | word spelling =>
      cases List.mem_singleton.mp member
      exact absurd isString (wordKind_ne_string spelling path)
  | number spelling =>
      cases List.mem_singleton.mp member
      cases isString
  | mark c =>
      exact absurd member noMark
  | strange first more =>
      exact absurd member noMark
  | _ =>
      exact absurd member List.not_mem_nil

/-- What is wrong with a piece is at a token of it, or the piece is a comment that is not closed. -/
theorem Piece.exists_token_of_mem_diagnostics {diagnostic : Diagnostic}
    (member : diagnostic ∈ piece.diagnostics place) :
    (∃ token ∈ piece.tokens place, token.position = place) ∨
      ∃ body, piece = .blockComment body false := by
  unfold diagnostics at member
  split at member
  · exact .inr ⟨_, rfl⟩
  · exact .inl ⟨_, List.mem_singleton_self _, rfl⟩
  · exact .inl ⟨_, List.mem_cons_self, rfl⟩
  · exact absurd member List.not_mem_nil

/-- An identifier of a text is a word or a number of it. -/
theorem namedIn_of_namedBy {name : String} (named : NamedBy (Scanned.ofText text).tokens name) :
    NamedIn text name := by
  obtain ⟨token, given, isName, rfl⟩ := named
  refine ⟨token, given, isName, rfl, ?_⟩
  rcases Scanned.mem_tokens_ofText.mp given with ⟨place, piece, placed, member⟩ | rfl
  · obtain ⟨spelling, ofPiece, spelled, rfl⟩ := piece.exists_spelling_of_isName member isName
    exact ⟨spelling, piece, ofPiece, spelled, standsAt_of_mem_placedFrom placed⟩
  · exact absurd isName Bool.false_ne_true

theorem literalIn_of_mem {path : String} (given : token ∈ (Scanned.ofText text).tokens)
    (isString : token.kind = .string path) : LiteralIn text path := by
  refine ⟨token, given, isString, ?_⟩
  rcases Scanned.mem_tokens_ofText.mp given with ⟨place, piece, placed, member⟩ | rfl
  · obtain ⟨delimiter, value, closed, rfl, isValue, rfl⟩ :=
      Piece.exists_quoted_of_isString member isString
    exact ⟨delimiter, value, closed, isValue, standsAt_of_mem_placedFrom placed⟩
  · cases isString

/-- Whether a place of a text is that of a token, the end of the text with them, or a comment begins
    there that is not closed. -/
def IsReportable (text : String) (place : Position) : Prop :=
  (∃ token ∈ (Scanned.ofText text).tokens, place = token.position) ∨
    ∃ body, (Piece.blockComment body false).StandsAt text.toList place

theorem isReportable_of_mem_diagnostics {diagnostic : Diagnostic}
    (member : diagnostic ∈ (Scanned.ofText text).diagnostics) :
    IsReportable text diagnostic.position := by
  obtain ⟨place, piece, placed, ofPiece⟩ := Scanned.mem_diagnostics_ofText.mp member
  rw [(Piece.mem_diagnostics ofPiece).1]
  rcases Piece.exists_token_of_mem_diagnostics ofPiece with ⟨token, inPiece, rfl⟩ | ⟨body, rfl⟩
  · exact .inl ⟨token, Scanned.mem_tokens_ofText.mpr (.inl ⟨_, piece, placed, inPiece⟩), rfl⟩
  · exact .inr ⟨body, standsAt_of_mem_placedFrom placed⟩

theorem AreFaultsAt.isReportable {diagnostics : List Diagnostic}
    (faulty : AreFaultsAt (Scanned.ofText text).tokens diagnostics) {diagnostic : Diagnostic}
    (member : diagnostic ∈ diagnostics) : IsReportable text diagnostic.position := by
  obtain ⟨faults, rfl, part⟩ := faulty
  obtain ⟨fault, given, rfl⟩ := List.mem_map.mp member
  exact .inl ⟨fault.1, part.subset (List.mem_map_of_mem given), rfl⟩

end Pieces

/-! ### Lineage of a file -/

namespace FileLineage

/-- What the lineage of a file is taken from.
    - `targets`, `datasets`: each dataset is an identifier of the text in lower case.
    - `paths`: each path is the value of a literal of the text.
    - `origins`: each edge is from the file.
    - `places`: each warning is at a token, or at a comment that is not closed. -/
structure HasProvenance (file : SourceFile) : Prop where
  targets : ∀ edge ∈ (ofFile file).edges, ∀ target ∈ edge.target, NamedIn file.content target
  datasets : ∀ edge ∈ (ofFile file).edges, ∀ name, edge.source = .dataset name →
    NamedIn file.content name
  paths : ∀ edge ∈ (ofFile file).edges, ∀ path, edge.source = .file path →
    LiteralIn file.content path
  origins : ∀ edge ∈ (ofFile file).edges, edge.origin = file.name
  places : ∀ warning ∈ (ofFile file).warnings, IsReportable file.content warning.position

theorem takenFrom_of_mem_edges {file : SourceFile} {edge : Edge}
    (member : edge ∈ (ofFile file).edges) :
    edge.TakenFrom (Scanned.ofText file.content).tokens := by
  rw [edges_ofFile] at member
  have made := Parsed.areMadeFrom_ofText file.content
  have noTarget : ∀ name ∈ (none : Option String),
      NamedBy (Scanned.ofText file.content).tokens name :=
    fun name isTarget => absurd isTarget (Option.not_mem_none name)
  exact takenFrom_of_mem_edgesFrom (fun _ => made.exists_madeFrom) noTarget member

theorem isReportable_of_mem_warnings {file : SourceFile} {warning : Warning}
    (member : warning ∈ (ofFile file).warnings) :
    IsReportable file.content warning.position := by
  rw [warnings_ofFile] at member
  obtain ⟨diagnostic, inOrder, rfl⟩ := List.mem_map.mp member
  rw [(inOrder_perm _ _).mem_iff, List.mem_append, List.mem_append] at inOrder
  rcases inOrder with (ofCharacters | ofStatements) | ofReads
  · exact isReportable_of_mem_diagnostics ofCharacters
  · exact (Parsed.areFaultsAt_ofText file.content).isReportable ofStatements
  · obtain ⟨read, isRead, rfl⟩ := List.mem_map.mp ofReads
    have places := (Parsed.areMadeFrom_ofText file.content).positions_orphanReads_sublist
    obtain ⟨token, given, same⟩ :=
      List.mem_map.mp (places.subset (List.mem_map_of_mem isRead))
    exact .inl ⟨token, given, same.symm⟩

theorem hasProvenance (file : SourceFile) : HasProvenance file where
  targets _ member target isTarget :=
    namedIn_of_namedBy ((takenFrom_of_mem_edges member).target target isTarget)
  datasets _ member name isDataset :=
    namedIn_of_namedBy ((takenFrom_of_mem_edges member).dataset name isDataset)
  paths _ member path isFile := by
    obtain ⟨token, given, isString⟩ := (takenFrom_of_mem_edges member).path path isFile
    exact literalIn_of_mem given isString
  origins _ := origin_of_mem_edges
  places _ := isReportable_of_mem_warnings

/-- The statements of tokens are made from those in front of the end of the text, each used at most
    once and in order, and the lineage of a file is taken from its text. -/
theorem provenance_ofFile :
    (∀ tokens, AreMadeFrom (Parsed.ofTokens tokens).statements (tokens.takeWhile (!·.isEnd))) ∧
      ∀ file, HasProvenance file :=
  ⟨Parsed.areMadeFrom_ofTokens, hasProvenance⟩

end FileLineage

end DatasetLineage
