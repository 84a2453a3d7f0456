/-
Module: DatasetLineage.Proofs.PrintedProgram
Purpose: Well-formed programs as data, apart from any text: data steps with their clauses and
  procedure steps with the datasets that they read and write. A program is printed as lexemes,
  with keywords and options in any ASCII case and commas or not between sources, and these are laid
  out with gaps. Beside the printing stands the lineage that a program has.
Main exports: DatasetName, SourceName, Clause, ProgramStep, Clause.edges, ProgramStep.edges,
  PrintsSources, PrintsClause, PrintsOptions, PrintsStep, Prints, PrintsAll.areLexemes
-/
import DatasetLineage.Lineage.Edge
import DatasetLineage.Proofs.ProgramLayout

namespace DatasetLineage

open Text

/-- The name of a dataset or of a procedure. -/
structure DatasetName where
  text : String
  isName : IsName text

/-- The name of a dataset that a read statement names. -/
structure SourceName where
  text : String
  isSource : IsSourceName text

/-- A clause of a data step: datasets that it reads, one or more, or an external file. -/
inductive Clause where
  | read (keyword : Keyword) (reads : keyword.readsDatasets = true) (first : SourceName)
      (more : List SourceName)
  | infile (path : String)

/-- A step of a program. -/
inductive ProgramStep where
  | data (target : DatasetName) (clauses : List Clause)
  | proc (procedure : DatasetName) (inputs outputs : List DatasetName)

/-- The lineage of a clause in a data step that defines `target`: one edge for each source. -/
def Clause.edges (file : String) (target : DatasetName) : Clause → List Edge
  | read _ _ first more =>
    (first :: more).map fun source =>
      ⟨some (lowercase target.text), .dataset (lowercase source.text), file⟩
  | infile path => [⟨some (lowercase target.text), .file path, file⟩]

/-- The lineage of a step: of its clauses in order, or one edge for each output and input. -/
def ProgramStep.edges (file : String) : ProgramStep → List Edge
  | data target clauses => clauses.flatMap (Clause.edges file target)
  | proc _ inputs outputs =>
    outputs.flatMap fun output => inputs.map fun input =>
      ⟨some (lowercase output.text), .dataset (lowercase input.text), file⟩

/-- Sources as words, with any number of commas between two of them. -/
inductive PrintsSources : List SourceName → List Piece → Prop where
  | last (source : SourceName) : PrintsSources [source] [.word source.text.toList]
  | next {rest : List SourceName} {lexemes : List Piece} (source : SourceName) (commas : Nat)
      (later : PrintsSources rest lexemes) :
      PrintsSources (source :: rest)
        (.word source.text.toList :: (List.replicate commas (.mark ',') ++ lexemes))

/-- A clause as a statement: the keyword, its operands and a semicolon. -/
inductive PrintsClause : Clause → List Piece → Prop where
  | read {keyword : Keyword} {reads : keyword.readsDatasets = true} {first : SourceName}
      {more : List SourceName} {word : List Char} {lexemes : List Piece}
      (spells : Spells keyword.name word) (sources : PrintsSources (first :: more) lexemes) :
      PrintsClause (.read keyword reads first more) (.word word :: (lexemes ++ [.mark ';']))
  | infile {path : String} {word : List Char} {delimiter : Char}
      (spells : Spells Keyword.infile.name word) (isDelimiter : IsDelimiter delimiter) :
      PrintsClause (.infile path)
        [.word word, .quoted delimiter path.toList true, .mark ';']

/-- The datasets of a procedure as options: inputs as DATA, outputs as OUT or BASE, in any mixture
    that keeps the order of either. -/
inductive PrintsOptions : List DatasetName → List DatasetName → List Piece → Prop where
  | none : PrintsOptions [] [] []
  | input {inputs outputs : List DatasetName} {word : List Char} {lexemes : List Piece}
      (name : DatasetName) (spells : Spells DatasetOption.data.name word)
      (later : PrintsOptions inputs outputs lexemes) :
      PrintsOptions (name :: inputs) outputs
        (.word word :: .mark '=' :: .word name.text.toList :: lexemes)
  | output {inputs outputs : List DatasetName} {option : DatasetOption} {word : List Char}
      {lexemes : List Piece} (name : DatasetName) (written : option = .out ∨ option = .base)
      (spells : Spells option.name word) (later : PrintsOptions inputs outputs lexemes) :
      PrintsOptions inputs (name :: outputs)
        (.word word :: .mark '=' :: .word name.text.toList :: lexemes)

/-- The end of a step: RUN or QUIT and a semicolon. -/
inductive PrintsEnd : List Piece → Prop where
  | intro {keyword : Keyword} {word : List Char} (ends : keyword = .run ∨ keyword = .quit)
      (spells : Spells keyword.name word) : PrintsEnd [.word word, .mark ';']

/-- A list of things, each printed in turn. -/
inductive PrintsAll {α : Type} (prints : α → List Piece → Prop) : List α → List Piece → Prop where
  | nil : PrintsAll prints [] []
  | cons {a : α} {rest : List α} {front back : List Piece} (first : prints a front)
      (later : PrintsAll prints rest back) : PrintsAll prints (a :: rest) (front ++ back)

/-- A step with its end. -/
inductive PrintsStep : ProgramStep → List Piece → Prop where
  | data {target : DatasetName} {clauses : List Clause} {word : List Char}
      {body final : List Piece} (spells : Spells Keyword.data.name word)
      (statements : PrintsAll PrintsClause clauses body) (close : PrintsEnd final) :
      PrintsStep (.data target clauses)
        ([.word word, .word target.text.toList, .mark ';'] ++ body ++ final)
  | proc {procedure : DatasetName} {inputs outputs : List DatasetName} {word : List Char}
      {options final : List Piece} (spells : Spells Keyword.proc.name word)
      (values : PrintsOptions inputs outputs options) (close : PrintsEnd final) :
      PrintsStep (.proc procedure inputs outputs)
        (.word word :: .word procedure.text.toList :: options ++ [.mark ';'] ++ final)

/-- Whether a text is a program, laid out in some way. -/
def Prints (program : List ProgramStep) (text : String) : Prop :=
  ∃ lexemes pieces, PrintsAll PrintsStep program lexemes ∧ LaidOut none lexemes pieces ∧
    text.toList = spellingOf pieces

section Lexemes

/-- Whether a lexeme does not end a statement. -/
def Piece.IsInner (lexeme : Piece) : Prop := lexeme.IsLexeme ∧ lexeme ≠ .mark ';'

theorem isInner_comma : (Piece.mark ',').IsInner := ⟨.inr (.inl rfl), by decide⟩

theorem isInner_equals : (Piece.mark '=').IsInner := ⟨.inr (.inr rfl), by decide⟩

theorem isInner_of_isWord {spelling : List Char} (isWord : IsWord spelling) :
    (Piece.word spelling).IsInner :=
  ⟨isWord, fun same => nomatch same⟩

theorem Keyword.isInner {keyword : Keyword} {word : List Char}
    (spells : Spells keyword.name word) : (Piece.word word).IsInner :=
  isInner_of_isWord (Keyword.isIdentifier_of_spells spells).isWord

theorem DatasetOption.isInner {option : DatasetOption} {word : List Char}
    (spells : Spells option.name word) : (Piece.word word).IsInner :=
  isInner_of_isWord (DatasetOption.isIdentifier_of_spells spells).isWord

theorem DatasetName.isInner (name : DatasetName) : (Piece.word name.text.toList).IsInner :=
  isInner_of_isWord name.isName.isWord

theorem SourceName.isInner (source : SourceName) : (Piece.word source.text.toList).IsInner :=
  isInner_of_isWord source.isSource.isName.isWord

theorem PrintsSources.areInner {sources : List SourceName} {lexemes : List Piece}
    (prints : PrintsSources sources lexemes) : ∀ lexeme ∈ lexemes, lexeme.IsInner := by
  induction prints with
  | last source =>
      intro lexeme member
      rw [List.mem_singleton] at member
      exact member ▸ source.isInner
  | next source commas _ ih =>
      intro lexeme member
      rcases List.mem_cons.mp member with rfl | member
      · exact source.isInner
      · rcases List.mem_append.mp member with comma | later
        · rw [List.eq_of_mem_replicate comma]
          exact isInner_comma
        · exact ih lexeme later

theorem PrintsOptions.areInner {inputs outputs : List DatasetName} {lexemes : List Piece}
    (prints : PrintsOptions inputs outputs lexemes) : ∀ lexeme ∈ lexemes, lexeme.IsInner := by
  induction prints with
  | none =>
      intro lexeme member
      cases member
  | input name spells _ ih =>
      rw [List.forall_mem_cons, List.forall_mem_cons, List.forall_mem_cons]
      exact ⟨DatasetOption.isInner spells, isInner_equals, name.isInner, ih⟩
  | output name _ spells _ ih =>
      rw [List.forall_mem_cons, List.forall_mem_cons, List.forall_mem_cons]
      exact ⟨DatasetOption.isInner spells, isInner_equals, name.isInner, ih⟩

theorem isLexeme_semicolon : (Piece.mark ';').IsLexeme := .inl rfl

theorem PrintsEnd.areLexemes {lexemes : List Piece} (prints : PrintsEnd lexemes) :
    ∀ lexeme ∈ lexemes, lexeme.IsLexeme := by
  obtain ⟨_, spells⟩ := prints
  rw [List.forall_mem_cons, List.forall_mem_singleton]
  exact ⟨(Keyword.isInner spells).1, isLexeme_semicolon⟩

theorem PrintsClause.areLexemes {clause : Clause} {lexemes : List Piece}
    (prints : PrintsClause clause lexemes) : ∀ lexeme ∈ lexemes, lexeme.IsLexeme := by
  cases prints with
  | read spells sources =>
      rw [List.forall_mem_cons, List.forall_mem_append, List.forall_mem_singleton]
      exact ⟨(Keyword.isInner spells).1, fun lexeme member => (sources.areInner lexeme member).1,
        isLexeme_semicolon⟩
  | infile spells isDelimiter =>
      rw [List.forall_mem_cons, List.forall_mem_cons, List.forall_mem_singleton]
      exact ⟨(Keyword.isInner spells).1, ⟨isDelimiter, rfl⟩, isLexeme_semicolon⟩

theorem PrintsAll.areLexemes {α : Type} {prints : α → List Piece → Prop} {all : List α}
    {lexemes : List Piece}
    (each : ∀ a front, prints a front → ∀ lexeme ∈ front, lexeme.IsLexeme)
    (printed : PrintsAll prints all lexemes) : ∀ lexeme ∈ lexemes, lexeme.IsLexeme := by
  induction printed with
  | nil =>
      intro lexeme member
      cases member
  | cons first _ ih =>
      rw [List.forall_mem_append]
      exact ⟨each _ _ first, ih⟩

theorem PrintsStep.areLexemes {step : ProgramStep} {lexemes : List Piece}
    (prints : PrintsStep step lexemes) : ∀ lexeme ∈ lexemes, lexeme.IsLexeme := by
  cases prints with
  | @data target _ _ _ _ spells statements close =>
      rw [List.forall_mem_append, List.forall_mem_append, List.forall_mem_cons,
        List.forall_mem_cons, List.forall_mem_singleton]
      exact ⟨⟨⟨(Keyword.isInner spells).1, target.isInner.1, isLexeme_semicolon⟩,
        statements.areLexemes fun _ _ clause => clause.areLexemes⟩, close.areLexemes⟩
  | @proc procedure _ _ _ _ _ spells values close =>
      rw [List.forall_mem_append, List.forall_mem_append, List.forall_mem_cons,
        List.forall_mem_cons, List.forall_mem_singleton]
      exact ⟨⟨⟨(Keyword.isInner spells).1, procedure.isInner.1,
        fun lexeme member => (values.areInner lexeme member).1⟩, isLexeme_semicolon⟩,
        close.areLexemes⟩

end Lexemes

end DatasetLineage
