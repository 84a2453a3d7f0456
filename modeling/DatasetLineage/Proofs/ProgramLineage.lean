/-
Module: DatasetLineage.Proofs.ProgramLineage
Purpose: The lineage of a printed program is the lineage that the program has. Tokens of a printed
  statement are cut at its semicolon and read as the statement that was printed, whatever stands
  behind them; a step leaves no procedure step open, so steps are read one by one; and resolving
  the statements of a step gives its edges, with no diagnostic on the way.
Main exports: ReadsAs, Yields, Derives, PrintsStep.derives, FileLineage.ofFile_of_prints
-/
import DatasetLineage.Lineage.Extraction
import DatasetLineage.Proofs.LowercaseForms
import DatasetLineage.Proofs.PrintedProgram
import DatasetLineage.Proofs.StepBoundaries

namespace DatasetLineage

open Text
open List (Forall₂)

/-! ### Tokens that show lexemes -/

section Tokens

variable {lexeme : Piece} {token : Token}

theorem isEnd_of_shows (shown : Shows lexeme token) (isLexeme : lexeme.IsLexeme) :
    token.isEnd = false := by
  cases lexeme with
  | word spelling =>
      obtain ⟨kind, _⟩ := shows_word_iff.mp shown
      rw [Token.isEnd, kind, wordKind]
      split
      · split <;> rfl
      · rfl
  | quoted delimiter value closed =>
      rw [Token.isEnd, kind_of_shows_quoted shown]
      rfl
  | mark c =>
      rw [Token.isEnd, kind_of_shows_mark shown]
      rfl
  | _ =>
      exact isLexeme.elim

theorem isMark_of_shows (shown : Shows lexeme token) (isInner : lexeme.IsInner) :
    token.isMark ';' = false := by
  obtain ⟨isLexeme, other⟩ := isInner
  cases lexeme with
  | word spelling =>
      obtain ⟨kind, _⟩ := shows_word_iff.mp shown
      rw [Token.isMark, kind, wordKind]
      split
      · split <;> rfl
      · rfl
  | quoted delimiter value closed =>
      rw [Token.isMark, kind_of_shows_quoted shown]
      rfl
  | mark c =>
      rw [Token.isMark, kind_of_shows_mark shown, beq_eq_false_iff_ne]
      intro same
      cases same
      exact other rfl
  | _ =>
      exact isLexeme.elim

theorem isMark_of_shows_mark {c : Char} (shown : Shows (.mark c) token) :
    token.isMark c = true := by
  rw [Token.isMark, kind_of_shows_mark shown, beq_self_eq_true]

theorem keyword?_of_shows {keyword : Keyword} {word : List Char} (shown : Shows (.word word) token)
    (spells : Spells keyword.name word) : token.keyword? = some keyword := by
  obtain ⟨kind, _⟩ := shows_word_iff.mp shown
  rw [Token.keyword?, kind, wordKind_of_spells spells]

/-- A token of a name is an identifier, and a mention of it gives the name. -/
theorem name_of_shows {name : String} (shown : Shows (.word name.toList) token)
    (isName : IsName name) :
    token.kind = .identifier name ∧ token.name? = some name ∧ token.mention.text = name := by
  obtain ⟨kind, spelled⟩ := shows_word_iff.mp shown
  rw [wordKind_of_isName isName] at kind
  rw [String.ofList_toList] at spelled
  refine ⟨kind, ?_, ?_⟩
  · rw [Token.name?, kind]
  · rw [Token.mention, kind]
    exact spelled

/-- Tokens that show two lists of lexemes fall into two parts. -/
theorem exists_append_of_shows {front back : List Piece} {tokens : List Token}
    (shown : Forall₂ Shows (front ++ back) tokens) :
    ∃ frontTokens backTokens, tokens = frontTokens ++ backTokens ∧
      Forall₂ Shows front frontTokens ∧ Forall₂ Shows back backTokens := by
  induction front generalizing tokens with
  | nil =>
      exact ⟨[], tokens, rfl, .nil, shown⟩
  | cons lexeme front ih =>
      rw [List.cons_append, List.forall₂_cons_left_iff] at shown
      obtain ⟨token, rest, first, later, rfl⟩ := shown
      obtain ⟨frontTokens, backTokens, rfl, front, back⟩ := ih later
      exact ⟨token :: frontTokens, backTokens, rfl, .cons first front, back⟩

theorem exists_token_of_shows {lexeme : Piece} {tokens : List Token}
    (shown : Forall₂ Shows [lexeme] tokens) : ∃ token, tokens = [token] ∧ Shows lexeme token := by
  rw [List.forall₂_cons_left_iff] at shown
  obtain ⟨token, rest, first, later, rfl⟩ := shown
  rw [List.forall₂_nil_left_iff] at later
  subst later
  exact ⟨token, rfl, first⟩

/-- What each lexeme tells of a token that shows it holds of all tokens that show lexemes. -/
theorem forall_of_shows {lexemes : List Piece} {tokens : List Token} {p : Token → Prop}
    (shown : Forall₂ Shows lexemes tokens)
    (each : ∀ lexeme ∈ lexemes, ∀ token, Shows lexeme token → p token) :
    ∀ token ∈ tokens, p token := by
  induction shown with
  | nil =>
      intro token member
      cases member
  | cons first _ ih =>
      rw [List.forall_mem_cons] at each ⊢
      exact ⟨each.1 _ first, ih each.2⟩

end Tokens

/-! ### Statements of a program -/

section Statements

variable {body : List Piece} {tokens front back : List Token}

/-- Whether tokens are complete statements: none of them stands for the end of the text, and the
    last one is a semicolon. -/
def AreStatements (tokens : List Token) : Prop :=
  (∀ token ∈ tokens, token.isEnd = false) ∧ ∀ last ∈ tokens.getLast?, last.isMark ';' = true

/-- The tokens of a printed statement are one segment. -/
theorem exists_segment (inner : ∀ lexeme ∈ body, lexeme.IsInner) (nonempty : body ≠ [])
    (shown : Forall₂ Shows (body ++ [.mark ';']) tokens) :
    ∃ bodyTokens stop, AreStatements tokens ∧ Forall₂ Shows body bodyTokens ∧
      Segment.ofTokens tokens = [⟨bodyTokens, stop⟩] := by
  obtain ⟨bodyTokens, backTokens, rfl, shownBody, shownStop⟩ := exists_append_of_shows shown
  obtain ⟨stop, rfl, isStop⟩ := exists_token_of_shows shownStop
  have isMark := isMark_of_shows_mark isStop
  have noEnd : ∀ token ∈ bodyTokens ++ [stop], token.isEnd = false := by
    refine forall_of_shows shown ?_
    intro lexeme member token shows'
    rcases List.mem_append.mp member with inBody | isLast
    · exact isEnd_of_shows shows' (inner lexeme inBody).1
    · rw [List.mem_singleton] at isLast
      exact isEnd_of_shows shows' (isLast ▸ isLexeme_semicolon)
  have noMark : ∀ token ∈ bodyTokens, token.isMark ';' = false :=
    forall_of_shows shownBody fun lexeme member token shows' =>
      isMark_of_shows shows' (inner lexeme member)
  have nonempty' : bodyTokens ≠ [] := by
    rintro rfl
    exact nonempty (List.forall₂_nil_right_iff.mp shownBody)
  have innerTokens : ∀ token ∈ bodyTokens, token.isMark ';' = false ∧ token.isEnd = false :=
    fun token member => ⟨noMark token member, noEnd token (List.mem_append_left _ member)⟩
  exact ⟨bodyTokens, stop, ⟨noEnd, by simpa using isMark⟩, shownBody,
    Segment.ofTokens_body innerTokens (kind_of_shows_mark isStop) nonempty'⟩

/-- The tokens of a printed statement that begins with a keyword. -/
theorem exists_keywordSegment {keyword : Keyword} {word : List Char} {operands : List Piece}
    (spells : Spells keyword.name word) (inner : ∀ lexeme ∈ operands, lexeme.IsInner)
    (shown : Forall₂ Shows (.word word :: operands ++ [.mark ';']) tokens) :
    ∃ first operandTokens stop, AreStatements tokens ∧ first.keyword? = some keyword ∧
      Forall₂ Shows operands operandTokens ∧
      Segment.ofTokens tokens = [⟨first :: operandTokens, stop⟩] := by
  have inner' : ∀ lexeme ∈ Piece.word word :: operands, lexeme.IsInner := by
    rw [List.forall_mem_cons]
    exact ⟨Keyword.isInner spells, inner⟩
  obtain ⟨body, stop, areStatements, shownBody, cut⟩ :=
    exists_segment inner' (List.cons_ne_nil _ _) shown
  rw [List.forall₂_cons_left_iff] at shownBody
  obtain ⟨first, operandTokens, isFirst, shownOperands, rfl⟩ := shownBody
  exact ⟨first, operandTokens, stop, areStatements, keyword?_of_shows isFirst spells,
    shownOperands, cut⟩

/-- Whether tokens are statements that are read without a diagnostic, whatever stands behind
    them. -/
def ReadsAs (tokens : List Token) (statements : List Statement) : Prop :=
  ∀ rest, Parsed.ofTokens (tokens ++ rest) = ⟨statements, []⟩ ++ Parsed.ofTokens rest

theorem ReadsAs.nil : ReadsAs [] [] := by
  intro rest
  simp [Parsed.append_def]

theorem ReadsAs.append {statements statements' : List Statement}
    (first : ReadsAs front statements) (later : ReadsAs back statements') :
    ReadsAs (front ++ back) (statements ++ statements') := by
  intro rest
  rw [List.append_assoc, first, later]
  simp [Parsed.append_def]

/-- Statements whose segments leave no procedure step open are read alone. -/
theorem readsAs_of_foldl {statements : List Statement} (areStatements : AreStatements tokens)
    (read : (Segment.ofTokens tokens).foldl Reading.add (.start none) =
      ⟨statements.reverse, [], none⟩) : ReadsAs tokens statements := by
  intro rest
  rw [Parsed.ofTokens_eq_ofSegments, Segment.ofTokens_append rest areStatements.1 areStatements.2,
    Parsed.ofSegments_eq_finished, List.foldl_append, read, Reading.finished_foldl_add,
    List.reverse_reverse, Parsed.ofTokens_eq_ofSegments]
  rfl

theorem readsAs_of_segment {segment : Segment} {statement : Statement}
    (areStatements : AreStatements tokens) (cut : Segment.ofTokens tokens = [segment])
    (read : segment.readFresh = ⟨[statement], [], none⟩) : ReadsAs tokens [statement] := by
  apply readsAs_of_foldl areStatements
  have fresh : segment.read none = ⟨[statement], [], none⟩ := read
  rw [cut, List.foldl_cons, List.foldl_nil, Reading.add_eq, fresh]
  rfl

end Statements

/-! ### Operands and options -/

section Operands

/-- Whether operands of a read statement get these roles and leave it at the start of an
    operand. -/
def TakenAs (operands : List Token) (roles : List (Token × Role)) : Prop :=
  ∀ before, operands.foldl ReadRoles.add ⟨before, .item⟩ = ⟨roles.reverse ++ before, .item⟩

variable {front back : List Token} {roles roles' : List (Token × Role)}

theorem TakenAs.nil : TakenAs [] [] := fun _ => rfl

theorem TakenAs.append (first : TakenAs front roles) (later : TakenAs back roles') :
    TakenAs (front ++ back) (roles ++ roles') := by
  intro before
  rw [List.foldl_append, first, later, List.reverse_append, List.append_assoc]

theorem takenAs_of_takeItem {token : Token} {role : Role}
    (taken : takeItem token = (role, .item)) : TakenAs [token] [(token, role)] := by
  intro before
  simp [ReadRoles.add, ReadPlace.take, taken]

theorem tokensWithRole_append (role : Role) :
    tokensWithRole role (roles ++ roles') =
      tokensWithRole role roles ++ tokensWithRole role roles' :=
  List.filterMap_append

/-- Commas are passed over. -/
theorem exists_roles_of_commas {commas : Nat} {operands : List Token}
    (shown : Forall₂ Shows (List.replicate commas (.mark ',')) operands) :
    ∃ roles, TakenAs operands roles ∧ tokensWithRole .stray roles = [] ∧
      tokensWithRole .source roles = [] := by
  induction commas generalizing operands with
  | zero =>
      rw [List.replicate_zero, List.forall₂_nil_left_iff] at shown
      exact ⟨[], shown ▸ .nil, rfl, rfl⟩
  | succ commas ih =>
      rw [List.replicate_succ, List.forall₂_cons_left_iff] at shown
      obtain ⟨comma, rest, isComma, later, rfl⟩ := shown
      obtain ⟨roles, taken, noStray, noSource⟩ := ih later
      have passed : takeItem comma = (.passed, .item) := by
        rw [takeItem, kind_of_shows_mark isComma]
        rfl
      exact ⟨_, (takenAs_of_takeItem passed).append taken, noStray, noSource⟩

theorem takeItem_of_shows {source : SourceName} {token : Token}
    (shown : Shows (.word source.text.toList) token) : takeItem token = (.source, .item) := by
  obtain ⟨kind, _⟩ := name_of_shows shown source.isSource.isName
  simp [takeItem, kind, isReadOption_of_isSourceName source.isSource]

/-- Sources are read as sources, and commas between them are passed over. -/
theorem PrintsSources.exists_roles {sources : List SourceName} {lexemes : List Piece}
    (prints : PrintsSources sources lexemes) {operands : List Token}
    (shown : Forall₂ Shows lexemes operands) :
    ∃ roles, TakenAs operands roles ∧ tokensWithRole .stray roles = [] ∧
      (tokensWithRole .source roles).map (·.mention.text) = sources.map SourceName.text := by
  induction prints generalizing operands with
  | last source =>
      obtain ⟨token, rfl, isSource⟩ := exists_token_of_shows shown
      obtain ⟨_, _, name⟩ := name_of_shows isSource source.isSource.isName
      refine ⟨_, takenAs_of_takeItem (takeItem_of_shows isSource), rfl, ?_⟩
      exact congrArg (fun text => [text]) name
  | next source commas _ ih =>
      rw [List.forall₂_cons_left_iff] at shown
      obtain ⟨token, behind, isSource, shownBehind, rfl⟩ := shown
      obtain ⟨_, _, name⟩ := name_of_shows isSource source.isSource.isName
      obtain ⟨commaTokens, rest, rfl, areCommas, shownRest⟩ := exists_append_of_shows shownBehind
      obtain ⟨passed, takenCommas, noStray, noSource⟩ := exists_roles_of_commas areCommas
      obtain ⟨roles, taken, noStray', names⟩ := ih shownRest
      refine ⟨_, (takenAs_of_takeItem (takeItem_of_shows isSource)).append
        (takenCommas.append taken), ?_, ?_⟩
      · rw [tokensWithRole_append, tokensWithRole_append, noStray, noStray']
        rfl
      · rw [tokensWithRole_append, tokensWithRole_append, noSource, List.nil_append,
          List.map_append, names, List.map_cons, ← name]
        rfl

/-- The operands of a printed read statement are its sources, and nothing is wrong with them. -/
theorem PrintsSources.readSourceStatement {first : SourceName} {more : List SourceName}
    {lexemes : List Piece} (prints : PrintsSources (first :: more) lexemes)
    {operands : List Token} (shown : Forall₂ Shows lexemes operands) (keyword : Token) :
    ∃ names, DatasetLineage.readSourceStatement keyword operands =
        (.readSource keyword.mention names, []) ∧
      names.map Mention.text = (first :: more).map SourceName.text := by
  obtain ⟨roles, taken, noStray, texts⟩ := prints.exists_roles shown
  have read : readRoles operands = (roles, .item) := by
    rw [readRoles, taken, List.append_nil, List.reverse_reverse]
  cases sources : tokensWithRole .source roles with
  | nil =>
      rw [sources] at texts
      cases texts
  | cons source rest =>
      refine ⟨(source :: rest).map Token.mention, ?_, ?_⟩
      · simp [DatasetLineage.readSourceStatement, read, noStray, sources]
      · rw [List.map_map, ← texts, sources]
        rfl

/-- One printed option is found whatever options stand behind it. -/
theorem exists_optionValue {option : DatasetOption} {word : List Char} {name : DatasetName}
    {rest : List Piece} {options : List Token} (spells : Spells option.name word)
    (shown : Forall₂ Shows (.word word :: .mark '=' :: .word name.text.toList :: rest) options)
    (stop : Token) :
    ∃ (value : Mention) (restTokens : List Token), value.text = name.text ∧
      Forall₂ Shows rest restTokens ∧
      DatasetLineage.optionValues stop options =
        ⟨(option, value) :: (DatasetLineage.optionValues stop restTokens).values,
          (DatasetLineage.optionValues stop restTokens).diagnostics⟩ := by
  rw [List.forall₂_cons_left_iff] at shown
  obtain ⟨first, behind, isOption, shown, rfl⟩ := shown
  rw [List.forall₂_cons_left_iff] at shown
  obtain ⟨equals, behind, isEquals, shown, rfl⟩ := shown
  rw [List.forall₂_cons_left_iff] at shown
  obtain ⟨value, restTokens, isValue, shown, rfl⟩ := shown
  obtain ⟨_, isName, text⟩ := name_of_shows isValue name.isName
  have named := datasetOption?_of_spells spells (shows_word_iff.mp isOption).1
  refine ⟨value.mention, restTokens, text, shown, ?_⟩
  simp [DatasetLineage.optionValues, named, isMark_of_shows_mark isEquals, isName]

/-- The options of a printed procedure statement name its inputs and outputs, and nothing is wrong
    with them. -/
theorem PrintsOptions.optionValues {inputs outputs : List DatasetName} {lexemes : List Piece}
    (prints : PrintsOptions inputs outputs lexemes) {options : List Token}
    (shown : Forall₂ Shows lexemes options) (stop : Token) :
    ∃ values, DatasetLineage.optionValues stop options = ⟨values, []⟩ ∧
      (values.filter (·.1.isInput)).map (·.2.text) = inputs.map DatasetName.text ∧
      (values.filter (!·.1.isInput)).map (·.2.text) = outputs.map DatasetName.text := by
  induction prints generalizing options with
  | none =>
      rw [List.forall₂_nil_left_iff] at shown
      subst shown
      exact ⟨[], rfl, rfl, rfl⟩
  | input name spells _ ih =>
      obtain ⟨value, restTokens, text, shownRest, found⟩ := exists_optionValue spells shown stop
      obtain ⟨values, read, areInputs, areOutputs⟩ := ih shownRest
      have isInput : DatasetOption.data.isInput = true := rfl
      refine ⟨(.data, value) :: values, ?_, ?_, ?_⟩
      · rw [found, read]
      · simp [isInput, text, areInputs]
      · simpa [isInput] using areOutputs
  | @output _ _ option _ _ name written spells _ ih =>
      obtain ⟨value, restTokens, text, shownRest, found⟩ := exists_optionValue spells shown stop
      obtain ⟨values, read, areInputs, areOutputs⟩ := ih shownRest
      have isOutput : option.isInput = false := by
        rcases written with rfl | rfl <;> rfl
      refine ⟨(option, value) :: values, ?_, ?_, ?_⟩
      · rw [found, read]
      · simpa [isOutput] using areInputs
      · simp [isOutput, text, areOutputs]

end Operands

/-! ### Edges of statements -/

section Resolution

/-- Whether statements, with one target in force before them and another one behind them, give
    these edges and no diagnostic in a file. -/
def Yields (file : String) (target : Option String) (statements : List Statement)
    (edges : List Edge) (target' : Option String) : Prop :=
  ∀ done diagnostics, statements.foldl (Resolution.add file) ⟨target, done, diagnostics⟩ =
    ⟨target', edges.reverse ++ done, diagnostics⟩

/-- Whether tokens are statements that give these edges in a file. -/
def Derives (file : String) (tokens : List Token) (target : Option String) (edges : List Edge)
    (target' : Option String) : Prop :=
  ∃ statements, ReadsAs tokens statements ∧ Yields file target statements edges target'

variable {file : String} {target target' target'' : Option String} {edges edges' : List Edge}
  {tokens front back : List Token}

theorem Yields.append {statements statements' : List Statement}
    (first : Yields file target statements edges target')
    (later : Yields file target' statements' edges' target'') :
    Yields file target (statements ++ statements') (edges ++ edges') target'' := by
  intro done diagnostics
  rw [List.foldl_append, first, later, List.reverse_append, List.append_assoc]

/-- A statement with which nothing is wrong. -/
theorem yields_statement (file : String) {statement : Statement}
    (fine : statement.problems target = []) :
    Yields file target [statement] (statement.edges file target)
      (statement.targetAfter target) := by
  intro done diagnostics
  simp [Resolution.add, fine]

theorem Derives.nil : Derives file [] target [] target :=
  ⟨[], .nil, fun _ _ => rfl⟩

theorem Derives.append (first : Derives file front target edges target')
    (later : Derives file back target' edges' target'') :
    Derives file (front ++ back) target (edges ++ edges') target'' := by
  obtain ⟨statements, read, yields⟩ := first
  obtain ⟨statements', read', yields'⟩ := later
  exact ⟨statements ++ statements', read.append read', yields.append yields'⟩

end Resolution

/-! ### Clauses -/

section Clauses

variable {file : String} {tokens : List Token}

/-- Mentions of sources give the edges from these sources. -/
theorem map_fromDataset {names : List Mention} {sources : List SourceName}
    (texts : names.map Mention.text = sources.map SourceName.text) (file : String)
    (target : DatasetName) :
    names.map (fun name => Edge.fromDataset (some (lowercase target.text)) name.text file) =
      sources.map fun source =>
        ⟨some (lowercase target.text), .dataset (lowercase source.text), file⟩ := by
  have same := congrArg (List.map fun text =>
    Edge.fromDataset (some (lowercase target.text)) text file) texts
  rw [List.map_map, List.map_map] at same
  simpa [Edge.fromDataset, Function.comp_def] using same

/-- A printed clause gives its edges and keeps the target. -/
theorem PrintsClause.derives {clause : Clause} {lexemes : List Piece}
    (prints : PrintsClause clause lexemes) (shown : Forall₂ Shows lexemes tokens) (file : String)
    (target : DatasetName) :
    Derives file tokens (some (lowercase target.text)) (clause.edges file target)
      (some (lowercase target.text)) := by
  cases prints with
  | @read keyword reads source more word lexemes spells sources =>
      obtain ⟨first, operands, stop, areStatements, isKeyword, shownOperands, cut⟩ :=
        exists_keywordSegment spells sources.areInner shown
      obtain ⟨names, read, texts⟩ := sources.readSourceStatement shownOperands first
      have fresh := Segment.readFresh_of_readsDatasets isKeyword reads operands stop
      rw [read] at fresh
      have yields : Yields file (some (lowercase target.text))
          [.readSource first.mention names] _ _ := yields_statement file rfl
      rw [Statement.edges, map_fromDataset texts] at yields
      exact ⟨_, readsAs_of_segment areStatements cut fresh, yields⟩
  | @infile path word delimiter spells isDelimiter =>
      have inner : ∀ lexeme ∈ [Piece.quoted delimiter path.toList true], lexeme.IsInner := by
        rw [List.forall_mem_singleton]
        exact ⟨⟨isDelimiter, rfl⟩, fun same => nomatch same⟩
      obtain ⟨first, operands, stop, areStatements, isKeyword, shownOperands, cut⟩ :=
        exists_keywordSegment spells inner shown
      obtain ⟨quoted, rfl, isQuoted⟩ := exists_token_of_shows shownOperands
      have kind := kind_of_shows_quoted isQuoted
      rw [String.ofList_toList] at kind
      have fresh : Segment.readFresh ⟨[first, quoted], stop⟩ =
          ⟨[.readExternal first.mention ⟨path, quoted.position⟩], [], none⟩ := by
        simp [Segment.readFresh, isKeyword, readExternalStatement, kind, Token.mention]
      have yields : Yields file (some (lowercase target.text))
          [.readExternal first.mention ⟨path, quoted.position⟩] _ _ := yields_statement file rfl
      rw [Statement.edges, Edge.fromFile, Option.map_some, lowercase_lowercase] at yields
      exact ⟨_, readsAs_of_segment areStatements cut fresh, yields⟩

theorem PrintsAll.derives {clauses : List Clause} {lexemes : List Piece}
    (prints : PrintsAll PrintsClause clauses lexemes) (shown : Forall₂ Shows lexemes tokens)
    (file : String) (target : DatasetName) :
    Derives file tokens (some (lowercase target.text))
      (clauses.flatMap (Clause.edges file target)) (some (lowercase target.text)) := by
  induction prints generalizing tokens with
  | nil =>
      rw [List.forall₂_nil_left_iff] at shown
      exact shown ▸ .nil
  | cons first _ ih =>
      obtain ⟨front, back, rfl, shownFront, shownBack⟩ := exists_append_of_shows shown
      exact (first.derives shownFront file target).append (ih shownBack)

end Clauses

/-! ### Steps and programs -/

section Steps

variable {tokens : List Token} {lexemes : List Piece}

/-- DATA and a name define the target. -/
theorem derives_target {word : List Char} (spells : Spells Keyword.data.name word)
    (target : DatasetName)
    (shown : Forall₂ Shows [.word word, .word target.text.toList, .mark ';'] tokens)
    (file : String) (before : Option String) :
    Derives file tokens before [] (some (lowercase target.text)) := by
  have inner : ∀ lexeme ∈ [Piece.word target.text.toList], lexeme.IsInner := by
    rw [List.forall_mem_singleton]
    exact target.isInner
  obtain ⟨first, operands, stop, areStatements, isKeyword, shownOperands, cut⟩ :=
    exists_keywordSegment spells inner shown
  obtain ⟨name, rfl, isName⟩ := exists_token_of_shows shownOperands
  obtain ⟨_, named, text⟩ := name_of_shows isName target.isName
  have fresh : Segment.readFresh ⟨[first, name], stop⟩ =
      ⟨[.datasetDef name.mention], [], none⟩ := by
    simp [Segment.readFresh, isKeyword, named]
  have yields : Yields file before [.datasetDef name.mention] _ _ := yields_statement file rfl
  rw [Statement.edges, Statement.targetAfter, text] at yields
  exact ⟨_, readsAs_of_segment areStatements cut fresh, yields⟩

/-- The statement that ends a step is one segment, which begins with RUN or QUIT. -/
theorem PrintsEnd.exists_segment (prints : PrintsEnd lexemes)
    (shown : Forall₂ Shows lexemes tokens) :
    ∃ first stop, AreStatements tokens ∧ Segment.ofTokens tokens = [⟨[first], stop⟩] ∧
      (first.keyword? = some .run ∨ first.keyword? = some .quit) := by
  obtain ⟨ends, spells⟩ := prints
  have inner : ∀ lexeme ∈ ([] : List Piece), lexeme.IsInner := fun lexeme member => nomatch member
  obtain ⟨first, operands, stop, areStatements, isKeyword, shownOperands, cut⟩ :=
    exists_keywordSegment spells inner shown
  rw [List.forall₂_nil_left_iff] at shownOperands
  subst shownOperands
  refine ⟨first, stop, areStatements, cut, ?_⟩
  rcases ends with rfl | rfl
  · exact .inl isKeyword
  · exact .inr isKeyword

/-- The end of a data step gives nothing. -/
theorem PrintsEnd.derives (prints : PrintsEnd lexemes) (shown : Forall₂ Shows lexemes tokens)
    (file : String) (target : Option String) : Derives file tokens target [] target := by
  obtain ⟨first, stop, areStatements, cut, isEnd⟩ := prints.exists_segment shown
  have fresh : Segment.readFresh ⟨[first], stop⟩ = ⟨[.other], [], none⟩ := by
    rcases isEnd with isRun | isQuit
    · simp [Segment.readFresh, isRun, Keyword.readsDatasets]
    · simp [Segment.readFresh, isQuit, Keyword.readsDatasets]
  exact ⟨_, readsAs_of_segment areStatements cut fresh, yields_statement file rfl⟩

theorem AreStatements.append {front back : List Token} (first : AreStatements front)
    (later : AreStatements back) : AreStatements (front ++ back) := by
  constructor
  · rw [List.forall_mem_append]
    exact ⟨first.1, later.1⟩
  · intro last isLast
    rw [List.getLast?_append, Option.mem_def, Option.or_eq_some_iff] at isLast
    rcases isLast with inBack | ⟨_, inFront⟩
    · exact later.2 last inBack
    · exact first.2 last inFront

/-- PROC, a name and printed options open a step with the datasets printed. -/
theorem exists_procStep {procedure : DatasetName} {inputs outputs : List DatasetName}
    {options : List Piece} {first name : Token} {optionTokens : List Token}
    (isKeyword : first.keyword? = some .proc)
    (isName : Shows (.word procedure.text.toList) name)
    (values : PrintsOptions inputs outputs options)
    (shown : Forall₂ Shows options optionTokens) (stop : Token) :
    ∃ step, Segment.readFresh ⟨first :: name :: optionTokens, stop⟩ =
        ⟨[.other], [], some step⟩ ∧
      step.inputs.map Mention.text = inputs.map DatasetName.text ∧
      step.outputs.map Mention.text = outputs.map DatasetName.text := by
  obtain ⟨_, named, _⟩ := name_of_shows isName procedure.isName
  obtain ⟨values, read, areInputs, areOutputs⟩ := values.optionValues shown stop
  refine ⟨(ProcStep.mk name.mention [] []).addOptions values, ?_, ?_, ?_⟩
  · simp [Segment.readFresh, isKeyword, named, read]
  · simp [ProcStep.addOptions, ← areInputs]
  · simp [ProcStep.addOptions, ← areOutputs]

/-- A step with the datasets printed gives one edge for each output and input. -/
theorem edges_procStep {procedure : DatasetName} {step : ProcStep}
    {inputs outputs : List DatasetName}
    (areInputs : step.inputs.map Mention.text = inputs.map DatasetName.text)
    (areOutputs : step.outputs.map Mention.text = outputs.map DatasetName.text) (file : String)
    (target : Option String) :
    (Statement.procStep step).edges file target =
      (ProgramStep.proc procedure inputs outputs).edges file := by
  have row : ∀ output : String,
      (step.inputs.map fun input => Edge.fromDataset (some output) input.text file) =
        inputs.map fun input =>
          ⟨some (lowercase output), .dataset (lowercase input.text), file⟩ := by
    intro output
    have same := congrArg (List.map fun text => Edge.fromDataset (some output) text file) areInputs
    rw [List.map_map, List.map_map] at same
    exact same
  have table := congrArg (List.flatMap fun output => inputs.map fun input =>
    (⟨some (lowercase output), .dataset (lowercase input.text), file⟩ : Edge)) areOutputs
  rw [List.flatMap_map, List.flatMap_map] at table
  simp only [Statement.edges, row]
  exact table

/-- A printed procedure step gives one edge for each output and input. -/
theorem derives_proc {procedure : DatasetName} {inputs outputs : List DatasetName}
    {word : List Char} {options final : List Piece} (spells : Spells Keyword.proc.name word)
    (values : PrintsOptions inputs outputs options) (close : PrintsEnd final)
    (shown : Forall₂ Shows
      (.word word :: .word procedure.text.toList :: options ++ [.mark ';'] ++ final) tokens)
    (file : String) (target : Option String) :
    Derives file tokens target ((ProgramStep.proc procedure inputs outputs).edges file)
      target := by
  obtain ⟨front, back, rfl, shownFront, shownBack⟩ := exists_append_of_shows shown
  have inner : ∀ lexeme ∈ Piece.word procedure.text.toList :: options, lexeme.IsInner := by
    rw [List.forall_mem_cons]
    exact ⟨procedure.isInner, values.areInner⟩
  obtain ⟨first, operands, stop, areStatements, isKeyword, shownOperands, cut⟩ :=
    exists_keywordSegment spells inner shownFront
  obtain ⟨last, stop', areStatements', cut', isEnd⟩ := close.exists_segment shownBack
  rw [List.forall₂_cons_left_iff] at shownOperands
  obtain ⟨name, optionTokens, isName, shownOptions, rfl⟩ := shownOperands
  obtain ⟨step, opened, areInputs, areOutputs⟩ :=
    exists_procStep isKeyword isName values shownOptions stop
  have closed : Segment.read (some step) ⟨[last], stop'⟩ =
      ⟨[.procStep step, .other], [], none⟩ := by
    rcases isEnd with isRun | isQuit
    · simp [Segment.read, isRun, Keyword.endsStep]
    · simp [Segment.read, isQuit, Keyword.endsStep]
  have fresh : Segment.read none ⟨first :: name :: optionTokens, stop⟩ =
      ⟨[.other], [], some step⟩ := opened
  have reads : ReadsAs (front ++ back) [.other, .procStep step, .other] := by
    apply readsAs_of_foldl (areStatements.append areStatements')
    have begun : (Reading.start none).add ⟨first :: name :: optionTokens, stop⟩ =
        ⟨[.other], [], some step⟩ := by
      rw [Reading.add_eq, fresh]
      rfl
    rw [Segment.ofTokens_append back areStatements.1 areStatements.2, cut, cut',
      List.singleton_append, List.foldl_cons, begun, List.foldl_cons, List.foldl_nil,
      Reading.add_eq, closed]
    rfl
  have yields : Yields file target [.other, .procStep step, .other]
      ([] ++ ((Statement.procStep step).edges file target ++ [])) target :=
    (yields_statement file rfl).append ((yields_statement file rfl).append
      (yields_statement file rfl))
  rw [List.nil_append, List.append_nil, edges_procStep areInputs areOutputs] at yields
  exact ⟨_, reads, yields⟩

/-- A printed step gives its edges, whatever target is in force before it. -/
theorem PrintsStep.derives {step : ProgramStep} (prints : PrintsStep step lexemes)
    (shown : Forall₂ Shows lexemes tokens) (file : String) (target : Option String) :
    ∃ target', Derives file tokens target (step.edges file) target' := by
  cases prints with
  | @data name clauses word body final spells statements close =>
      obtain ⟨front, back, rfl, shownFront, shownEnd⟩ := exists_append_of_shows shown
      obtain ⟨opening, middle, rfl, shownOpening, shownBody⟩ := exists_append_of_shows shownFront
      have defines := derives_target spells name shownOpening file target
      have reads := statements.derives shownBody file name
      have ends := close.derives shownEnd file (some (lowercase name.text))
      have whole := (defines.append reads).append ends
      rw [List.nil_append, List.append_nil] at whole
      exact ⟨_, whole⟩
  | proc spells values close =>
      exact ⟨target, derives_proc spells values close shown file target⟩

/-- Printed steps give their edges in turn. -/
theorem exists_derives_of_prints {program : List ProgramStep}
    (prints : PrintsAll PrintsStep program lexemes) (shown : Forall₂ Shows lexemes tokens)
    (file : String) (target : Option String) :
    ∃ target', Derives file tokens target (program.flatMap (ProgramStep.edges file)) target' := by
  induction prints generalizing tokens target with
  | nil =>
      rw [List.forall₂_nil_left_iff] at shown
      exact ⟨target, shown ▸ .nil⟩
  | cons first _ ih =>
      obtain ⟨front, back, rfl, shownFront, shownBack⟩ := exists_append_of_shows shown
      obtain ⟨middle, derives⟩ := first.derives shownFront file target
      obtain ⟨target', derives'⟩ := ih shownBack middle
      exact ⟨target', derives.append derives'⟩

end Steps

/-- The lineage of a file with a printed program is the lineage of the program, without a
    warning. -/
theorem FileLineage.ofFile_of_prints {program : List ProgramStep} {text : String}
    (prints : Prints program text) (file : String) :
    FileLineage.ofFile ⟨file, text⟩ =
      ⟨file, program.flatMap (ProgramStep.edges file), []⟩ := by
  obtain ⟨lexemes, pieces, printed, laidOut, spelled⟩ := prints
  have areLexemes := printed.areLexemes fun _ _ step => step.areLexemes
  obtain ⟨tokens, place, scanned, shown⟩ := Scanned.exists_ofText laidOut areLexemes spelled
  obtain ⟨target, statements, reads, yields⟩ := exists_derives_of_prints printed shown file none
  have parsed : Parsed.ofText text = ⟨statements, []⟩ := by
    have noMore : Parsed.ofTokens [Token.endAt place] = ⟨[], []⟩ := by
      rw [Parsed.ofTokens_eq_ofSegments]
      rfl
    simp [Parsed.ofText, Parsed.ofScanned, scanned, reads [Token.endAt place], noMore,
      Parsed.append_def]
  have resolved : resolve file statements = (program.flatMap (ProgramStep.edges file), []) := by
    have run := yields [] []
    rw [List.append_nil] at run
    simp [resolve, run]
  simp [ofFile_eq, parsed, resolved, inOrder]

/-- A program with a clause of either kind and a procedure step, laid out as tightly as it can
    be. -/
theorem FileLineage.ofFile_of_prints_tight :
    let text := "Data Out;set a,lib.B;infile'it''s';RUN;Proc sort data=a Base=C;quit;"
    ∃ program : List ProgramStep, Prints program text ∧
      FileLineage.ofFile ⟨"job", text⟩ =
        ⟨"job",
          [⟨some "out", .dataset "a", "job"⟩, ⟨some "out", .dataset "lib.b", "job"⟩,
            ⟨some "out", .file "it's", "job"⟩, ⟨some "c", .dataset "a", "job"⟩], []⟩ := by
  intro text
  let out : DatasetName := ⟨"Out", .inl ⟨by decide +kernel, by decide +kernel⟩⟩
  let sort : DatasetName := ⟨"sort", .inl ⟨by decide +kernel, by decide +kernel⟩⟩
  let a : DatasetName := ⟨"a", .inl ⟨by decide +kernel, by decide +kernel⟩⟩
  let c : DatasetName := ⟨"C", .inl ⟨by decide +kernel, by decide +kernel⟩⟩
  let source : SourceName := ⟨"a", .inl ⟨by decide +kernel, by decide +kernel, by decide +kernel⟩⟩
  let qualified : SourceName :=
    ⟨"lib.B", .inr ⟨"lib".toList, "B".toList, by decide +kernel, by decide +kernel,
      by decide +kernel⟩⟩
  have clauses : PrintsAll PrintsClause [.read .set rfl source [qualified], .infile "it's"] _ :=
    .cons (.read (by decide : Spells Keyword.set.name "set".toList)
        (.next source 1 (.last qualified)))
      (.cons (.infile (by decide : Spells Keyword.infile.name "infile".toList) (.inl rfl)) .nil)
  have dataStep : PrintsStep (.data out _) _ :=
    .data (by decide : Spells Keyword.data.name "Data".toList) clauses
      (.intro (.inl rfl) (by decide : Spells Keyword.run.name "RUN".toList))
  have procStep : PrintsStep (.proc sort [a] [c]) _ :=
    .proc (by decide : Spells Keyword.proc.name "Proc".toList)
      (.input a (by decide : Spells DatasetOption.data.name "data".toList)
        (.output c (.inr rfl) (by decide : Spells DatasetOption.base.name "Base".toList) .none))
      (.intro (.inr rfl) (by decide : Spells Keyword.quit.name "quit".toList))
  have prints : Prints [.data out _, .proc sort [a] [c]] text :=
    ⟨_, _, .cons dataStep (.cons procStep .nil), laidOut_layOut none _, by decide +kernel⟩
  refine ⟨_, prints, ?_⟩
  rw [FileLineage.ofFile_of_prints prints "job"]
  decide +kernel

end DatasetLineage
