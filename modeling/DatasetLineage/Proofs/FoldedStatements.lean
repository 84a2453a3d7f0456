/-
Module: DatasetLineage.Proofs.FoldedStatements
Purpose: Statements and the case of A to Z. No decision about a token hangs on the case of its
  letters: which mark, keyword, name or option it is, it is also folded. So folded tokens are cut
  into the same segments, get the same roles, and make the same statements, which keep the folded
  names and paths; and what is wrong with them is wrong at the same places.
Main exports: Mention.folded, Problem.folded, Diagnostic.folded, Statement.folded, Segment.folded,
  Parsed.folded, Segment.ofTokens_folded, readRoles_folded, optionValues_folded,
  Segment.readFresh_folded, Segment.read_folded, Parsed.ofTokens_folded, Parsed.ofText_foldCase
-/
import DatasetLineage.Proofs.CursorSegments
import DatasetLineage.Proofs.FoldedTokens

namespace DatasetLineage

open Text

/-- A mention with its letters folded. -/
def Mention.folded (mention : Mention) : Mention := ⟨foldCase mention.text, mention.position⟩

/-- A fault with the letters folded that it gives from the program. -/
def Fault.folded : Fault → Fault
  | unexpectedTokens keyword => unexpectedTokens (foldCase keyword)
  | missingSources keyword => missingSources (foldCase keyword)
  | missingPath found => missingPath found.folded
  | unclosedParenthesis => unclosedParenthesis
  | missingDatasetName => missingDatasetName
  | missingProcedureName => missingProcedureName
  | missingOptionValue option => missingOptionValue option

/-- Operands with their letters folded. -/
def ReadOperands.folded : ReadOperands → ReadOperands
  | datasets names => datasets (names.map foldCase)
  | file path => file (foldCase path)

/-- A problem with the letters folded that it gives from the program. What is wrong with characters
    gives none. -/
def Problem.folded : Problem → Problem
  | unterminatedComment => unterminatedComment
  | unterminatedString delimiter => unterminatedString delimiter
  | unexpectedCharacters characters => unexpectedCharacters characters
  | faultyStatement spelling fault => faultyStatement (foldCase spelling) fault.folded
  | readWithoutTarget keyword operands => readWithoutTarget (foldCase keyword) operands.folded

/-- A diagnostic with the letters of its problem folded. It stays where it is. -/
def Diagnostic.folded (diagnostic : Diagnostic) : Diagnostic :=
  ⟨diagnostic.position, diagnostic.problem.folded⟩

/-- A procedure step with the letters of its names folded. -/
def ProcStep.folded (step : ProcStep) : ProcStep :=
  ⟨step.procedure.folded, step.inputs.map Mention.folded, step.outputs.map Mention.folded⟩

/-- A statement with the letters of its names and paths folded. -/
def Statement.folded : Statement → Statement
  | datasetDef name => datasetDef name.folded
  | readSource keyword names => readSource keyword.folded (names.map Mention.folded)
  | readExternal keyword path => readExternal keyword.folded path.folded
  | procStep step => procStep step.folded
  | other => other

/-- Statements and diagnostics, folded. -/
def Parsed.folded (parsed : Parsed) : Parsed :=
  ⟨parsed.statements.map Statement.folded, parsed.diagnostics.map Diagnostic.folded⟩

/-- A segment with the letters of its tokens folded. -/
def Segment.folded (segment : Segment) : Segment :=
  ⟨segment.body.map Token.folded, segment.stop.folded⟩

/-- Tokens that are being cut, folded. -/
def Cut.folded (cut : Cut) : Cut := ⟨cut.segments.map Segment.folded, cut.body.map Token.folded⟩

/-- A place among operands with the token folded that it holds. -/
def ReadPlace.folded : ReadPlace → ReadPlace
  | group opening inner => group opening.folded inner
  | item => item
  | optionSeen => optionSeen
  | optionValue => optionValue

/-- Operands that have been read, folded. -/
def ReadRoles.folded (read : ReadRoles) : ReadRoles :=
  ⟨read.roles.map fun given => (given.1.folded, given.2), read.place.folded⟩

/-- What options name, folded. -/
def OptionValues.folded (found : OptionValues) : OptionValues :=
  ⟨found.values.map fun (option, value) => (option, value.folded),
    found.diagnostics.map Diagnostic.folded⟩

/-- What a segment contributes, folded. -/
def Contribution.folded (reading : Contribution) : Contribution :=
  ⟨reading.statements.map Statement.folded, reading.diagnostics.map Diagnostic.folded,
    reading.openStep.map ProcStep.folded⟩

/-- Segments that are being read, folded. -/
def Reading.folded (reading : Reading) : Reading :=
  ⟨reading.statements.map Statement.folded, reading.diagnostics.map Diagnostic.folded,
    reading.openStep.map ProcStep.folded⟩

/-! ### Tokens -/

section Tokens

@[simp] theorem Token.isMark_folded (token : Token) (c : Char) :
    token.folded.isMark c = token.isMark c := by
  obtain ⟨kind, spelling, position⟩ := token
  cases kind <;> rfl

@[simp] theorem Token.isEnd_folded (token : Token) : token.folded.isEnd = token.isEnd := by
  obtain ⟨kind, spelling, position⟩ := token
  cases kind <;> rfl

@[simp] theorem Token.keyword?_folded (token : Token) :
    token.folded.keyword? = token.keyword? := by
  obtain ⟨kind, spelling, position⟩ := token
  cases kind <;> rfl

@[simp] theorem Token.name?_folded (token : Token) :
    token.folded.name? = token.name?.map foldCase := by
  obtain ⟨kind, spelling, position⟩ := token
  cases kind <;> rfl

@[simp] theorem Token.mention_folded (token : Token) :
    token.folded.mention = token.mention.folded := by
  obtain ⟨kind, spelling, position⟩ := token
  cases kind <;> rfl

@[simp] theorem datasetOption?_folded (token : Token) :
    datasetOption? token.folded = datasetOption? token := by
  obtain ⟨kind, spelling, position⟩ := token
  cases kind with
  | identifier name =>
      simp [datasetOption?, Token.folded, TokenKind.folded]
  | _ =>
      rfl

@[simp] theorem isReadOption_foldCase (name : String) :
    isReadOption (foldCase name) = isReadOption name := by
  simp [isReadOption]

end Tokens

/-- If folding goes through one step, it goes through a run. -/
theorem foldl_folded {α β : Type} {add : β → α → β} {state : β → β} {item : α → α}
    (step : ∀ b a, add (state b) (item a) = state (add b a)) (b : β) (items : List α) :
    (items.map item).foldl add (state b) = state (items.foldl add b) := by
  induction items generalizing b with
  | nil =>
      rfl
  | cons a rest ih =>
      rw [List.map_cons, List.foldl_cons, List.foldl_cons, step, ih]

/-! ### Segments -/

section Segments

theorem endToken_folded (tokens : List Token) :
    endToken (tokens.map Token.folded) = (endToken tokens).folded := by
  have search : (tokens.map Token.folded).find? Token.isEnd =
      (tokens.find? Token.isEnd).map Token.folded := by
    rw [List.find?_map]
    congr 2
    funext token
    exact token.isEnd_folded
  rw [endToken, endToken, search]
  cases tokens.find? Token.isEnd with
  | some token =>
      rfl
  | none =>
      rw [Option.map_none, Token.folded_endAt, List.getLast?_map, Option.map_map]
      rfl

theorem Cut.add_folded (cut : Cut) (token : Token) :
    cut.folded.add token.folded = (cut.add token).folded := by
  unfold Cut.add
  rw [token.isMark_folded]
  split
  · simp [Cut.folded, Segment.folded]
  · rfl

/-- Folded tokens are cut where the tokens are. -/
theorem Segment.ofTokens_folded (tokens : List Token) :
    ofTokens (tokens.map Token.folded) = (ofTokens tokens).map folded := by
  have before : ((tokens.map Token.folded).takeWhile fun token => !token.isEnd) =
      (tokens.takeWhile fun token => !token.isEnd).map Token.folded := by
    rw [List.takeWhile_map]
    simp [Function.comp_def]
  have cut (kept : List Token) : (kept.map Token.folded).foldl Cut.add ⟨[], []⟩ =
      (kept.foldl Cut.add ⟨[], []⟩).folded :=
    foldl_folded Cut.add_folded ⟨[], []⟩ kept
  have nonempty (segment : Segment) : (!segment.folded.body.isEmpty) = !segment.body.isEmpty := by
    simp [folded]
  unfold ofTokens
  rw [before, cut, endToken_folded]
  generalize (tokens.takeWhile fun token => !token.isEnd).foldl Cut.add ⟨[], []⟩ = cut
  have segments : ((⟨cut.folded.body.reverse, (endToken tokens).folded⟩ : Segment) ::
      cut.folded.segments).reverse =
        ((⟨cut.body.reverse, endToken tokens⟩ : Segment) :: cut.segments).reverse.map folded := by
    simp [Cut.folded, folded]
  simp only [segments, List.filter_map, Function.comp_def, nonempty]

end Segments

/-! ### Read statements -/

section Reads

theorem takeItem_folded (token : Token) :
    takeItem token.folded = ((takeItem token).1, (takeItem token).2.folded) := by
  obtain ⟨kind, spelling, position⟩ := token
  cases kind with
  | mark c =>
      simp only [takeItem, Token.folded, TokenKind.folded]
      split
      · rfl
      · rfl
      · rfl
      · rename_i isName
        cases isName
      · rfl
  | identifier name =>
      simp only [takeItem, Token.folded, TokenKind.folded, isReadOption_foldCase]
      split <;> rfl
  | _ =>
      rfl

theorem ReadPlace.take_folded (place : ReadPlace) (token : Token) :
    place.folded.take token.folded = ((place.take token).1, (place.take token).2.folded) := by
  cases place with
  | item =>
      exact takeItem_folded token
  | group opening inner =>
      simp only [ReadPlace.folded, ReadPlace.take, Token.isMark_folded]
      split
      · rfl
      · split
        · cases inner <;> rfl
        · rfl
  | optionSeen =>
      simp only [ReadPlace.folded, ReadPlace.take, Token.isMark_folded]
      split
      · rfl
      · exact takeItem_folded token
  | optionValue =>
      rfl

/-- Folded operands have the roles of the operands. -/
theorem readRoles_folded (operands : List Token) :
    readRoles (operands.map Token.folded) =
      ((readRoles operands).1.map fun given => (given.1.folded, given.2),
        (readRoles operands).2.folded) := by
  have add (read : ReadRoles) (token : Token) :
      read.folded.add token.folded = (read.add token).folded := by
    simp only [ReadRoles.add, ReadRoles.folded, ReadPlace.take_folded]
    rfl
  have read : (operands.map Token.folded).foldl ReadRoles.add ⟨[], .item⟩ =
      (operands.foldl ReadRoles.add ⟨[], .item⟩).folded :=
    foldl_folded add ⟨[], .item⟩ operands
  simp only [readRoles, read, ReadRoles.folded, List.map_reverse]

theorem tokensWithRole_folded (role : Role) (roles : List (Token × Role)) :
    tokensWithRole role (roles.map fun given => (given.1.folded, given.2)) =
      (tokensWithRole role roles).map Token.folded := by
  rw [tokensWithRole, tokensWithRole, List.filterMap_map, List.map_filterMap]
  congr 1
  funext given
  obtain ⟨token, other⟩ := given
  by_cases same : other = role <;> simp [same]

theorem readSourceStatement_folded (keyword : Token) (operands : List Token) :
    readSourceStatement keyword.folded (operands.map Token.folded) =
      ((readSourceStatement keyword operands).1.folded,
        (readSourceStatement keyword operands).2.map Diagnostic.folded) := by
  simp only [readSourceStatement, readRoles_folded, tokensWithRole_folded]
  generalize readRoles operands = read
  obtain ⟨roles, place⟩ := read
  cases tokensWithRole .source roles with
  | nil =>
      cases place <;> cases tokensWithRole .stray roles <;> rfl
  | cons name names =>
      have mentions (tokens : List Token) : (tokens.map Token.folded).map Token.mention =
          (tokens.map Token.mention).map Mention.folded := by
        simp
      have statement := congrArg₂ Statement.readSource keyword.mention_folded
        (mentions (name :: names))
      cases place <;> cases tokensWithRole .stray roles <;>
        exact Prod.ext statement rfl

theorem readExternalStatement_folded (keyword : Token) (operands : List Token) (stop : Token) :
    readExternalStatement keyword.folded (operands.map Token.folded) stop.folded =
      ((readExternalStatement keyword operands stop).1.folded,
        (readExternalStatement keyword operands stop).2.map Diagnostic.folded) := by
  have first : ((operands.map Token.folded).head?.getD stop.folded) =
      (operands.head?.getD stop).folded := by
    cases operands <;> rfl
  simp only [readExternalStatement, first]
  generalize operands.head?.getD stop = found
  obtain ⟨kind, spelling, position⟩ := found
  cases kind with
  | string value =>
      exact Prod.ext (congrArg (Statement.readExternal · _) keyword.mention_folded) rfl
  | _ =>
      rfl

end Reads

/-! ### Procedure steps -/

section Procedures

/-- Options of folded tokens are those of the tokens, with their values folded. -/
theorem optionValues_folded (stop : Token) (tokens : List Token) :
    optionValues stop.folded (tokens.map Token.folded) = (optionValues stop tokens).folded := by
  fun_induction optionValues stop tokens with
  | case1 =>
      rfl
  | case2 _ =>
      rfl
  | case3 option equals name named isEquals =>
      simp [optionValues, named, isEquals, OptionValues.folded]
      rfl
  | case4 option equals name named notEquals =>
      simp [optionValues, named, notEquals, OptionValues.folded]
  | case5 option equals unnamed =>
      simp [optionValues, unnamed, OptionValues.folded]
  | case6 option equals value rest unnamed ih =>
      simpa [optionValues, unnamed] using ih
  | case7 option equals value rest name named isEquals text isName found ih =>
      simp [optionValues, named, isEquals, isName, ih]
      rfl
  | case8 option equals value rest name named isEquals notName found ih =>
      simp only [List.map_cons] at ih
      simp [optionValues, named, isEquals, notName, ih]
      rfl
  | case9 option equals value rest name named notEquals ih =>
      simpa [optionValues, named, notEquals] using ih

theorem ProcStep.addOptions_folded (step : ProcStep) (found : OptionValues) :
    step.folded.addOptions found.folded.values = (step.addOptions found.values).folded := by
  simp [ProcStep.addOptions, ProcStep.folded, OptionValues.folded, List.filter_map,
    Function.comp_def]

end Procedures

/-- A folded segment that stands in no procedure step is read as the segment is. -/
theorem Segment.readFresh_folded (segment : Segment) :
    segment.folded.readFresh = segment.readFresh.folded := by
  obtain ⟨body, stop⟩ := segment
  cases body with
  | nil =>
      rfl
  | cons first operands =>
      simp only [folded, readFresh, List.map_cons, Token.keyword?_folded]
      cases first.keyword? with
      | none =>
          rfl
      | some keyword =>
          cases keyword with
          | data =>
              cases operands with
              | nil =>
                  rfl
              | cons name rest =>
                  simp only [List.map_cons, Token.name?_folded, Option.isSome_map]
                  cases name.name?.isSome with
                  | false =>
                      rfl
                  | true =>
                      simp [Contribution.folded, Statement.folded]
          | infile =>
              simp only [readExternalStatement_folded]
              rfl
          | proc =>
              cases operands with
              | nil =>
                  rfl
              | cons name options =>
                  simp only [List.map_cons, Token.name?_folded, Option.isSome_map]
                  cases name.name?.isSome with
                  | false =>
                      rfl
                  | true =>
                      have step := ProcStep.addOptions_folded ⟨name.mention, [], []⟩
                        (optionValues stop options)
                      simp only [optionValues_folded, Token.mention_folded]
                      exact congrArg (Contribution.mk _ _ ∘ some) step
          | run =>
              rfl
          | quit =>
              rfl
          | _ =>
              simp only [Keyword.readsDatasets, readSourceStatement_folded]
              rfl

/-- A folded segment is read as the segment is, behind a step that is folded if there is one. -/
theorem Segment.read_folded (openStep : Option ProcStep) (segment : Segment) :
    segment.folded.read (openStep.map ProcStep.folded) = (segment.read openStep).folded := by
  cases openStep with
  | none =>
      exact segment.readFresh_folded
  | some step =>
      have first : (segment.folded.body.head?.bind Token.keyword?) =
          segment.body.head?.bind Token.keyword? := by
        cases body : segment.body <;> simp [folded, body]
      simp only [read, Option.map_some, first, readFresh_folded]
      split
      · rfl
      split
      · rfl
      · have options : optionValues segment.folded.stop segment.folded.body =
            (optionValues segment.stop segment.body).folded :=
          optionValues_folded segment.stop segment.body
        simp only [options]
        exact congrArg (Contribution.mk _ _ ∘ some) (step.addOptions_folded _)

theorem Reading.add_folded (reading : Reading) (segment : Segment) :
    reading.folded.add segment.folded = (reading.add segment).folded := by
  simp only [Reading.add_eq, Reading.folded, Segment.read_folded, Contribution.folded,
    List.map_append, List.map_reverse]

/-- Folded tokens make the statements of the tokens, folded. -/
theorem Parsed.ofTokens_folded (tokens : List Token) :
    ofTokens (tokens.map Token.folded) = (ofTokens tokens).folded := by
  have read (segments : List Segment) : (segments.map Segment.folded).foldl Reading.add
      ⟨[], [], none⟩ = (segments.foldl Reading.add ⟨[], [], none⟩).folded :=
    foldl_folded Reading.add_folded ⟨[], [], none⟩ segments
  rw [ofTokens_eq_ofSegments, ofTokens_eq_ofSegments, Segment.ofTokens_folded, ofSegments, read,
    ofSegments]
  generalize (Segment.ofTokens tokens).foldl Reading.add ⟨[], [], none⟩ = reading
  obtain ⟨statements, diagnostics, openStep⟩ := reading
  cases openStep <;> simp [Reading.finished, Reading.folded, Parsed.folded, Statement.folded]

/-- What is wrong with characters is not folded. -/
theorem Scanned.folded_diagnostics (text : String) :
    (ofText text).diagnostics.map Diagnostic.folded = (ofText text).diagnostics := by
  have kept (piece : Piece) (place : Position) :
      (piece.diagnostics place).map Diagnostic.folded = piece.diagnostics place := by
    cases piece with
    | blockComment body closed =>
        cases closed <;> rfl
    | quoted delimiter value closed =>
        cases closed <;> rfl
    | _ =>
        rfl
  simp only [ofText, List.map_flatMap, kept]

/-- A folded text has the statements and diagnostics of the text, folded. -/
theorem Parsed.ofText_foldCase (text : String) :
    ofText (foldCase text) = (ofText text).folded := by
  simp only [ofText, ofScanned, Scanned.ofText_foldCase, ofTokens_folded]
  rw [folded, folded, List.map_append, Scanned.folded_diagnostics]

end DatasetLineage
