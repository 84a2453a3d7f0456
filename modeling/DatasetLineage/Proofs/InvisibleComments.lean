/-
Module: DatasetLineage.Proofs.InvisibleComments
Purpose: A comment is as good as a blank. What tokens are and what is wrong with characters is told
  from the pieces of a text apart from their places, and blanks and closed comments contribute
  nothing to it. Wherever the text in front is closed, a comment between slashes and a blank are
  pieces by themselves and leave the pieces on both sides as they are. So is a comment statement
  where a statement begins.
Main exports: Token.content, Scanned.contents, Piece.contents, Scanned.contents_ofText,
  Scanned.AtStatementStart, Scanned.opensBehind_of_atStatementStart, Scanned.contents_comment
-/
import DatasetLineage.Proofs.TextBoundaries

namespace DatasetLineage

open Text

/-- What a token is, wherever it stands: its kind and its spelling. -/
def Token.content (token : Token) : TokenKind × String := (token.kind, token.spelling)

/-- The kinds and spellings of the tokens of a text and the messages about its characters, without
    their places. -/
def Scanned.contents (scanned : Scanned) : List (TokenKind × String) × List String :=
  (scanned.tokens.map Token.content, scanned.diagnostics.map (·.problem.message))

/-- What a piece contributes, wherever it stands. -/
def Piece.contents (piece : Piece) : List (TokenKind × String) × List String :=
  ((piece.tokens .start).map Token.content,
    (piece.diagnostics .start).map (·.problem.message))

/-! ### Contents of tokens -/

section Contents

variable {place place' : Position}

theorem content_markTokens (place place' : Position) (characters : List Char) :
    (markTokens place characters).map Token.content =
      (markTokens place' characters).map Token.content := by
  induction characters generalizing place place' with
  | nil =>
      rfl
  | cons c rest ih =>
      rw [markTokens, markTokens, List.map_cons, List.map_cons, ih]
      rfl

theorem Piece.content_tokens (piece : Piece) (place : Position) :
    (piece.tokens place).map Token.content = piece.contents.1 := by
  cases piece with
  | mark c =>
      exact content_markTokens place .start [c]
  | strange first more =>
      exact content_markTokens place .start (first :: more)
  | _ =>
      rfl

theorem Piece.message_diagnostics (piece : Piece) (place : Position) :
    (piece.diagnostics place).map (·.problem.message) = piece.contents.2 := by
  cases piece with
  | blockComment body closed =>
      cases closed <;> rfl
  | quoted delimiter value closed =>
      cases closed <;> rfl
  | _ =>
      rfl

theorem contents_scannedFrom (place : Position) (pieces : List Piece) :
    (scannedFrom place pieces).1.map Token.content = pieces.flatMap (·.contents.1) ∧
      (scannedFrom place pieces).2.map (·.problem.message) = pieces.flatMap (·.contents.2) := by
  induction pieces generalizing place with
  | nil =>
      exact ⟨rfl, rfl⟩
  | cons piece rest ih =>
      obtain ⟨tokens, messages⟩ := ih (place.after piece.spelling)
      rw [List.flatMap_cons, List.flatMap_cons, ← tokens, ← messages,
        ← piece.content_tokens place, ← piece.message_diagnostics place]
      simp [scannedFrom, placedFrom]

/-- The contents of a text are those of its pieces, and of the end of the text. -/
theorem Scanned.contents_ofText (text : String) :
    (ofText text).contents =
      ((Piece.ofText text.toList).flatMap (·.contents.1) ++ [(.endOfText, "eof")],
        (Piece.ofText text.toList).flatMap (·.contents.2)) := by
  obtain ⟨tokens, messages⟩ := contents_scannedFrom .start (Piece.ofText text.toList)
  rw [ofText_eq, contents, List.map_append, tokens, messages]
  rfl

/-- A piece that contributes nothing may be left out. -/
theorem Scanned.contents_of_gap {text : String} {front behind : List Piece} {gap : Piece}
    (cut : Piece.ofText text.toList = front ++ gap :: behind)
    (nothing : gap.contents = ([], [])) :
    (ofText text).contents =
      ((front ++ behind).flatMap (·.contents.1) ++ [(.endOfText, "eof")],
        (front ++ behind).flatMap (·.contents.2)) := by
  rw [contents_ofText, cut]
  simp [nothing]

end Contents

/-- Whether a statement begins behind the tokens of a text: it has none besides the one for its end,
    or the last of them is a semicolon. -/
def Scanned.AtStatementStart (scanned : Scanned) : Prop :=
  ∀ token ∈ scanned.tokens.dropLast.getLast?, token.isMark ';' = true

instance (scanned : Scanned) : Decidable scanned.AtStatementStart :=
  inferInstanceAs (Decidable (∀ token ∈ scanned.tokens.dropLast.getLast?,
    token.isMark ';' = true))

/-- The last token of a text tells whether a statement begins behind it. -/
theorem Scanned.opensBehind_of_atStatementStart {text : String}
    (atStart : (ofText text).AtStatementStart) :
    opensBehind true (Piece.ofText text.toList) = true := by
  have separated := Piece.separated_ofText text.toList
  rw [← List.append_nil (Piece.ofText text.toList)] at separated
  have tokens := map_token_spansFrom [] (Piece.ofText text.toList)
  rw [Position.after_nil] at tokens
  rw [AtStatementStart, ofText_eq, List.dropLast_concat, ← tokens, List.getLast?_map] at atStart
  rw [← isMark_getLast_spansFrom [] separated]
  cases last : (spansFrom [] (Piece.ofText text.toList)).getLast? with
  | none =>
      rfl
  | some span =>
      exact atStart span.token (by simp [last])

/-! ### Comments and blanks -/

section Gaps

variable {front : List Char}

/-- Behind a text whose pieces are closed, a blank or a comment between slashes is a piece by
    itself. -/
theorem Piece.ofText_gap (closed : ∀ piece ∈ ofText front, piece.IsClosed) (gap : Piece)
    (behind : List Char) (fits : ∀ before, gap.Fits before behind)
    (keeps : ∀ before, gap.opensStatement before = before)
    (begins : ∃ c rest, gap.spelling = c :: rest ∧ (c = ' ' ∨ c = '/')) :
    ofText (front ++ (gap.spelling ++ behind)) =
      ofText front ++ gap :: ofTextBehind (opensBehind true (ofText front)) behind := by
  obtain ⟨c, rest, spelled, isGap⟩ := begins
  have first : ∀ d ∈ (gap.spelling ++ behind).head?, d = ' ' ∨ d = '/' := by
    intro d isFirst
    rw [spelled, List.cons_append, List.head?_cons, Option.mem_some_iff] at isFirst
    exact isFirst ▸ isGap
  rw [ofText_append_of_isClosed closed first, ofTextBehind_spelling (fits _), keeps]

/-- Where a statement begins, so is a comment statement. -/
theorem Piece.ofText_starComment (closed : ∀ piece ∈ ofText front, piece.IsClosed)
    (opens : opensBehind true (ofText front) = true) {note : List Char} (noEnd : ';' ∉ note)
    (behind : List Char) :
    ofText (front ++ ((starComment note true).spelling ++ behind)) =
      ofText front ++
        starComment note true :: ofTextBehind (opensBehind true (ofText front)) behind := by
  have fits : (starComment note true).Fits true behind := ⟨rfl, noEnd, .inl rfl⟩
  have cut := ofTextBehind_spelling fits
  have closed' : ∀ piece ∈ (ofText front).getLast?, piece.IsClosed := fun piece last =>
    closed piece (List.mem_of_getLast? last)
  rw [ofTextBehind_true] at cut
  rw [ofText_append_of_opens _ closed' opens, cut, opens]
  rfl

end Gaps

/-- A comment between slashes in a text is as good as a blank, unless the text in front of it leaves
    a comment or a literal open. Where a statement begins, so is a comment statement. -/
theorem Scanned.contents_comment (front body behind : String)
    (closed : ∀ piece ∈ Piece.ofText front.toList, piece.IsClosed)
    (noEnd : ¬ ['*', '/'] <:+: body.toList) :
    (ofText (front ++ "/*" ++ body ++ "*/" ++ behind)).contents =
        (ofText (front ++ " " ++ behind)).contents ∧
      ((ofText front).AtStatementStart → ∀ note : String, ';' ∉ note.toList →
        (ofText (front ++ "*" ++ note ++ ";" ++ behind)).contents =
          (ofText (front ++ " " ++ behind)).contents) := by
  have spaced : (front ++ " " ++ behind).toList =
      front.toList ++ ((Piece.blank ' ').spelling ++ behind.toList) := by
    simp [Piece.spelling]
  have blank := Piece.ofText_gap closed (.blank ' ') behind.toList
    (fun _ => (by decide : isBlank ' ' = true)) (fun _ => rfl) ⟨' ', [], rfl, .inl rfl⟩
  rw [← spaced] at blank
  rw [contents_of_gap blank rfl]
  constructor
  · have commented : (front ++ "/*" ++ body ++ "*/" ++ behind).toList =
        front.toList ++ ((Piece.blockComment body.toList true).spelling ++ behind.toList) := by
      simp [Piece.spelling]
    have comment := Piece.ofText_gap closed (.blockComment body.toList true) behind.toList
      (fun _ => ⟨noEnd, .inl rfl⟩) (fun _ => rfl) ⟨'/', _, rfl, .inr rfl⟩
    rw [← commented] at comment
    exact contents_of_gap comment rfl
  · intro atStart note noSemicolon
    have commented : (front ++ "*" ++ note ++ ";" ++ behind).toList =
        front.toList ++ ((Piece.starComment note.toList true).spelling ++ behind.toList) := by
      simp [Piece.spelling]
    have comment := Piece.ofText_starComment closed (opensBehind_of_atStatementStart atStart)
      noSemicolon behind.toList
    rw [← commented] at comment
    exact contents_of_gap comment rfl

/-- A comment with a quote and a slash behind a word and a dot, and a comment statement behind a
    semicolon, which is itself in front of a word that would go on with the one before. -/
theorem Scanned.contents_comment_between_words :
    let front := "data a; 'it''s' b."
    let start := "data a;"
    (∀ piece ∈ Piece.ofText front.toList, piece.IsClosed) ∧
      (∀ piece ∈ Piece.ofText start.toList, piece.IsClosed) ∧
      ¬ ['*', '/'] <:+: "/ don't *".toList ∧ (ofText start).AtStatementStart ∧
      (ofText (front ++ "/*" ++ "/ don't *" ++ "*/" ++ "c §;")).contents =
        (ofText (front ++ " " ++ "c §;")).contents ∧
      (ofText (start ++ "*" ++ "/ don't *" ++ ";" ++ "c §;")).contents =
        (ofText (start ++ " " ++ "c §;")).contents := by
  intro front start
  have closed : ∀ piece ∈ Piece.ofText front.toList, piece.IsClosed := by decide +kernel
  have closed' : ∀ piece ∈ Piece.ofText start.toList, piece.IsClosed := by decide +kernel
  have noEnd : ¬ ['*', '/'] <:+: "/ don't *".toList := by decide +kernel
  have atStart : (ofText start).AtStatementStart := by decide +kernel
  exact ⟨closed, closed', noEnd, atStart,
    (contents_comment front "/ don't *" "c §;" closed noEnd).1,
    (contents_comment start "/ don't *" "c §;" closed' noEnd).2 atStart "/ don't *"
      (by decide +kernel)⟩

end DatasetLineage
