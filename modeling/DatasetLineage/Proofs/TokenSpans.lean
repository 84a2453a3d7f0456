/-
Module: DatasetLineage.Proofs.TokenSpans
Purpose: Where the tokens of a text stand in it. The tokens of a piece stand one behind the other
  and make up the piece, so tokens have spans that follow one another in the text and hold their
  spellings. Lines and columns are told from the text in front of a span. What no span holds is
  blank or in a comment, and a comment from a star stands where a statement begins.
Main exports: placeAt, Span, Span.IsIn, Token.Agrees, Skipped, SpansOf, InRow, lineUp, spansFrom,
  Scanned.spansOf_ofText, Scanned.nodup_positions_ofText, Scanned.exists_spansOf
-/
import DatasetLineage.Proofs.PieceCutting
import DatasetLineage.Proofs.ProgramLayout

namespace DatasetLineage

open Text

/-- The place of the character at an offset of a text: one line more than there are line feeds in
    front of it, and one column more than there are characters since the last of them. -/
def placeAt (text : List Char) (offset : Nat) : Position :=
  ⟨1 + (text.take offset).count '\n',
    1 + ((text.take offset).reverse.takeWhile (· ≠ '\n')).length⟩

/-- Whether a place comes before another one in reading order. -/
def Position.Before (a b : Position) : Prop :=
  a.line < b.line ∨ a.line = b.line ∧ a.column < b.column

/-- Whether the kind of a token agrees with its spelling. -/
def Token.Agrees (token : Token) : Prop :=
  match token.kind with
  | .keyword keyword => sameUpToAsciiCase keyword.name token.spelling = true
  | .identifier name => token.spelling = name
  | .mark c => token.spelling = c.toString
  | .string value =>
    ∃ delimiter closed, IsDelimiter delimiter ∧
      token.spelling.toList = (Piece.quoted delimiter value.toList closed).spelling
  | .endOfText => False

/-- A token and the offset of its first character. -/
structure Span where
  token : Token
  start : Nat
deriving DecidableEq, Repr

namespace Span

/-- The offset behind the last character. -/
def stop (span : Span) : Nat := span.start + span.token.spelling.toList.length

/-- Whether the character at an offset is one of the token. -/
def Holds (span : Span) (offset : Nat) : Prop := span.start ≤ offset ∧ offset < span.stop

/-- Whether a token has characters, these stand in a text from its start to its stop, it is placed
    where they begin, and its kind agrees with them. -/
structure IsIn (text : List Char) (span : Span) : Prop where
  nonempty : span.start < span.stop
  spelled : text.extract span.start span.stop = span.token.spelling.toList
  placed : span.token.position = placeAt text span.start
  agrees : span.token.Agrees

end Span

/-- Whether characters are a comment between slashes, which only the end of the text may leave
    open. -/
def IsBlockComment (atEnd : Prop) (characters : List Char) : Prop :=
  ∃ body, ¬ ['*', '/'] <:+: body ∧
    (characters = '/' :: '*' :: body ++ ['*', '/'] ∨ atEnd ∧ characters = '/' :: '*' :: body)

/-- Whether characters are a comment statement, which only the end of the text may leave open. -/
def IsStarComment (atEnd : Prop) (characters : List Char) : Prop :=
  ∃ body, ';' ∉ body ∧
    (characters = '*' :: body ++ [';'] ∨ atEnd ∧ characters = '*' :: body)

/-- Whether the character at an offset is blank or in a comment that no span meets. A comment
    statement stands behind no token or behind a semicolon. -/
def Skipped (text : List Char) (spans : List Span) (offset : Nat) : Prop :=
  (∃ c ∈ text[offset]?, isBlank c = true) ∨
    ∃ first last, first ≤ offset ∧ offset < last ∧ last ≤ text.length ∧
      (∀ span ∈ spans, span.stop ≤ first ∨ last ≤ span.start) ∧
      (IsBlockComment (last = text.length) (text.extract first last) ∨
        IsStarComment (last = text.length) (text.extract first last) ∧
          ∀ span ∈ (spans.filter (·.stop ≤ first)).getLast?, span.token.isMark ';' = true)

/-- Whether tokens, the last one for the end of the text apart, have the given spans in a text, and
    what is in none of these is skipped. -/
structure SpansOf (text : List Char) (tokens : List Token) (spans : List Span) : Prop where
  tokens : tokens = spans.map Span.token ++ [Token.endAt (placeAt text text.length)]
  ordered : spans.Pairwise fun a b => a.stop ≤ b.start
  inText : ∀ span ∈ spans, span.IsIn text
  skipped : ∀ offset < text.length, (∀ span ∈ spans, ¬ span.Holds offset) →
    Skipped text spans offset

/-! ### Places along a text -/

section Places

/-- Moving over a text counts its line feeds, and the characters since the last one. -/
theorem after_start_eq_placeAt (front rest : List Char) :
    Position.start.after front = placeAt (front ++ rest) front.length := by
  rw [placeAt, List.take_left]
  induction front using List.reverseRec with
  | nil =>
      rfl
  | append_singleton front c ih =>
      rw [Position.after_append, ih]
      by_cases lineFeed : c = '\n'
      · subst lineFeed
        simp [Position.next, Nat.add_assoc]
      · simp [Position.next, lineFeed, Nat.add_assoc, Nat.add_comm 1]

theorem after_take_eq_placeAt (text : List Char) (offset : Nat) :
    Position.start.after (text.take offset) = placeAt text offset := by
  rw [after_start_eq_placeAt _ [], placeAt, placeAt, List.take_left]

theorem placeAt_lt {text : List Char} (short : text.length < UInt32.size - 1) (offset : Nat) :
    (placeAt text offset).line < UInt32.size ∧ (placeAt text offset).column < UInt32.size := by
  have feeds : (text.take offset).count '\n' ≤ (text.take offset).length := List.count_le_length
  have since := (List.takeWhile_sublist (· ≠ '\n') (l := (text.take offset).reverse)).length_le
  have part : (text.take offset).length ≤ text.length := List.length_take_le' offset text
  rw [List.length_reverse] at since
  constructor
  · change 1 + _ < _
    omega
  · change 1 + _ < _
    omega

theorem Position.before_next (place : Position) (c : Char) : place.Before (place.next c) := by
  unfold Before next
  split
  · exact .inl (Nat.lt_succ_self _)
  · exact .inr ⟨rfl, Nat.lt_succ_self _⟩

theorem Position.Before.trans {a b c : Position} (first : a.Before b) (second : b.Before c) :
    a.Before c := by
  unfold Before at first second ⊢
  omega

theorem Position.not_before_self (place : Position) : ¬ place.Before place := by
  unfold Before
  omega

/-- Places that come later and later are different. -/
theorem nodup_of_pairwise_before {places : List Position}
    (ordered : places.Pairwise Position.Before) : places.Nodup := by
  refine ordered.imp fun {a b} before => ?_
  rintro rfl
  exact a.not_before_self before

theorem Position.before_after {place : Position} {text : List Char} (nonempty : text ≠ []) :
    place.Before (place.after text) := by
  induction text generalizing place with
  | nil =>
      exact absurd rfl nonempty
  | cons c rest ih =>
      cases rest with
      | nil =>
          exact before_next place c
      | cons d rest =>
          exact (before_next place c).trans (ih (List.cons_ne_nil d rest))

/-- Later characters are at later places. -/
theorem placeAt_before {text : List Char} {i j : Nat} (earlier : i < j)
    (inText : j ≤ text.length) : (placeAt text i).Before (placeAt text j) := by
  have parts : text.take j = text.take i ++ (text.take j).drop i := by
    have front : (text.take j).take i = text.take i := by
      rw [List.take_take, Nat.min_eq_left (Nat.le_of_lt earlier)]
    rw [← front, List.take_append_drop]
  have between : (text.take j).drop i ≠ [] := by
    rw [← List.length_pos_iff, List.length_drop, List.length_take]
    omega
  rw [← after_take_eq_placeAt, ← after_take_eq_placeAt, parts, Position.after_append]
  exact Position.before_after between

end Places

/-- Whether tokens stand one behind the other from a place on, each with characters that agree with
    its kind. -/
def InRow (place : Position) : List Token → Prop
  | [] => True
  | token :: rest =>
    token.position = place ∧ token.spelling.toList ≠ [] ∧ token.Agrees ∧
      InRow (place.after token.spelling.toList) rest

/-- The characters of tokens. -/
def spelledBy (tokens : List Token) : List Char := tokens.flatMap fun token => token.spelling.toList

/-! ### Tokens of one piece -/

section Pieces

variable {place : Position}

theorem agrees_wordKind (spelling : List Char) :
    (Token.mk (wordKind spelling) (String.ofList spelling) place).Agrees := by
  unfold wordKind
  cases found : Keyword.ofText? (String.ofList spelling) with
  | none =>
      exact rfl
  | some keyword =>
      by_cases plain : isPlainWord spelling = true
      · have spells := List.find?_some found
        simpa [plain, Token.Agrees] using spells
      · simp [plain, Token.Agrees]

theorem wordKind_ne_mark (spelling : List Char) (c : Char) : wordKind spelling ≠ .mark c := by
  unfold wordKind
  cases Keyword.ofText? (String.ofList spelling) with
  | none =>
      exact fun same => nomatch same
  | some keyword =>
      cases isPlainWord spelling <;> exact fun same => nomatch same

theorem exists_kind_of_mem_markTokens {characters : List Char} {token : Token}
    (member : token ∈ markTokens place characters) : ∃ c ∈ characters, token.kind = .mark c := by
  induction characters generalizing place with
  | nil =>
      exact absurd member List.not_mem_nil
  | cons c rest ih =>
      rcases List.mem_cons.mp member with rfl | later
      · exact ⟨c, List.mem_cons_self, rfl⟩
      · obtain ⟨d, inRest, kind⟩ := ih later
        exact ⟨d, List.mem_cons_of_mem _ inRest, kind⟩

theorem inRow_markTokens (characters : List Char) : InRow place (markTokens place characters) := by
  induction characters generalizing place with
  | nil =>
      trivial
  | cons c rest ih =>
      refine ⟨rfl, ?_, rfl, ?_⟩
      · simp
      · simpa using ih

theorem spelledBy_markTokens (characters : List Char) :
    spelledBy (markTokens place characters) = characters := by
  induction characters generalizing place with
  | nil =>
      rfl
  | cons c rest ih =>
      have later : spelledBy (markTokens (place.next c) rest) = rest := ih
      rw [spelledBy] at later
      rw [markTokens, spelledBy, List.flatMap_cons, later]
      simp

variable {statementStart : Bool} {rest : List Char} {piece : Piece}

/-- The tokens of a piece that fits stand in a row. -/
theorem Piece.Fits.inRow_tokens (fits : piece.Fits statementStart rest) (place : Position) :
    InRow place (piece.tokens place) := by
  cases piece with
  | blank c =>
      trivial
  | blockComment body closed =>
      trivial
  | starComment body closed =>
      trivial
  | quoted delimiter value closed =>
      refine ⟨rfl, by simp [Piece.spelling], ⟨delimiter, closed, fits.1, ?_⟩, trivial⟩
      simp
  | word spelling =>
      obtain ⟨first, tail, shape, _⟩ := fits
      refine ⟨rfl, ?_, agrees_wordKind spelling, trivial⟩
      rcases shape with rfl | rfl <;> simp
  | number spelling =>
      obtain ⟨first, tail, rfl, _⟩ := fits
      exact ⟨rfl, by simp, rfl, trivial⟩
  | mark c =>
      exact inRow_markTokens [c]
  | strange first more =>
      exact inRow_markTokens (first :: more)

/-- The tokens of a piece make it up, unless it has none. -/
theorem Piece.spelledBy_tokens (piece : Piece) :
    (∀ place, piece.tokens place = []) ∨
      ∀ place, spelledBy (piece.tokens place) = piece.spelling := by
  cases piece with
  | blank c =>
      exact .inl fun _ => rfl
  | blockComment body closed =>
      exact .inl fun _ => rfl
  | starComment body closed =>
      exact .inl fun _ => rfl
  | quoted delimiter value closed =>
      exact .inr fun _ => by simp [spelledBy, Piece.tokens]
  | word spelling =>
      exact .inr fun _ => by simp [spelledBy, Piece.tokens, Piece.spelling]
  | number spelling =>
      exact .inr fun _ => by simp [spelledBy, Piece.tokens, Piece.spelling]
  | mark c =>
      exact .inr fun _ => spelledBy_markTokens [c]
  | strange first more =>
      exact .inr fun _ => spelledBy_markTokens (first :: more)

end Pieces

/-- Tokens one behind the other from an offset on. -/
def lineUp (offset : Nat) : List Token → List Span
  | [] => []
  | token :: rest => ⟨token, offset⟩ :: lineUp (offset + token.spelling.toList.length) rest

/-! ### Tokens in a row -/

section LinedUp

variable {offset : Nat} {tokens : List Token} {span : Span}

theorem map_token_lineUp (offset : Nat) (tokens : List Token) :
    (lineUp offset tokens).map Span.token = tokens := by
  induction tokens generalizing offset with
  | nil =>
      rfl
  | cons token rest ih =>
      rw [lineUp, List.map_cons, ih]

theorem length_spelledBy_cons (token : Token) (tokens : List Token) :
    (spelledBy (token :: tokens)).length =
      token.spelling.toList.length + (spelledBy tokens).length := by
  simp [spelledBy]

theorem bounds_of_mem_lineUp (member : span ∈ lineUp offset tokens) :
    offset ≤ span.start ∧ span.stop ≤ offset + (spelledBy tokens).length := by
  induction tokens generalizing offset with
  | nil =>
      exact absurd member List.not_mem_nil
  | cons token rest ih =>
      rw [length_spelledBy_cons]
      rcases List.mem_cons.mp member with rfl | later
      · refine ⟨Nat.le_refl offset, ?_⟩
        change offset + token.spelling.toList.length ≤ _
        omega
      · have bounds := ih later
        omega

theorem pairwise_lineUp (offset : Nat) (tokens : List Token) :
    (lineUp offset tokens).Pairwise fun a b => a.stop ≤ b.start := by
  induction tokens generalizing offset with
  | nil =>
      exact List.Pairwise.nil
  | cons token rest ih =>
      refine List.pairwise_cons.mpr ⟨?_, ih _⟩
      exact fun span later => (bounds_of_mem_lineUp later).1

/-- Tokens in a row leave no gaps. -/
theorem exists_holds_of_lineUp {i : Nat} (above : offset ≤ i)
    (below : i < offset + (spelledBy tokens).length) :
    ∃ span ∈ lineUp offset tokens, span.Holds i := by
  induction tokens generalizing offset with
  | nil =>
      rw [spelledBy, List.flatMap_nil, List.length_nil] at below
      omega
  | cons token rest ih =>
      by_cases inFirst : i < offset + token.spelling.toList.length
      · exact ⟨⟨token, offset⟩, List.mem_cons_self, above, inFirst⟩
      · rw [length_spelledBy_cons] at below
        obtain ⟨span, later, holds⟩ : ∃ span ∈ lineUp (offset + token.spelling.toList.length) rest,
            span.Holds i := ih (by omega) (by omega)
        exact ⟨span, List.mem_cons_of_mem _ later, holds⟩

/-- Tokens in a row that spell a stretch of a text are in it. -/
theorem isIn_of_mem_lineUp {front behind : List Char}
    (row : InRow (Position.start.after front) tokens)
    (member : span ∈ lineUp front.length tokens) :
    span.IsIn (front ++ (spelledBy tokens ++ behind)) := by
  induction tokens generalizing front with
  | nil =>
      exact absurd member List.not_mem_nil
  | cons token rest ih =>
      obtain ⟨placed, nonempty, agrees, later⟩ := row
      have text : front ++ (spelledBy (token :: rest) ++ behind) =
          (front ++ token.spelling.toList) ++ (spelledBy rest ++ behind) := by
        simp [spelledBy]
      rw [text]
      rcases List.mem_cons.mp member with rfl | inRest
      · refine ⟨?_, ?_, ?_, agrees⟩
        · exact Nat.lt_add_of_pos_right (List.length_pos_iff.mpr nonempty)
        · simp [Span.stop]
        · rw [placed, List.append_assoc]
          exact after_start_eq_placeAt front _
      · apply ih
        · rwa [Position.after_append]
        · rwa [List.length_append]

end LinedUp

/-- The spans of the tokens of pieces that stand behind a text. -/
def spansFrom (front : List Char) : List Piece → List Span
  | [] => []
  | piece :: rest =>
    lineUp front.length (piece.tokens (Position.start.after front)) ++
      spansFrom (front ++ piece.spelling) rest

/-- Whether a statement begins behind pieces, given whether one begins in front of them. -/
def opensBehind (statementStart : Bool) (pieces : List Piece) : Bool :=
  pieces.foldl (fun before piece => piece.opensStatement before) statementStart

/-! ### Spans of the tokens of pieces -/

section Spans

variable {statementStart : Bool} {pieces behind : List Piece} {front : List Char} {span : Span}

theorem map_token_spansFrom (front : List Char) (pieces : List Piece) :
    (spansFrom front pieces).map Span.token =
      (scannedFrom (Position.start.after front) pieces).1 := by
  induction pieces generalizing front with
  | nil =>
      rfl
  | cons piece rest ih =>
      rw [spansFrom, List.map_append, map_token_lineUp, ih, Position.after_append]
      rfl

theorem spansFrom_append (front : List Char) (pieces behind : List Piece) :
    spansFrom front (pieces ++ behind) =
      spansFrom front pieces ++ spansFrom (front ++ spellingOf pieces) behind := by
  induction pieces generalizing front with
  | nil =>
      simp [spansFrom]
  | cons piece rest ih =>
      rw [List.cons_append, spansFrom, spansFrom, ih, spellingOf_cons, List.append_assoc,
        List.append_assoc]

theorem length_spelledBy_tokens_le (piece : Piece) (place : Position) :
    (spelledBy (piece.tokens place)).length ≤ piece.spelling.length := by
  rcases piece.spelledBy_tokens with none | whole
  · rw [none]
    exact Nat.zero_le _
  · exact whole place ▸ Nat.le_refl _

theorem bounds_of_mem_spansFrom (member : span ∈ spansFrom front pieces) :
    front.length ≤ span.start ∧ span.stop ≤ front.length + (spellingOf pieces).length := by
  induction pieces generalizing front with
  | nil =>
      exact absurd member List.not_mem_nil
  | cons piece rest ih =>
      rw [spellingOf_cons, List.length_append]
      rcases List.mem_append.mp member with first | later
      · have bounds := bounds_of_mem_lineUp first
        have within := length_spelledBy_tokens_le piece (Position.start.after front)
        omega
      · have bounds := ih later
        rw [List.length_append] at bounds
        omega

theorem pairwise_spansFrom (front : List Char) (pieces : List Piece) :
    (spansFrom front pieces).Pairwise fun a b => a.stop ≤ b.start := by
  induction pieces generalizing front with
  | nil =>
      exact List.Pairwise.nil
  | cons piece rest ih =>
      refine List.pairwise_append.mpr ⟨pairwise_lineUp _ _, ih _, ?_⟩
      intro a first b later
      have bounds := bounds_of_mem_lineUp first
      have within := length_spelledBy_tokens_le piece (Position.start.after front)
      have bounds' := bounds_of_mem_spansFrom later
      rw [List.length_append] at bounds'
      omega

theorem isIn_of_mem_spansFrom (separated : Separated statementStart pieces)
    (member : span ∈ spansFrom front pieces) : span.IsIn (front ++ spellingOf pieces) := by
  induction pieces generalizing front statementStart with
  | nil =>
      exact absurd member List.not_mem_nil
  | cons piece rest ih =>
      obtain ⟨fits, later⟩ := separated
      rcases List.mem_append.mp member with first | inRest
      · rcases piece.spelledBy_tokens with none | whole
        · rw [none] at first
          exact absurd first List.not_mem_nil
        · rw [spellingOf_cons, ← whole (Position.start.after front)]
          exact isIn_of_mem_lineUp (fits.inRow_tokens _) first
      · rw [spellingOf_cons, ← List.append_assoc]
        exact ih later inRest

theorem Separated.of_append (separated : Separated statementStart (pieces ++ behind)) :
    Separated (opensBehind statementStart pieces) behind := by
  induction pieces generalizing statementStart with
  | nil =>
      exact separated
  | cons piece rest ih =>
      exact ih separated.2

/-- A semicolon is no strange character. -/
theorem Piece.Fits.ne_semicolon {first : Char} {more rest : List Char}
    (fits : (Piece.strange first more).Fits statementStart rest) :
    ∀ c ∈ first :: more, c ≠ ';' := by
  obtain ⟨⟨_, notMark, _⟩, strange, _⟩ := fits
  rintro c inRun rfl
  rcases List.mem_cons.mp inRun with rfl | later
  · exact notMark (by decide)
  · exact absurd (strange ';' later) (by decide)

/-- The last token of a piece, if it has one, tells whether a statement begins behind it. -/
theorem Piece.Fits.isMark_getLast {piece : Piece} {rest : List Char}
    (fits : piece.Fits statementStart rest) (place : Position) :
    ((piece.tokens place).getLast?.map (·.isMark ';')).getD statementStart =
      piece.opensStatement statementStart := by
  cases piece with
  | blank c =>
      rfl
  | blockComment body closed =>
      rfl
  | starComment body closed =>
      rfl
  | quoted delimiter value closed =>
      rfl
  | word spelling =>
      have notMark := wordKind_ne_mark spelling ';'
      simpa [Piece.tokens, Token.isMark, Piece.opensStatement] using notMark
  | number spelling =>
      rfl
  | mark c =>
      simp [Piece.tokens, markTokens, Token.isMark, Piece.opensStatement]
  | strange first more =>
      have noSemicolon : ∀ token ∈ markTokens place (first :: more), token.isMark ';' = false := by
        intro token member
        obtain ⟨c, inRun, kind⟩ := exists_kind_of_mem_markTokens member
        have other := fits.ne_semicolon c inRun
        simp [Token.isMark, kind, other]
      cases last : (markTokens place (first :: more)).getLast? with
      | none =>
          exact absurd (List.getLast?_eq_none_iff.mp last) (List.cons_ne_nil _ _)
      | some token =>
          rw [Piece.tokens, last]
          exact noSemicolon token (List.mem_of_getLast? last)

/-- The last token in front tells whether a statement begins. -/
theorem isMark_getLast_spansFrom (front : List Char)
    (separated : Separated statementStart (pieces ++ behind)) :
    ((spansFrom front pieces).getLast?.map (·.token.isMark ';')).getD statementStart =
      opensBehind statementStart pieces := by
  induction pieces generalizing front statementStart with
  | nil =>
      rfl
  | cons piece rest ih =>
      obtain ⟨fits, later⟩ := separated
      have own := fits.isMark_getLast (Position.start.after front)
      have others := ih (front ++ piece.spelling) later
      rw [← map_token_lineUp front.length (piece.tokens _), List.getLast?_map, Option.map_map]
        at own
      rw [opensBehind, List.foldl_cons, ← opensBehind, ← others, ← own, spansFrom,
        List.getLast?_append]
      cases (spansFrom (front ++ piece.spelling) rest).getLast? with
      | none =>
          rfl
      | some span =>
          rfl

/-- Every offset of a text is in one of its pieces. -/
theorem exists_piece_at (offset : Nat) (inside : offset < (spellingOf pieces).length) :
    ∃ before piece after, pieces = before ++ piece :: after ∧
      (spellingOf before).length ≤ offset ∧
      offset < (spellingOf before).length + piece.spelling.length := by
  induction pieces generalizing offset with
  | nil =>
      exact absurd inside (Nat.not_lt_zero offset)
  | cons piece rest ih =>
      by_cases first : offset < piece.spelling.length
      · exact ⟨[], piece, rest, rfl, Nat.zero_le offset, by simpa using first⟩
      · rw [spellingOf_cons, List.length_append] at inside
        obtain ⟨before, found, after, rfl, above, below⟩ :=
          ih (offset - piece.spelling.length) (by omega)
        refine ⟨piece :: before, found, after, rfl, ?_, ?_⟩
        · rw [spellingOf_cons, List.length_append]
          omega
        · rw [spellingOf_cons, List.length_append]
          omega

end Spans

/-! ### Characters between tokens -/

section Gaps

variable {before after : List Piece} {piece : Piece} {offset : Nat}

theorem spansFrom_gap (noTokens : ∀ place, piece.tokens place = []) :
    spansFrom [] (before ++ piece :: after) =
      spansFrom [] before ++ spansFrom (spellingOf before ++ piece.spelling) after := by
  rw [spansFrom_append, spansFrom, noTokens, List.nil_append]
  rfl

/-- No span meets a piece without tokens. -/
theorem apart_of_noTokens (noTokens : ∀ place, piece.tokens place = []) {span : Span}
    (member : span ∈ spansFrom [] (before ++ piece :: after)) :
    span.stop ≤ (spellingOf before).length ∨
      (spellingOf before).length + piece.spelling.length ≤ span.start := by
  rw [spansFrom_gap noTokens] at member
  rcases List.mem_append.mp member with inFront | behind
  · have bounds := bounds_of_mem_spansFrom inFront
    rw [List.length_nil, Nat.zero_add] at bounds
    exact .inl bounds.2
  · have bounds := bounds_of_mem_spansFrom behind
    rw [List.length_append] at bounds
    exact .inr bounds.1

/-- The spans in front of a piece without tokens are those that stop there. -/
theorem filter_stop_le_of_noTokens (separated : Separated true (before ++ piece :: after))
    (noTokens : ∀ place, piece.tokens place = []) :
    (spansFrom [] (before ++ piece :: after)).filter (·.stop ≤ (spellingOf before).length) =
      spansFrom [] before := by
  rw [spansFrom_gap noTokens, List.filter_append]
  have all : (spansFrom [] before).filter (·.stop ≤ (spellingOf before).length) =
      spansFrom [] before := by
    rw [List.filter_eq_self]
    intro span member
    have bounds := bounds_of_mem_spansFrom member
    rw [List.length_nil, Nat.zero_add] at bounds
    exact decide_eq_true bounds.2
  have none : (spansFrom (spellingOf before ++ piece.spelling) after).filter
      (·.stop ≤ (spellingOf before).length) = [] := by
    rw [List.filter_eq_nil_iff]
    intro span member stops
    have bounds := bounds_of_mem_spansFrom member
    have nonempty := (isIn_of_mem_spansFrom separated.of_append.2 member).nonempty
    rw [List.length_append] at bounds
    have := of_decide_eq_true stops
    omega
  rw [all, none, List.append_nil]

theorem extract_piece (before after : List Piece) (piece : Piece) :
    (spellingOf (before ++ piece :: after)).extract (spellingOf before).length
      ((spellingOf before).length + piece.spelling.length) = piece.spelling := by
  simp

/-- A stretch of a text that is all of the text behind its beginning reaches the end. -/
theorem reaches_end (ends : spellingOf after = []) :
    (spellingOf before).length + piece.spelling.length =
      (spellingOf (before ++ piece :: after)).length := by
  simp [ends]

/-- What is in a piece without tokens is skipped. -/
theorem skipped_of_noTokens (separated : Separated true (before ++ piece :: after))
    (noTokens : ∀ place, piece.tokens place = []) (above : (spellingOf before).length ≤ offset)
    (below : offset < (spellingOf before).length + piece.spelling.length) :
    Skipped (spellingOf (before ++ piece :: after)) (spansFrom [] (before ++ piece :: after))
      offset := by
  have fits := separated.of_append.1
  have within : (spellingOf before).length + piece.spelling.length ≤
      (spellingOf (before ++ piece :: after)).length := by
    simp
  have apart : ∀ span ∈ spansFrom [] (before ++ piece :: after),
      span.stop ≤ (spellingOf before).length ∨
        (spellingOf before).length + piece.spelling.length ≤ span.start :=
    fun _ => apart_of_noTokens noTokens
  have stretch := extract_piece before after piece
  cases piece with
  | blank c =>
      left
      have here : offset = (spellingOf before).length := by
        rw [Piece.spelling, List.length_singleton] at below
        omega
      exact ⟨c, by simp [here, Piece.spelling], fits⟩
  | blockComment body closed =>
      right
      refine ⟨_, _, above, below, within, apart, .inl ⟨body, fits.1, ?_⟩⟩
      rw [stretch]
      cases closed with
      | false =>
          exact .inr ⟨reaches_end (fits.2.resolve_left Bool.false_ne_true),
            by simp [Piece.spelling]⟩
      | true =>
          exact .inl (by simp [Piece.spelling])
  | starComment body closed =>
      right
      have starts : opensBehind true before = true := fits.1
      have last := isMark_getLast_spansFrom [] separated
      rw [starts, ← filter_stop_le_of_noTokens separated noTokens] at last
      refine ⟨_, _, above, below, within, apart, .inr ⟨⟨body, fits.2.1, ?_⟩, ?_⟩⟩
      · rw [stretch]
        cases closed with
        | false =>
            exact .inr ⟨reaches_end (fits.2.2.resolve_left Bool.false_ne_true),
              by simp [Piece.spelling]⟩
        | true =>
            exact .inl (by simp [Piece.spelling])
      · intro span isLast
        rw [Option.mem_def.mp isLast] at last
        exact last
  | _ =>
      exact absurd (noTokens .start) (List.cons_ne_nil _ _)

end Gaps

theorem Placed.position_ofPieces (pieces : List Piece) :
    (Placed.ofPieces pieces).position = Position.start.after (spellingOf pieces) := by
  have run : ∀ placed : Placed, (pieces.foldl Placed.add placed).position =
      placed.position.after (spellingOf pieces) := by
    induction pieces with
    | nil =>
        intro placed
        rfl
    | cons piece rest ih =>
        intro placed
        rw [List.foldl_cons, ih, spellingOf_cons, Position.after_append]
        rfl
  exact run ⟨[], .start⟩

/-- The spans of pieces that fit are those of the tokens of their spelling. -/
theorem spansOf_spansFrom {pieces : List Piece} (separated : Separated true pieces) :
    SpansOf (spellingOf pieces)
      ((scannedFrom .start pieces).1 ++ [Token.endAt (Position.start.after (spellingOf pieces))])
      (spansFrom [] pieces) where
  tokens := by
    have placed := after_start_eq_placeAt (spellingOf pieces) []
    rw [List.append_nil] at placed
    rw [map_token_spansFrom, placed]
    rfl
  ordered := pairwise_spansFrom [] pieces
  inText span member := by
    have isIn := isIn_of_mem_spansFrom separated member
    exact isIn
  skipped offset inside notHeld := by
    obtain ⟨before, piece, after, rfl, above, below⟩ := exists_piece_at offset inside
    rcases piece.spelledBy_tokens with none | whole
    · exact skipped_of_noTokens separated none above below
    · -- the spans of a piece with tokens leave no gap in it
      rw [← whole (Position.start.after (spellingOf before))] at below
      obtain ⟨span, own, holds⟩ := exists_holds_of_lineUp above below
      have member : span ∈ spansFrom [] (before ++ piece :: after) := by
        rw [spansFrom_append]
        exact List.mem_append_right _ (List.mem_append_left _ own)
      exact absurd holds (notHeld span member)

theorem Scanned.spansOf_ofText (text : String) :
    SpansOf text.toList (ofText text).tokens (spansFrom [] (Piece.ofText text.toList)) := by
  have spelled := Piece.spelling_ofText text.toList
  have spans := spansOf_spansFrom (Piece.separated_ofText text.toList)
  rw [spelled] at spans
  rw [ofText, Placed.position_ofPieces, spelled]
  simp only [Placed.pieces_ofPieces]
  exact spans

theorem Span.IsIn.stop_le {text : List Char} {span : Span} (isIn : span.IsIn text) :
    span.stop ≤ text.length := by
  have spelled := congrArg List.length isIn.spelled
  have nonempty := isIn.nonempty
  have length : span.stop = span.start + span.token.spelling.toList.length := rfl
  rw [List.extract_eq_take_drop, List.length_take, List.length_drop] at spelled
  omega

/-- The tokens of a text, the end of the text with them, are at later and later places. -/
theorem SpansOf.pairwise_before {text : List Char} {tokens : List Token} {spans : List Span}
    (spansOf : SpansOf text tokens spans) :
    (tokens.map Token.position).Pairwise Position.Before := by
  rw [spansOf.tokens, List.map_append, List.map_map]
  refine List.pairwise_append.mpr ⟨?_, List.pairwise_singleton _ _, ?_⟩
  · rw [List.pairwise_map]
    refine spansOf.ordered.imp_of_mem fun {a b} isFirst isSecond ordered => ?_
    have first := spansOf.inText a isFirst
    have second := spansOf.inText b isSecond
    have earlier : a.start < b.start := Nat.lt_of_lt_of_le first.nonempty ordered
    have inText := Nat.le_trans (Nat.le_of_lt second.nonempty) second.stop_le
    rw [Function.comp_apply, Function.comp_apply, first.placed, second.placed]
    exact placeAt_before earlier inText
  · intro position given last isLast
    obtain ⟨span, member, rfl⟩ := List.mem_map.mp given
    have isIn := spansOf.inText span member
    rw [List.mem_singleton.mp isLast, Function.comp_apply, isIn.placed]
    exact placeAt_before (Nat.lt_of_lt_of_le isIn.nonempty isIn.stop_le) (Nat.le_refl _)

/-- No two tokens of a text are at one place. -/
theorem Scanned.nodup_positions_ofText (text : String) :
    ((ofText text).tokens.map Token.position).Nodup :=
  nodup_of_pairwise_before (spansOf_ofText text).pairwise_before

/-- The tokens of a text have spans that hold their spellings, one behind the other, and everything
    else is blank or in a comment. In a text of fewer than 2 ^ 32 - 1 characters the line and the
    column of every place are below 2 ^ 32. -/
theorem Scanned.exists_spansOf (text : String) (short : text.length < UInt32.size - 1) :
    (∃ spans, SpansOf text.toList (Scanned.ofText text).tokens spans) ∧
      ∀ offset, Position.start.after (text.toList.take offset) = placeAt text.toList offset ∧
        (placeAt text.toList offset).line < UInt32.size ∧
        (placeAt text.toList offset).column < UInt32.size := by
  constructor
  · exact ⟨_, Scanned.spansOf_ofText text⟩
  · intro offset
    exact ⟨after_take_eq_placeAt _ _, placeAt_lt short offset⟩

/-- Comments of both kinds, a literal over two lines and characters that no token begins with. -/
theorem Scanned.exists_spansOf_two_lines :
    let text := "* note; Data a /* b */;\n infile 'it''s\nc' §§=1;"
    text.length < UInt32.size - 1 ∧
      (∃ spans, SpansOf text.toList (Scanned.ofText text).tokens spans) ∧
      ∀ offset, Position.start.after (text.toList.take offset) = placeAt text.toList offset ∧
        (placeAt text.toList offset).line < UInt32.size ∧
        (placeAt text.toList offset).column < UInt32.size :=
  ⟨by decide, Scanned.exists_spansOf _ (by decide)⟩

end DatasetLineage
