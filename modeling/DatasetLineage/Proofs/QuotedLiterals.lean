/-
Module: DatasetLineage.Proofs.QuotedLiterals
Purpose: Literals and their values. A value between delimiters, with each delimiter in it written
  twice, is scanned as one token of that value, wherever the text in front ends outside of comments
  and literals and neither side goes on with the delimiter. Conversely the token of a literal is
  spelled like this in every text. Only the last one may lack its end, which is what the one
  diagnostic about literals tells.
Main exports: quotedText, openQuotedText, Scanned.EndsOutside, Scanned.ofText_quotedText,
  Scanned.DecodesLiteral, Scanned.EncodesLiterals, Scanned.literals_ofText
-/
import DatasetLineage.Proofs.DistinctWarnings
import DatasetLineage.Proofs.LineageProvenance
import DatasetLineage.Proofs.TextBoundaries

namespace DatasetLineage

open Text

/-- A value between delimiters, each delimiter in it written twice. -/
def quotedText (delimiter : Char) (value : String) : String :=
  String.ofList (delimiter :: doubled delimiter value.toList ++ [delimiter])

/-- The same without the delimiter at the end. -/
def openQuotedText (delimiter : Char) (value : String) : String :=
  String.ofList (delimiter :: doubled delimiter value.toList)

/-- Whether a problem is that a literal is not closed. -/
def Problem.isOpenLiteral : Problem → Bool
  | unterminatedString _ => true
  | _ => false

namespace Scanned

/-- Whether the scan of a text ends outside of comments and literals. -/
def EndsOutside (text : String) : Prop :=
  ∀ piece ∈ (Piece.ofText text.toList).getLast?, piece.IsClosed

instance (text : String) : Decidable (EndsOutside text) :=
  inferInstanceAs (Decidable (∀ piece ∈ (Piece.ofText text.toList).getLast?, piece.IsClosed))

/-- How a quoted value between other text is scanned.
    - `tokens`, `diagnostics`: it is one token of that value, between what the text in front gives
      alone and what the text behind gives inside of a statement.
    - `silent`: no diagnostic is at a place in it. -/
structure DecodesLiteral (front : String) (delimiter : Char) (value behind : String) : Prop where
  tokens : (ofText (front ++ quotedText delimiter value ++ behind)).tokens =
    (ofText front).tokens.dropLast ++
      ⟨.string value, quotedText delimiter value, Position.start.after front.toList⟩ ::
        ((scannedFrom (Position.start.after (front ++ quotedText delimiter value).toList)
            (Piece.ofTextBehind false behind.toList)).1 ++
          [Token.endAt
            (Position.start.after (front ++ quotedText delimiter value ++ behind).toList)])
  diagnostics : (ofText (front ++ quotedText delimiter value ++ behind)).diagnostics =
    (ofText front).diagnostics ++
      (scannedFrom (Position.start.after (front ++ quotedText delimiter value).toList)
        (Piece.ofTextBehind false behind.toList)).2
  silent : ∀ diagnostic ∈ (ofText (front ++ quotedText delimiter value ++ behind)).diagnostics,
    diagnostic.position.Before (Position.start.after front.toList) ∨
      ¬ diagnostic.position.Before
        (Position.start.after (front ++ quotedText delimiter value).toList)

/-- How the tokens of literals are spelled in a text.
    - `stands`: the spelling is the part of the text that begins at the place of the token.
    - `spelled`: it is the quoted value, but the last token may lack the delimiter at its end.
    - `open_iff`: it lacks that delimiter if a literal is reported there, and only then.
    - `once`: no two literals are reported. -/
structure EncodesLiterals (text : String) : Prop where
  stands : ∀ token ∈ (ofText text).tokens, ∀ value, token.kind = .string value →
    ∃ front behind, text = front ++ token.spelling ++ behind ∧
      token.position = Position.start.after front.toList
  spelled : ∀ token ∈ (ofText text).tokens, ∀ value, token.kind = .string value →
    ∃ delimiter, IsDelimiter delimiter ∧
      (token.spelling = quotedText delimiter value ∨
        token.spelling = openQuotedText delimiter value ∧
          (ofText text).tokens.dropLast.getLast? = some token)
  open_iff : ∀ place delimiter,
    ⟨place, .unterminatedString delimiter⟩ ∈ (ofText text).diagnostics ↔
      ∃ value, (ofText text).tokens.dropLast.getLast? =
        some ⟨.string value, openQuotedText delimiter value, place⟩
  once : ((ofText text).diagnostics.filter (·.problem.isOpenLiteral)).length ≤ 1

end Scanned

namespace Scanned

/-! ### Values of written literals -/

section Decoding

variable {front value behind : String} {delimiter : Char}

theorem spelling_quoted (delimiter : Char) (value : String) :
    (Piece.quoted delimiter value.toList true).spelling = (quotedText delimiter value).toList := by
  simp [Piece.spelling, quotedText]

/-- A quoted value is one piece, and the text behind it is cut alone. -/
theorem ofText_quotedText (isDelimiter : IsDelimiter delimiter) (outside : EndsOutside front)
    (notBefore : delimiter ∉ front.toList.getLast?)
    (notBehind : delimiter ∉ behind.toList.head?) :
    Piece.ofText (front ++ quotedText delimiter value ++ behind).toList =
      Piece.ofText front.toList ++
        .quoted delimiter value.toList true :: Piece.ofTextBehind false behind.toList := by
  have fits : (Piece.quoted delimiter value.toList true).Fits
      (opensBehind true (Piece.ofText front.toList)) behind.toList := ⟨isDelimiter, notBehind⟩
  have ends : ∀ c ∈ ((quotedText delimiter value).toList ++ behind.toList).head?,
      EndsPieces c ∧ (IsDelimiter c → c ∉ front.toList.getLast?) := by
    intro c isFirst
    have same : c = delimiter := by simpa [quotedText, eq_comm] using isFirst
    subst same
    exact ⟨isDelimiter.endsPieces, fun _ => notBefore⟩
  rw [String.toList_append, String.toList_append, List.append_assoc,
    Piece.ofText_append_of_endsPieces outside ends, ← spelling_quoted,
    Piece.ofTextBehind_spelling fits]
  rfl

/-- Diagnostics of pieces are at places from the first piece up to the place behind the last. -/
theorem places_scannedFrom {place : Position} {pieces : List Piece} {diagnostic : Diagnostic}
    (nonempty : ∀ piece ∈ pieces, piece.spelling ≠ [])
    (member : diagnostic ∈ (scannedFrom place pieces).2) :
    (diagnostic.position = place ∨ place.Before diagnostic.position) ∧
      diagnostic.position.Before (place.after (spellingOf pieces)) := by
  obtain ⟨⟨place', piece⟩, placed, ofPiece⟩ := List.mem_flatMap.mp member
  have same : diagnostic.position = place' := (Piece.mem_diagnostics ofPiece).1
  subst same
  refine ⟨(pairwise_places_placedFrom place nonempty).2 _ (List.mem_map_of_mem placed), ?_⟩
  obtain ⟨front, back, rfl, here⟩ := exists_front_of_mem_placedFrom placed
  have moves : piece.spelling ++ spellingOf back ≠ [] :=
    List.append_ne_nil_of_left_ne_nil (nonempty piece (by simp)) _
  rw [here, spellingOf_append, spellingOf_cons, Position.after_append]
  exact Position.before_after moves

/-- A quoted value is scanned as its value, and the text in front as if it were alone. -/
theorem decodesLiteral (isDelimiter : IsDelimiter delimiter) (outside : EndsOutside front)
    (notBefore : delimiter ∉ front.toList.getLast?)
    (notBehind : delimiter ∉ behind.toList.head?) :
    DecodesLiteral front delimiter value behind := by
  have cut : Piece.ofText (front ++ quotedText delimiter value ++ behind).toList = _ :=
    ofText_quotedText isDelimiter outside notBefore notBehind
  have place : (Position.start.after front.toList).after
      (Piece.quoted delimiter value.toList true).spelling =
        Position.start.after (front ++ quotedText delimiter value).toList := by
    rw [spelling_quoted, String.toList_append, Position.after_append]
  have token : (Piece.quoted delimiter value.toList true).tokens
      (Position.start.after front.toList) =
        [⟨.string value, quotedText delimiter value, Position.start.after front.toList⟩] := by
    rw [Piece.tokens, spelling_quoted, String.ofList_toList, String.ofList_toList]
  have scanned : scannedFrom .start
      (Piece.ofText (front ++ quotedText delimiter value ++ behind).toList) =
        ((scannedFrom .start (Piece.ofText front.toList)).1 ++
          ⟨.string value, quotedText delimiter value, Position.start.after front.toList⟩ ::
            (scannedFrom (Position.start.after (front ++ quotedText delimiter value).toList)
              (Piece.ofTextBehind false behind.toList)).1,
          (scannedFrom .start (Piece.ofText front.toList)).2 ++
            (scannedFrom (Position.start.after (front ++ quotedText delimiter value).toList)
              (Piece.ofTextBehind false behind.toList)).2) := by
    rw [cut, scannedFrom_append, Piece.spelling_ofText, ← place]
    simp [scannedFrom, placedFrom, token, Piece.diagnostics]
  have diagnostics : (ofText (front ++ quotedText delimiter value ++ behind)).diagnostics =
      (ofText front).diagnostics ++
        (scannedFrom (Position.start.after (front ++ quotedText delimiter value).toList)
          (Piece.ofTextBehind false behind.toList)).2 := by
    rw [ofText_eq, scanned, ofText_eq]
  refine ⟨?_, diagnostics, ?_⟩
  · rw [ofText_eq, scanned, ofText_eq, List.dropLast_concat]
    simp
  · have nonempty : ∀ piece ∈ Piece.ofTextBehind false behind.toList, piece.spelling ≠ [] := by
      intro piece member
      apply Piece.spelling_ne_nil_of_mem
      rw [cut]
      exact List.mem_append_right _ (List.mem_cons_of_mem _ member)
    intro diagnostic member
    rw [diagnostics, List.mem_append] at member
    rcases member with inFront | inBehind
    · left
      rw [ofText_eq] at inFront
      have earlier := (places_scannedFrom (fun _ => Piece.spelling_ne_nil_of_mem) inFront).2
      rwa [Piece.spelling_ofText] at earlier
    · right
      intro before
      rcases (places_scannedFrom nonempty inBehind).1 with same | later
      · rw [same] at before
        exact Position.not_before_self _ before
      · exact Position.not_before_self _ (before.trans later)

end Decoding

/-! ### Writing of found literals -/

section Encoding

variable {text : String}

/-- A literal that is not closed is the last piece of its text. -/
theorem getLast?_of_open {delimiter : Char} {value : List Char} {before after : List Piece}
    (cut : Piece.ofText text.toList = before ++ .quoted delimiter value false :: after) :
    after = [] := by
  have separated := Piece.separated_ofText text.toList
  rw [cut] at separated
  obtain ⟨⟨_, noMore⟩, behind⟩ := separated.of_append
  cases after with
  | nil =>
      rfl
  | cons piece after =>
      rw [spellingOf_cons] at noMore
      exact absurd (List.append_eq_nil_iff.mp noMore).1 behind.1.spelling_ne_nil

/-- The tokens of a text whose last piece is a literal that is not closed. -/
theorem getLast?_tokens_of_open {delimiter : Char} {value : List Char} {before : List Piece}
    (cut : Piece.ofText text.toList = before ++ [.quoted delimiter value false]) :
    (ofText text).tokens.dropLast.getLast? =
      some ⟨.string (String.ofList value), openQuotedText delimiter (String.ofList value),
        Position.start.after (spellingOf before)⟩ := by
  rw [ofText_eq, List.dropLast_concat, cut, scannedFrom_append]
  simp [scannedFrom, placedFrom, Piece.tokens, Piece.spelling, openQuotedText]

/-- The spelling of a literal is the part of the text that its piece spells. -/
theorem stands_literal (text : String) : ∀ token ∈ (ofText text).tokens, ∀ value,
    token.kind = .string value → ∃ front behind, text = front ++ token.spelling ++ behind ∧
      token.position = Position.start.after front.toList := by
  intro token member value isString
  rcases mem_tokens_ofText.mp member with ⟨place, piece, placed, ofPiece⟩ | rfl
  · obtain ⟨delimiter, characters, closed, rfl, rfl, rfl⟩ :=
      Piece.exists_quoted_of_isString ofPiece isString
    obtain ⟨before, after, cut, here⟩ := exists_front_of_mem_placedFrom placed
    have whole := Piece.spelling_ofText text.toList
    rw [cut, spellingOf_append, spellingOf_cons, ← List.append_assoc] at whole
    rw [List.mem_singleton.mp ofPiece, here]
    refine ⟨String.ofList (spellingOf before), String.ofList (spellingOf after), ?_, ?_⟩
    · rw [← String.toList_inj]
      simp [← whole]
    · rw [String.toList_ofList]
  · cases isString

/-- The token of a literal is spelled as its quoted value, or is the last one and lacks its end. -/
theorem spelled_literal (text : String) : ∀ token ∈ (ofText text).tokens, ∀ value,
    token.kind = .string value → ∃ delimiter, IsDelimiter delimiter ∧
      (token.spelling = quotedText delimiter value ∨
        token.spelling = openQuotedText delimiter value ∧
          (ofText text).tokens.dropLast.getLast? = some token) := by
  intro token member value isString
  rcases mem_tokens_ofText.mp member with ⟨place, piece, placed, ofPiece⟩ | rfl
  · obtain ⟨delimiter, characters, closed, rfl, rfl, rfl⟩ :=
      Piece.exists_quoted_of_isString ofPiece isString
    obtain ⟨before, after, cut, here⟩ := exists_front_of_mem_placedFrom placed
    have isToken := List.mem_singleton.mp ofPiece
    have separated := Piece.separated_ofText text.toList
    rw [cut] at separated
    refine ⟨delimiter, separated.of_append.1.1, ?_⟩
    cases closed with
    | true =>
        left
        rw [isToken]
        simp [Piece.spelling, quotedText]
    | false =>
        right
        have last := getLast?_of_open cut
        subst last
        rw [getLast?_tokens_of_open cut, isToken, ← here]
        simp [Piece.spelling, openQuotedText]
  · cases isString

theorem exists_quoted_of_mem_diagnostics {place place' : Position} {piece : Piece}
    {delimiter : Char}
    (member : ⟨place, .unterminatedString delimiter⟩ ∈ piece.diagnostics place') :
    place = place' ∧ ∃ value, piece = .quoted delimiter value false := by
  unfold Piece.diagnostics at member
  split at member
  · cases List.mem_singleton.mp member
  · cases List.mem_singleton.mp member
    exact ⟨rfl, _, rfl⟩
  · cases List.mem_singleton.mp member
  · exact absurd member List.not_mem_nil

/-- The spelling of a literal tells its delimiter and whether it is closed, given its value. -/
theorem eq_of_spelling_quoted {delimiter delimiter' : Char} {value : List Char} {closed : Bool}
    (same : (Piece.quoted delimiter value closed).spelling =
      delimiter' :: doubled delimiter' value) : delimiter = delimiter' ∧ closed = false := by
  obtain ⟨rfl, tail⟩ := List.cons.inj same
  refine ⟨rfl, ?_⟩
  -- one more delimiter would make the spelling longer, whatever the value is
  cases closed with
  | true =>
      exact absurd (List.append_right_eq_self.mp tail) (List.cons_ne_nil _ _)
  | false =>
      rfl

/-- A literal is reported if it is the last token and lacks its end, and only then. -/
theorem mem_diagnostics_iff_open (place : Position) (delimiter : Char) :
    ⟨place, .unterminatedString delimiter⟩ ∈ (ofText text).diagnostics ↔
      ∃ value, (ofText text).tokens.dropLast.getLast? =
        some ⟨.string value, openQuotedText delimiter value, place⟩ := by
  constructor
  · intro member
    obtain ⟨place', piece, placed, ofPiece⟩ := mem_diagnostics_ofText.mp member
    obtain ⟨rfl, value, rfl⟩ := exists_quoted_of_mem_diagnostics ofPiece
    obtain ⟨before, after, cut, here⟩ := exists_front_of_mem_placedFrom placed
    have last := getLast?_of_open cut
    subst last
    exact ⟨String.ofList value, here ▸ getLast?_tokens_of_open cut⟩
  · rintro ⟨value, last⟩
    have member := (List.dropLast_sublist _).subset (List.mem_of_getLast? last)
    rcases mem_tokens_ofText.mp member with ⟨place', piece, placed, ofPiece⟩ | isEnd
    · obtain ⟨delimiter', characters, closed, rfl, rfl, rfl⟩ :=
        Piece.exists_quoted_of_isString ofPiece rfl
      have spelling := congrArg Token.spelling (List.mem_singleton.mp ofPiece)
      have same : (Piece.quoted delimiter' characters closed).spelling =
          delimiter :: doubled delimiter characters := by
        simpa [openQuotedText, eq_comm] using congrArg String.toList spelling
      obtain ⟨rfl, rfl⟩ := eq_of_spelling_quoted same
      exact mem_diagnostics_ofText.mpr ⟨_, _, placed, List.mem_singleton_self _⟩
    · cases congrArg Token.kind isEnd

/-- No two literals are reported, because both would be at the last token. -/
theorem length_openLiterals_le (text : String) :
    ((ofText text).diagnostics.filter (·.problem.isOpenLiteral)).length ≤ 1 := by
  have places : (((ofText text).diagnostics.filter (·.problem.isOpenLiteral)).map
      Diagnostic.position).Nodup :=
    (nodup_places_diagnostics text).sublist (List.filter_sublist.map _)
  have atLast : ∀ diagnostic ∈ (ofText text).diagnostics.filter (·.problem.isOpenLiteral),
      (ofText text).tokens.dropLast.getLast?.map Token.position = some diagnostic.position := by
    intro diagnostic member
    obtain ⟨given, isOpen⟩ := List.mem_filter.mp member
    obtain ⟨place, problem⟩ := diagnostic
    cases problem with
    | unterminatedString delimiter =>
        obtain ⟨value, last⟩ := (mem_diagnostics_iff_open place delimiter).mp given
        rw [last]
        rfl
    | _ =>
        cases isOpen
  cases opens : (ofText text).diagnostics.filter (·.problem.isOpenLiteral) with
  | nil =>
      exact Nat.zero_le 1
  | cons first rest =>
      cases rest with
      | nil =>
          exact Nat.le_refl 1
      | cons second rest =>
          rw [opens] at places atLast
          have same := (atLast first (by simp)).symm.trans (atLast second (by simp))
          rw [List.map_cons, List.map_cons, Option.some.inj same] at places
          exact absurd List.mem_cons_self (List.nodup_cons.mp places).1

theorem encodesLiterals (text : String) : EncodesLiterals text where
  stands := stands_literal text
  spelled := spelled_literal text
  open_iff := mem_diagnostics_iff_open
  once := length_openLiterals_le text

end Encoding

/-- A quoted value is scanned as its value, and each literal of a text stands there as its value
    quoted, with the last one perhaps not closed. -/
theorem literals_ofText :
    (∀ (front : String) (delimiter : Char) (value behind : String), IsDelimiter delimiter →
      EndsOutside front → delimiter ∉ front.toList.getLast? →
        delimiter ∉ behind.toList.head? → DecodesLiteral front delimiter value behind) ∧
      ∀ text, EncodesLiterals text :=
  ⟨fun _ _ _ _ isDelimiter outside notBefore notBehind =>
    decodesLiteral isDelimiter outside notBefore notBehind, encodesLiterals⟩

/-- A value with both delimiters, an end of line and the beginnings of comments, behind a comment
    with a delimiter and a literal of the other kind. -/
theorem literals_ofText_two_lines :
    let front := "/* it's */ x=\"y\""
    let value := "'a''\"\n;*/*"
    let behind := "\"b';"
    IsDelimiter apostrophe ∧ EndsOutside front ∧ apostrophe ∉ front.toList.getLast? ∧
      apostrophe ∉ behind.toList.head? ∧ DecodesLiteral front apostrophe value behind ∧
      EncodesLiterals (front ++ quotedText apostrophe value ++ behind) := by
  intro front value behind
  have outside : EndsOutside front := by decide +kernel
  have notBefore : apostrophe ∉ front.toList.getLast? := by decide +kernel
  have notBehind : apostrophe ∉ behind.toList.head? := by decide +kernel
  exact ⟨.inl rfl, outside, notBefore, notBehind,
    literals_ofText.1 front apostrophe value behind (.inl rfl) outside notBefore notBehind,
    literals_ofText.2 _⟩

end Scanned

end DatasetLineage
