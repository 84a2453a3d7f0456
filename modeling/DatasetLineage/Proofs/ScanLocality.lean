/-
Module: DatasetLineage.Proofs.ScanLocality
Purpose: A text that ends in a semicolon is scanned alone. Where its last character is a token of
  its own, nothing has been begun and a statement begins, so whatever stands behind it is cut into
  the pieces that it has as a text by itself. Only places tell of the text in front: lines go on
  from it, and the columns of the first line do.
Main exports: Position.behind, Token.behind, Diagnostic.behind, Scanned.EndsInSemicolon,
  Scanned.exists_ofText_of_endsInSemicolon, Scanned.ofText_append_of_endsInSemicolon
-/
import DatasetLineage.Proofs.TextBoundaries

namespace DatasetLineage

open Text

/-- A place of a text as it is when `front` stands in front of the text: its line is raised by the
    line feeds of `front`, and on the first line its column by the characters behind the last of
    them. -/
def Position.behind (front : List Char) (place : Position) : Position :=
  ⟨place.line + front.count '\n',
    if place.line = 1 then place.column + (front.reverse.takeWhile (· ≠ '\n')).length
    else place.column⟩

/-- A token as it is when `front` stands in front of its text. -/
def Token.behind (front : List Char) (token : Token) : Token :=
  { token with position := token.position.behind front }

/-- A diagnostic as it is when `front` stands in front of its text. -/
def Diagnostic.behind (front : List Char) (diagnostic : Diagnostic) : Diagnostic :=
  { diagnostic with position := diagnostic.position.behind front }

/-! ### Places behind a front -/

section Places

variable {place : Position}

theorem Position.start_behind (front : List Char) :
    Position.start.behind front = Position.start.after front := by
  rw [after_start_eq_placeAt front [], placeAt, List.take_left]
  rfl

/-- Moving on by a character is the same with other text in front. -/
theorem Position.next_behind (counted : 0 < place.line) (front : List Char) (c : Char) :
    (place.behind front).next c = (place.next c).behind front := by
  by_cases lineFeed : c = '\n'
  · have notFirst : place.line + 1 ≠ 1 := by omega
    simp only [behind, next, if_pos lineFeed, if_neg notFirst]
    rw [Nat.add_right_comm]
  · by_cases first : place.line = 1
    · simp only [behind, next, if_neg lineFeed, if_pos first]
      rw [Nat.add_right_comm]
    · simp only [behind, next, if_neg lineFeed, if_neg first]

theorem Position.line_le_next (place : Position) (c : Char) : place.line ≤ (place.next c).line := by
  unfold next
  split
  · exact Nat.le_succ _
  · exact Nat.le_refl _

theorem Position.line_le_after (place : Position) (text : List Char) :
    place.line ≤ (place.after text).line := by
  induction text generalizing place with
  | nil =>
      exact Nat.le_refl _
  | cons c rest ih =>
      exact Nat.le_trans (place.line_le_next c) (ih (place.next c))

/-- Moving on over a stretch of text is the same with other text in front. -/
theorem Position.after_behind (counted : 0 < place.line) (front text : List Char) :
    (place.behind front).after text = (place.after text).behind front := by
  induction text generalizing place with
  | nil =>
      rfl
  | cons c rest ih =>
      rw [after_cons, after_cons, next_behind counted]
      exact ih (Nat.lt_of_lt_of_le counted (place.line_le_next c))

theorem markTokens_behind (counted : 0 < place.line) (front characters : List Char) :
    markTokens (place.behind front) characters =
      (markTokens place characters).map (Token.behind front) := by
  induction characters generalizing place with
  | nil =>
      rfl
  | cons c rest ih =>
      rw [markTokens, markTokens, List.map_cons, Position.next_behind counted,
        ih (Nat.lt_of_lt_of_le counted (place.line_le_next c))]
      rfl

theorem Piece.tokens_behind (counted : 0 < place.line) (front : List Char) (piece : Piece) :
    piece.tokens (place.behind front) = (piece.tokens place).map (Token.behind front) := by
  cases piece with
  | mark c =>
      exact markTokens_behind counted front [c]
  | strange first more =>
      exact markTokens_behind counted front (first :: more)
  | _ =>
      rfl

theorem Piece.diagnostics_behind (front : List Char) (piece : Piece) :
    piece.diagnostics (place.behind front) =
      (piece.diagnostics place).map (Diagnostic.behind front) := by
  cases piece with
  | blockComment body closed =>
      cases closed <;> rfl
  | quoted delimiter value closed =>
      cases closed <;> rfl
  | _ =>
      rfl

/-- With other text in front, pieces have the same tokens and diagnostics at other places. -/
theorem scannedFrom_behind (counted : 0 < place.line) (front : List Char) (pieces : List Piece) :
    scannedFrom (place.behind front) pieces =
      ((scannedFrom place pieces).1.map (Token.behind front),
        (scannedFrom place pieces).2.map (Diagnostic.behind front)) := by
  induction pieces generalizing place with
  | nil =>
      rfl
  | cons piece rest ih =>
      have later := ih (Nat.lt_of_lt_of_le counted (place.line_le_after piece.spelling))
      rw [← Position.after_behind counted, scannedFrom, scannedFrom, Prod.mk.injEq] at later
      simp only [scannedFrom, placedFrom, List.flatMap_cons, List.map_append, later.1, later.2,
        piece.tokens_behind counted, piece.diagnostics_behind]

end Places

theorem placedFrom_append (place : Position) (pieces behind : List Piece) :
    placedFrom place (pieces ++ behind) =
      placedFrom place pieces ++ placedFrom (place.after (spellingOf pieces)) behind := by
  induction pieces generalizing place with
  | nil =>
      rfl
  | cons piece rest ih =>
      rw [List.cons_append, placedFrom, placedFrom, ih, spellingOf_cons, Position.after_append,
        List.cons_append]

theorem scannedFrom_append (place : Position) (pieces behind : List Piece) :
    scannedFrom place (pieces ++ behind) =
      ((scannedFrom place pieces).1 ++ (scannedFrom (place.after (spellingOf pieces)) behind).1,
        (scannedFrom place pieces).2 ++
          (scannedFrom (place.after (spellingOf pieces)) behind).2) := by
  simp only [scannedFrom, placedFrom_append, List.flatMap_append]

/-- Whether the last character of a text is scanned as a semicolon. -/
def Scanned.EndsInSemicolon (text : String) : Prop :=
  ∃ token ∈ (ofText text).tokens,
    token.isMark ';' = true ∧ token.position = placeAt text.toList (text.toList.length - 1)

instance (text : String) : Decidable (Scanned.EndsInSemicolon text) :=
  inferInstanceAs (Decidable (∃ token ∈ (Scanned.ofText text).tokens,
    token.isMark ';' = true ∧ token.position = placeAt text.toList (text.toList.length - 1)))

/-! ### Texts that end in a semicolon -/

section Ends

variable {text : List Char} {statementStart : Bool} {rest : List Char} {piece : Piece}
variable {place : Position} {token : Token}

theorem eq_of_placeAt_eq {i j : Nat} (same : placeAt text i = placeAt text j)
    (inText : i ≤ text.length) (inText' : j ≤ text.length) : i = j := by
  have apart : ∀ {i j : Nat}, i < j → j ≤ text.length → placeAt text i ≠ placeAt text j := by
    intro i j earlier inText same
    have before := placeAt_before earlier inText
    rw [same] at before
    unfold Position.Before at before
    omega
  rcases Nat.lt_trichotomy i j with earlier | equal | later
  · exact absurd same (apart earlier inText')
  · exact equal
  · exact absurd same.symm (apart later inText)

/-- Only the mark makes a semicolon. -/
theorem Piece.Fits.eq_mark_of_isMark (fits : piece.Fits statementStart rest)
    (member : token ∈ piece.tokens place) (semicolon : token.isMark ';' = true) :
    piece = .mark ';' := by
  have kind : token.kind = .mark ';' := by simpa [Token.isMark] using semicolon
  cases piece with
  | blank c =>
      exact absurd member List.not_mem_nil
  | blockComment body closed =>
      exact absurd member List.not_mem_nil
  | starComment body closed =>
      exact absurd member List.not_mem_nil
  | quoted delimiter value closed =>
      rw [List.mem_singleton.mp member] at kind
      cases kind
  | word spelling =>
      rw [List.mem_singleton.mp member] at kind
      exact absurd kind (wordKind_ne_mark spelling ';')
  | number spelling =>
      rw [List.mem_singleton.mp member] at kind
      cases kind
  | mark c =>
      obtain ⟨d, isMark, kind'⟩ := exists_kind_of_mem_markTokens member
      rw [List.mem_singleton.mp isMark, kind, TokenKind.mark.injEq] at kind'
      rw [kind']
  | strange first more =>
      obtain ⟨c, inRun, kind'⟩ := exists_kind_of_mem_markTokens member
      rw [kind, TokenKind.mark.injEq] at kind'
      exact absurd kind'.symm (fits.ne_semicolon c inRun)

theorem Piece.Fits.spelling_ne_nil (fits : piece.Fits statementStart rest) :
    piece.spelling ≠ [] := by
  cases piece with
  | word spelling =>
      obtain ⟨first, tail, shape, _⟩ := fits
      rcases shape with rfl | rfl <;> exact List.cons_ne_nil _ _
  | number spelling =>
      obtain ⟨first, tail, rfl, _⟩ := fits
      exact List.cons_ne_nil _ _
  | _ =>
      exact List.cons_ne_nil _ _

/-- Every piece of a text has characters. -/
theorem Piece.spelling_ne_nil_of_mem {text : List Char} {piece : Piece}
    (member : piece ∈ Piece.ofText text) : piece.spelling ≠ [] := by
  obtain ⟨_, _, fits⟩ := (Piece.separated_ofText text).exists_fits member
  exact fits.spelling_ne_nil

end Ends

/-- If the last character of a text is scanned as a semicolon, it is the last piece. -/
theorem Scanned.exists_ofText_of_endsInSemicolon {text : String} (ends : EndsInSemicolon text) :
    ∃ init, Piece.ofText text.toList = init ++ [.mark ';'] := by
  obtain ⟨token, member, semicolon, placed⟩ := ends
  have spans := spansOf_ofText text
  rw [spans.tokens] at member
  rcases List.mem_append.mp member with given | isEnd
  · obtain ⟨span, inSpans, rfl⟩ := List.mem_map.mp given
    have isIn := spans.inText span inSpans
    have nonempty := isIn.nonempty
    have stops := isIn.stop_le
    have begins : span.start = text.toList.length - 1 :=
      eq_of_placeAt_eq (isIn.placed.symm.trans placed) (by omega) (by omega)
    rcases List.eq_nil_or_concat' (Piece.ofText text.toList) with none | ⟨init, last, cut⟩
    · rw [none] at inSpans
      exact absurd inSpans List.not_mem_nil
    · have separated := Piece.separated_ofText text.toList
      have spelled := congrArg List.length (Piece.spelling_ofText text.toList)
      rw [cut] at separated inSpans
      have fits := separated.of_append.1
      have lastNonempty := List.length_pos_iff.mpr fits.spelling_ne_nil
      rw [cut, spellingOf_append, List.length_append, spellingOf_cons, spellingOf_nil,
        List.append_nil] at spelled
      rw [spansFrom_append] at inSpans
      rcases List.mem_append.mp inSpans with inFront | inLast
      · -- the spans in front stop where the last piece begins
        have bounds := (bounds_of_mem_spansFrom inFront).2
        rw [List.length_nil] at bounds
        omega
      · rw [spansFrom, spansFrom, List.append_nil] at inLast
        have own := List.mem_map_of_mem (f := Span.token) inLast
        rw [map_token_lineUp] at own
        exact ⟨init, by rw [cut, fits.eq_mark_of_isMark own semicolon]⟩
  · rw [List.mem_singleton.mp isEnd] at semicolon
    exact absurd semicolon Bool.false_ne_true

/-- What stands behind a text that ends in a semicolon is scanned as if it stood alone, apart from
    its places. -/
theorem Scanned.ofText_append_of_endsInSemicolon (front text : String)
    (ends : EndsInSemicolon front) :
    ofText (front ++ text) =
      ⟨(ofText front).tokens.dropLast ++ (ofText text).tokens.map (Token.behind front.toList),
        (ofText front).diagnostics ++
          (ofText text).diagnostics.map (Diagnostic.behind front.toList)⟩ := by
  obtain ⟨init, cut⟩ := exists_ofText_of_endsInSemicolon ends
  have closed : ∀ piece ∈ (Piece.ofText front.toList).getLast?, piece.IsClosed := by
    rw [cut, List.getLast?_concat]
    rintro piece ⟨⟩
    trivial
  have opens : opensBehind true (Piece.ofText front.toList) = true := by
    rw [cut, opensBehind, List.foldl_append]
    rfl
  have pieces := Piece.ofText_append_of_opens text.toList closed opens
  have counted : 0 < Position.start.line := Nat.one_pos
  have behind := scannedFrom_behind counted front.toList (Piece.ofText text.toList)
  have last := Position.after_behind counted front.toList text.toList
  rw [Position.start_behind] at behind last
  rw [ofText_eq, ofText_eq front, ofText_eq text, String.toList_append, pieces,
    scannedFrom_append, Piece.spelling_ofText, behind, Position.after_append, last,
    List.dropLast_concat, List.map_append, List.append_assoc]
  rfl

/-- A literal over two lines in front of a semicolon, and behind it a comment statement, a word that
    is cut alone, and a literal that is not closed. -/
theorem Scanned.ofText_append_two_lines :
    let front := "a.b 'x\ny';"
    let text := "*c;d §\n'e"
    EndsInSemicolon front ∧
      ofText (front ++ text) =
        ⟨(ofText front).tokens.dropLast ++ (ofText text).tokens.map (Token.behind front.toList),
          (ofText front).diagnostics ++
            (ofText text).diagnostics.map (Diagnostic.behind front.toList)⟩ := by
  intro front text
  have ends : EndsInSemicolon front := by decide +kernel
  exact ⟨ends, ofText_append_of_endsInSemicolon front text ends⟩

end DatasetLineage
