/-
Module: DatasetLineage.Proofs.FoldedTokens
Purpose: Scanning and the case of A to Z. The pieces of a text with its letters folded are the
  pieces of the text, folded in what they hold: a piece that fits still does so, and only one
  sequence of pieces that fit spells a text. So tokens are at the same places and of the same
  kinds, and only the letters of names, literals and spellings are folded.
Main exports: Piece.folded, TokenKind.folded, Token.folded, Piece.Fits.folded,
  Piece.ofText_foldAscii, wordKind_foldAscii, Scanned.ofText_foldCase
-/
import DatasetLineage.Proofs.CaseFolding
import DatasetLineage.Proofs.TextBoundaries

namespace DatasetLineage

open Text

/-- A piece with the letters in it folded. Blanks, marks and strange characters have none. -/
def Piece.folded : Piece → Piece
  | blank c => blank c
  | blockComment body closed => blockComment (foldAscii body) closed
  | starComment body closed => starComment (foldAscii body) closed
  | quoted delimiter value closed => quoted delimiter (foldAscii value) closed
  | word spelling => word (foldAscii spelling)
  | number spelling => number (foldAscii spelling)
  | mark c => mark c
  | strange first more => strange first more

/-- A kind of token with the letters of a name or of a literal folded. -/
def TokenKind.folded : TokenKind → TokenKind
  | .keyword name => .keyword name
  | .identifier name => .identifier (foldCase name)
  | .string value => .string (foldCase value)
  | .mark c => .mark c
  | .endOfText => .endOfText

/-- A token with its letters folded. It stays where it is. -/
def Token.folded (token : Token) : Token :=
  ⟨token.kind.folded, foldCase token.spelling, token.position⟩

/-! ### Letters and marks -/

section Letters

theorem isAlphabetic_of_mem_marks {c : Char} (listed : c ∈ marks) : isAlphabetic c = false := by
  have none : (marks.all fun d => !isAlphabetic d) = true := by decide
  simpa using List.all_eq_true.mp none c listed

theorem mem_marks_toLower_iff {c : Char} : c.toLower ∈ marks ↔ c ∈ marks := by
  constructor
  · intro listed
    have notLetter := isAlphabetic_of_mem_marks listed
    rw [isAlphabetic_toLower] at notLetter
    rwa [toLower_of_not_isAlphabetic notLetter] at listed
  · intro listed
    rwa [toLower_of_not_isAlphabetic (isAlphabetic_of_mem_marks listed)]

theorem isAlphabetic_of_isStrange {c : Char} (strange : isStrange c = true) :
    isAlphabetic c = false := by
  cases letter : isAlphabetic c with
  | false =>
      rfl
  | true =>
      simp [isStrange, isAlphanumeric, letter] at strange

theorem isAlphabetic_of_isWordStart {c : Char} (notStart : isWordStart c = false) :
    isAlphabetic c = false :=
  (Bool.or_eq_false_iff.mp notStart).1

theorem IsDelimiter.isAlpha {c : Char} (isDelimiter : IsDelimiter c) : c.isAlpha = false := by
  rcases isDelimiter with rfl | rfl <;> decide

theorem foldAscii_of_isAlphabetic {text : List Char} (none : ∀ c ∈ text, isAlphabetic c = false) :
    foldAscii text = text := by
  have kept : ∀ c ∈ text, c.toLower = c := fun c member =>
    toLower_of_not_isAlphabetic (none c member)
  rw [foldAscii, List.map_congr_left kept, List.map_id']

@[simp] theorem isAlphanumeric_toLower (c : Char) :
    isAlphanumeric c.toLower = isAlphanumeric c := by
  simp [isAlphanumeric]

@[simp] theorem isWordStart_toLower (c : Char) : isWordStart c.toLower = isWordStart c := by
  simp [isWordStart, toLower_beq]

@[simp] theorem isWordTail_toLower (c : Char) : isWordTail c.toLower = isWordTail c := by
  simp [isWordTail, toLower_beq]

@[simp] theorem isNumberTail_toLower (c : Char) : isNumberTail c.toLower = isNumberTail c := by
  simp [isNumberTail, toLower_beq]

@[simp] theorem isStrange_toLower (c : Char) : isStrange c.toLower = isStrange c := by
  simp [isStrange, toLower_beq, mem_marks_toLower_iff, apostrophe, quotationMark]

theorem mem_foldAscii_iff {c : Char} (notLetter : c.isAlpha = false) {text : List Char} :
    c ∈ foldAscii text ↔ c ∈ text := by
  simp [foldAscii, toLower_eq_iff notLetter]

theorem mem_head?_foldAscii_iff {c : Char} (notLetter : c.isAlpha = false) {text : List Char} :
    c ∈ (foldAscii text).head? ↔ c ∈ text.head? := by
  simp [toLower_eq_iff notLetter]

/-- What holds of a first character holds of it folded. -/
theorem forall_head?_foldAscii {p : Char → Bool} (alike : ∀ c : Char, p c.toLower = p c)
    {text : List Char} (first : ∀ c ∈ text.head?, p c = false) :
    ∀ c ∈ (foldAscii text).head?, p c = false := by
  simpa [alike] using first

theorem doubled_foldAscii {delimiter : Char} (isDelimiter : IsDelimiter delimiter)
    (value : List Char) :
    doubled delimiter (foldAscii value) = foldAscii (doubled delimiter value) := by
  have notLetter := isDelimiter.isAlpha
  rw [doubled, doubled, foldAscii, foldAscii, List.flatMap_map, List.map_flatMap]
  congr 1
  funext c
  by_cases same : c = delimiter
  · have kept : delimiter.toLower = delimiter := toLower_of_not_isAlpha notLetter
    simp [same, kept]
  · simp [same, toLower_eq_iff notLetter]

end Letters

/-! ### Words -/

section Words

theorem wordGoesOn_foldAscii (text : List Char) :
    wordGoesOn (foldAscii text) = wordGoesOn text := by
  cases text with
  | nil =>
      rfl
  | cons c rest =>
      simp [wordGoesOn, toLower_beq, Option.any_map]

theorem TakesTail.foldAscii {tail rest : List Char} (takes : TakesTail tail rest) :
    TakesTail (foldAscii tail) (foldAscii rest) := by
  induction tail with
  | nil =>
      exact (wordGoesOn_foldAscii rest).trans takes
  | cons c tail ih =>
      refine ⟨?_, ih takes.2⟩
      have alike := wordGoesOn_foldAscii (c :: (tail ++ rest))
      rw [foldAscii_cons, foldAscii_append] at alike
      exact alike.trans takes.1

theorem IsWordBefore.foldAscii {rest spelling : List Char} (isWord : IsWordBefore rest spelling) :
    IsWordBefore (foldAscii rest) (foldAscii spelling) := by
  obtain ⟨first, tail, shape, starts, takes⟩ := isWord
  refine ⟨first.toLower, Text.foldAscii tail, ?_, ?_, takes.foldAscii⟩
  · rcases shape with rfl | rfl
    · exact .inl rfl
    · exact .inr rfl
  · rw [isWordStart_toLower, starts]

end Words

/-! ### Pieces -/

section Pieces

variable {statementStart : Bool} {rest : List Char} {piece : Piece} {pieces : List Piece}

/-- The end of a comment is not folded. -/
theorem commentEnd_infix_foldAscii {body : List Char}
    (ends : ['*', '/'] <:+: foldAscii body) : ['*', '/'] <:+: body := by
  obtain ⟨front, behind, spelled⟩ := ends
  obtain ⟨front', behind', rfl, spelled, _⟩ := List.map_eq_append_iff.mp spelled.symm
  obtain ⟨front', middle, rfl, _, same⟩ := List.map_eq_append_iff.mp spelled
  obtain ⟨c, later, rfl, star, same⟩ := List.map_eq_cons_iff.mp same
  obtain ⟨d, none, rfl, slash, same⟩ := List.map_eq_cons_iff.mp same
  obtain rfl := List.map_eq_nil_iff.mp same
  rw [toLower_eq_iff (by decide)] at star slash
  exact ⟨front', behind', by rw [star, slash]⟩

/-- No strange character is a letter. -/
theorem Piece.Fits.isAlphabetic_strange {first : Char} {more : List Char}
    (fits : (Piece.strange first more).Fits statementStart rest) :
    ∀ c ∈ first :: more, isAlphabetic c = false := by
  obtain ⟨⟨_, _, _, notStart, _⟩, strange, _⟩ := fits
  rw [List.forall_mem_cons]
  exact ⟨isAlphabetic_of_isWordStart notStart, fun c member =>
    isAlphabetic_of_isStrange (strange c member)⟩

/-- A piece that fits spells folded what it spells, folded. -/
theorem Piece.Fits.spelling_folded (fits : piece.Fits statementStart rest) :
    piece.folded.spelling = foldAscii piece.spelling := by
  cases piece with
  | blank c =>
      have kept : c.toLower = c := toLower_of_not_isAlphabetic (isAlphabetic_of_isBlank fits)
      simp [folded, spelling, kept]
  | blockComment body closed =>
      cases closed <;> simp [folded, spelling]
  | starComment body closed =>
      cases closed <;> simp [folded, spelling]
  | quoted delimiter value closed =>
      have kept : delimiter.toLower = delimiter := toLower_of_not_isAlpha fits.1.isAlpha
      cases closed <;> simp [folded, spelling, kept, doubled_foldAscii fits.1]
  | word spelling =>
      rfl
  | number spelling =>
      rfl
  | mark c =>
      have kept : c.toLower = c := toLower_of_not_isAlphabetic (isAlphabetic_of_mem_marks fits.1)
      simp [folded, spelling, kept]
  | strange first more =>
      exact (foldAscii_of_isAlphabetic fits.isAlphabetic_strange).symm

/-- A piece that fits does so with its letters and those of the text behind it folded. -/
theorem Piece.Fits.folded (fits : piece.Fits statementStart rest) :
    piece.folded.Fits statementStart (foldAscii rest) := by
  cases piece with
  | blank c =>
      exact fits
  | blockComment body closed =>
      obtain ⟨noEnd, ends⟩ := fits
      exact ⟨fun infix' => noEnd (commentEnd_infix_foldAscii infix'),
        ends.imp_right (congrArg foldAscii)⟩
  | starComment body closed =>
      obtain ⟨starts, noEnd, ends⟩ := fits
      rw [← mem_foldAscii_iff (by decide)] at noEnd
      exact ⟨starts, noEnd, ends.imp_right (congrArg foldAscii)⟩
  | quoted delimiter value closed =>
      obtain ⟨isDelimiter, ends⟩ := fits
      refine ⟨isDelimiter, ?_⟩
      cases closed with
      | false =>
          exact congrArg foldAscii ends
      | true =>
          exact fun next => ends ((mem_head?_foldAscii_iff isDelimiter.isAlpha).mp next)
  | word spelling =>
      exact IsWordBefore.foldAscii fits
  | number spelling =>
      obtain ⟨first, tail, rfl, digit, goesOn, ends⟩ := fits
      refine ⟨first.toLower, foldAscii tail, rfl, ?_, ?_, ?_⟩
      · rw [isDigit_toLower, digit]
      · simpa [foldAscii] using goesOn
      · exact forall_head?_foldAscii isNumberTail_toLower ends
  | mark c =>
      obtain ⟨listed, slash, star, ampersand⟩ := fits
      refine ⟨listed, ?_, star, ?_⟩
      · rw [mem_head?_foldAscii_iff (by decide)]
        exact slash
      · exact fun same => forall_head?_foldAscii isWordStart_toLower (ampersand same)
  | strange first more =>
      obtain ⟨begins, strange, ends⟩ := fits
      exact ⟨begins, strange, forall_head?_foldAscii isStrange_toLower ends⟩

theorem Piece.opensStatement_folded (piece : Piece) (before : Bool) :
    piece.folded.opensStatement before = piece.opensStatement before := by
  cases piece <;> rfl

theorem Separated.spellingOf_folded (separated : Separated statementStart pieces) :
    spellingOf (pieces.map Piece.folded) = foldAscii (spellingOf pieces) := by
  induction pieces generalizing statementStart with
  | nil =>
      rfl
  | cons piece rest ih =>
      obtain ⟨fits, later⟩ := separated
      rw [List.map_cons, spellingOf_cons, spellingOf_cons, foldAscii_append, ih later,
        fits.spelling_folded]

theorem Separated.folded (separated : Separated statementStart pieces) :
    Separated statementStart (pieces.map Piece.folded) := by
  induction pieces generalizing statementStart with
  | nil =>
      trivial
  | cons piece rest ih =>
      obtain ⟨fits, later⟩ := separated
      constructor
      · rw [later.spellingOf_folded]
        exact fits.folded
      · rw [piece.opensStatement_folded]
        exact ih later

/-- A folded text is cut where the text is. -/
theorem Piece.ofText_foldAscii (text : List Char) :
    ofText (foldAscii text) = (ofText text).map folded := by
  have separated := separated_ofText text
  have spelled := separated.spellingOf_folded
  rw [spelling_ofText] at spelled
  rw [← spelled, ofText_spellingOf separated.folded]

end Pieces

/-! ### Tokens -/

section Tokens

variable {statementStart : Bool} {rest : List Char} {piece : Piece} {pieces : List Piece}

theorem Position.after_foldAscii (place : Position) (text : List Char) :
    place.after (foldAscii text) = place.after text := by
  induction text generalizing place with
  | nil =>
      rfl
  | cons c rest ih =>
      have lineFeed : c.toLower = '\n' ↔ c = '\n' := toLower_eq_iff (by decide)
      have same : place.next c.toLower = place.next c := by simp only [next, lineFeed]
      rw [foldAscii_cons, after_cons, after_cons, same, ih]

theorem isPlainWord_foldAscii (spelling : List Char) :
    isPlainWord (foldAscii spelling) = isPlainWord spelling := by
  simp only [isPlainWord, foldAscii, List.all_map, Function.comp_def, isAlphanumeric_toLower]
  simp only [toLower_beq (by decide : '_'.isAlpha = false)]

/-- A keyword is one in any case, and a name keeps its letters up to case. -/
theorem wordKind_foldAscii (spelling : List Char) :
    wordKind (foldAscii spelling) = (wordKind spelling).folded := by
  have same : Keyword.ofText? (String.ofList (foldAscii spelling)) =
      Keyword.ofText? (String.ofList spelling) := by
    simp only [← foldCase_ofList, Keyword.ofText?, sameUpToAsciiCase_foldCase]
  rw [wordKind, wordKind, same, isPlainWord_foldAscii, ← foldCase_ofList]
  cases Keyword.ofText? (String.ofList spelling) with
  | none =>
      rfl
  | some keyword =>
      cases isPlainWord spelling <;> rfl

/-- Marks are not folded. -/
theorem folded_markTokens {characters : List Char}
    (none : ∀ c ∈ characters, isAlphabetic c = false) (place : Position) :
    (markTokens place characters).map Token.folded = markTokens place characters := by
  induction characters generalizing place with
  | nil =>
      rfl
  | cons c rest ih =>
      rw [List.forall_mem_cons] at none
      have kept : foldCase c.toString = c.toString := by
        simp [foldCase, toLower_of_not_isAlphabetic none.1]
      rw [markTokens, List.map_cons, ih none.2, Token.folded, kept]
      rfl

/-- The tokens of a folded piece are those of the piece, folded. -/
theorem Piece.Fits.tokens_folded (fits : piece.Fits statementStart rest) (place : Position) :
    piece.folded.tokens place = (piece.tokens place).map Token.folded := by
  have spelled := fits.spelling_folded
  cases piece with
  | blank c =>
      rfl
  | blockComment body closed =>
      rfl
  | starComment body closed =>
      rfl
  | quoted delimiter value closed =>
      simp only [tokens, List.map_cons, List.map_nil, Token.folded, TokenKind.folded,
        foldCase_ofList, ← spelled]
      rfl
  | word spelling =>
      simp only [tokens, Piece.folded, wordKind_foldAscii, ← foldCase_ofList]
      rfl
  | number spelling =>
      simp only [tokens, Piece.folded, ← foldCase_ofList]
      rfl
  | mark c =>
      have none : ∀ d ∈ [c], isAlphabetic d = false :=
        List.forall_mem_singleton.mpr (isAlphabetic_of_mem_marks fits.1)
      exact (folded_markTokens none place).symm
  | strange first more =>
      exact (folded_markTokens fits.isAlphabetic_strange place).symm

theorem Piece.diagnostics_folded (piece : Piece) (place : Position) :
    piece.folded.diagnostics place = piece.diagnostics place := by
  cases piece with
  | blockComment body closed =>
      cases closed <;> rfl
  | quoted delimiter value closed =>
      cases closed <;> rfl
  | _ =>
      rfl

theorem Separated.scannedFrom_folded (separated : Separated statementStart pieces)
    (place : Position) :
    scannedFrom place (pieces.map Piece.folded) =
      ((scannedFrom place pieces).1.map Token.folded, (scannedFrom place pieces).2) := by
  induction pieces generalizing statementStart place with
  | nil =>
      rfl
  | cons piece rest ih =>
      obtain ⟨fits, separated⟩ := separated
      have later := ih separated (place.after piece.spelling)
      rw [scannedFrom, scannedFrom, Prod.mk.injEq] at later
      simp only [scannedFrom, placedFrom, List.map_cons, List.flatMap_cons, List.map_append,
        fits.tokens_folded, piece.diagnostics_folded, fits.spelling_folded,
        Position.after_foldAscii, later.1, later.2]

@[simp] theorem Token.folded_endAt (place : Position) : (endAt place).folded = endAt place := by
  have kept : foldCase "eof" = "eof" := rfl
  rw [endAt, folded, kept, TokenKind.folded]

/-- A folded text has the tokens of the text, folded, and the same diagnostics. -/
theorem Scanned.ofText_foldCase (text : String) :
    ofText (foldCase text) =
      ⟨(ofText text).tokens.map Token.folded, (ofText text).diagnostics⟩ := by
  have scanned := (Piece.separated_ofText text.toList).scannedFrom_folded .start
  rw [ofText_eq, ofText_eq text, toList_foldCase, Piece.ofText_foldAscii, scanned,
    Position.after_foldAscii, List.map_append, List.map_singleton, Token.folded_endAt]

end Tokens

end DatasetLineage
