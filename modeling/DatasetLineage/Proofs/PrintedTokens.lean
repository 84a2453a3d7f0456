/-
Module: DatasetLineage.Proofs.PrintedTokens
Purpose: Tokens that are printed with a blank between them are scanned again. What becomes tokens
  are lexemes, which are the pieces of a text without blanks and comments, and with the characters
  of a strange run one by one. In front of a blank each of them is a piece as before, except a word
  that ends in a dot, which had another dot behind it and loses its own. So the tokens come back
  if no word ends in a dot, and otherwise the first word that does comes back without it.
Main exports: isDotted, Scanned.printed, Piece.lexemes, Piece.spaced, Piece.Fits.before_blank,
  Separated.spaced, Scanned.contents_printed, Scanned.forall_isDotted_iff,
  Scanned.rescans_printed_iff
-/
import DatasetLineage.Proofs.InvisibleComments
import DatasetLineage.Proofs.WordKinds
import DatasetLineage.Proofs.ScanLocality

namespace DatasetLineage

open Text

/-- Whether a spelling begins like a word, with a letter, an underscore or an ampersand, and ends in
    a dot. -/
def isDotted (spelling : String) : Bool :=
  spelling.toList.head?.any (fun c => isWordStart c || c == '&') &&
    spelling.toList.getLast? == some '.'

/-- The tokens of a text in front of its end, printed with a blank between them. -/
def Scanned.printed (scanned : Scanned) : String :=
  " ".intercalate (scanned.tokens.dropLast.map Token.spelling)

namespace Piece

/-- What becomes tokens of a piece, one piece for each of them. -/
def lexemes : Piece → List Piece
  | blank _ | blockComment _ _ | starComment _ _ => []
  | strange first more => (first :: more).map fun c => strange c []
  | piece => [piece]

/-- Whether a piece is a word that ends in a dot. -/
def endsInDot : Piece → Bool
  | word spelling => spelling.getLast? == some '.'
  | _ => false

/-- The lexemes of pieces, each with a blank in front of it. -/
def spaced (pieces : List Piece) : List Piece :=
  (pieces.flatMap lexemes).flatMap fun lexeme => [blank ' ', lexeme]

end Piece

/-! ### Lexemes with blanks between them -/

section Lexemes

variable {statementStart : Bool} {rest behind : List Char} {piece : Piece}
  {pieces front back later : List Piece}

theorem Piece.spaced_append (front back : List Piece) :
    spaced (front ++ back) = spaced front ++ spaced back := by
  rw [spaced, List.flatMap_append, List.flatMap_append]
  rfl

/-- Behind a piece stands a blank or nothing if its lexemes are spaced. -/
theorem Piece.head_spaced (gap : ∀ c ∈ (spellingOf later).head?, c = ' ') :
    ∀ c ∈ (spellingOf (spaced pieces ++ later)).head?, c = ' ' := by
  cases lexemes : pieces.flatMap Piece.lexemes with
  | nil =>
      rw [spaced, lexemes]
      exact gap
  | cons lexeme lexemes' =>
      rw [spaced, lexemes]
      intro c isFirst
      cases isFirst
      rfl

/-- A word that does not end in a dot is a word in front of a blank. -/
theorem IsWordBefore.before_blank {spelling : List Char} (isWord : IsWordBefore rest spelling)
    (undotted : spelling.getLast? ≠ some '.') (endsWord : EndsWord behind) :
    IsWordBefore behind spelling := by
  obtain ⟨first, tail, spelled, starts, takes⟩ := isWord
  have noDot : '.' ∉ tail.getLast? := by
    intro isDot
    apply undotted
    rcases spelled with rfl | rfl <;> cases tail <;> simp_all
  have takes' : TakesTail tail behind :=
    takesTail_of_dots (fun _ => isWordTail_or_dot_of_takesTail takes)
      (fun isDot => absurd isDot noDot) (wordGoesOn_of_endsWord endsWord)
  exact ⟨first, tail, spelled, starts, takes'⟩

/-- In front of a blank, a piece is what it was, unless it is a word that ends in a dot. A piece
    that ended with the text still does. -/
theorem Piece.Fits.before_blank (fits : piece.Fits statementStart rest)
    (undotted : piece.endsInDot = false)
    (gap : ∀ c ∈ behind.head?, c = ' ') (ends : rest = [] → behind = []) :
    piece.Fits statementStart behind := by
  cases piece with
  | blank c =>
      exact fits
  | blockComment body closed =>
      exact ⟨fits.1, fits.2.imp_right ends⟩
  | starComment body closed =>
      exact ⟨fits.1, fits.2.1, fits.2.2.imp_right ends⟩
  | quoted delimiter value closed =>
      refine ⟨fits.1, ?_⟩
      cases closed with
      | true =>
          intro isNext
          rcases fits.1 with isApostrophe | isQuotation
          · exact absurd (isApostrophe.symm.trans (gap delimiter isNext)) (by decide)
          · exact absurd (isQuotation.symm.trans (gap delimiter isNext)) (by decide)
      | false =>
          exact ends fits.2
  | word spelling =>
      have endsWord : EndsWord behind := by
        intro c isNext
        rw [gap c isNext]
        exact ⟨by decide +kernel, by decide⟩
      exact IsWordBefore.before_blank fits (beq_eq_false_iff_ne.mp undotted) endsWord
  | number spelling =>
      obtain ⟨first, tail, spelled, digit, goesOn, _⟩ := fits
      refine ⟨first, tail, spelled, digit, goesOn, ?_⟩
      intro c isNext
      rw [gap c isNext]
      decide +kernel
  | mark c =>
      obtain ⟨listed, _, star, _⟩ := fits
      refine ⟨listed, ?_, star, ?_⟩
      · intro _ isNext
        exact absurd (gap '*' isNext) (by decide)
      · intro _ d isNext
        rw [gap d isNext]
        decide +kernel
  | strange first more =>
      obtain ⟨begins, goesOn, _⟩ := fits
      refine ⟨begins, goesOn, ?_⟩
      intro c isNext
      rw [gap c isNext]
      decide +kernel

/-- A character that continues a strange run could begin one. -/
theorem begins_of_isStrange {c : Char} (strange : isStrange c = true) :
    isBlank c = false ∧ c ∉ marks ∧ ¬ IsDelimiter c ∧ isWordStart c = false ∧
      c.isDigit = false := by
  have notDigit : c.isDigit = false := by
    cases digit : c.isDigit with
    | false =>
        rfl
    | true =>
        have numeral := isNumeric_of_isDigit digit
        simp [isStrange, isAlphanumeric, numeral] at strange
  simp [isStrange, isAlphanumeric] at strange
  simp [isWordStart, IsDelimiter, strange, notDigit]

/-- Each character of a strange run is a strange run in front of a blank. -/
theorem Piece.Fits.strange_before_blank {first : Char} {more : List Char}
    (fits : (Piece.strange first more).Fits statementStart rest) {c : Char}
    (member : c ∈ first :: more) (before : Bool) (gap : ∀ c ∈ behind.head?, c = ' ') :
    (Piece.strange c []).Fits before behind := by
  obtain ⟨begins, goesOn, _⟩ := fits
  have ends : ∀ d ∈ behind.head?, isStrange d = false := by
    intro d isNext
    rw [gap d isNext]
    decide +kernel
  rcases List.mem_cons.mp member with rfl | inRun
  · exact ⟨begins, List.forall_mem_nil _, ends⟩
  · exact ⟨begins_of_isStrange (goesOn c inRun), List.forall_mem_nil _, ends⟩

/-- Spaced strange characters are separated. -/
theorem separated_spaced_strange {first : Char} {more : List Char} (statementStart : Bool)
    (fits : ∀ c ∈ first :: more, ∀ before behind, (∀ d ∈ behind.head?, d = ' ') →
      (Piece.strange c []).Fits before behind)
    (after : Separated false later) (gap : ∀ c ∈ (spellingOf later).head?, c = ' ') :
    Separated statementStart (Piece.spaced [.strange first more] ++ later) := by
  have blank : isBlank ' ' = true := by decide
  rw [List.forall_mem_cons] at fits
  induction more generalizing first statementStart with
  | nil =>
      exact ⟨blank, fits.1 _ _ gap, after⟩
  | cons second more ih =>
      have later := ih false (List.forall_mem_cons.mp fits.2)
      exact ⟨blank, fits.1 _ _ (by rintro _ ⟨⟩; rfl), later⟩

/-- The lexemes of a piece are separated if they are spaced. -/
theorem Piece.Fits.separated_spaced (fits : piece.Fits statementStart rest)
    (undotted : piece.endsInDot = false)
    (after : Separated (piece.opensStatement statementStart) later)
    (gap : ∀ c ∈ (spellingOf later).head?, c = ' ') (ends : rest = [] → spellingOf later = []) :
    Separated statementStart (Piece.spaced [piece] ++ later) := by
  have blank : isBlank ' ' = true := by decide
  cases piece with
  | blank c =>
      exact after
  | blockComment body closed =>
      exact after
  | starComment body closed =>
      exact after
  | strange first more =>
      exact separated_spaced_strange statementStart
        (fun c member before _ => fits.strange_before_blank member before) after gap
  | _ =>
      exact ⟨blank, fits.before_blank undotted gap ends, after⟩

theorem Separated.eq_nil_of_spellingOf (separated : Separated statementStart pieces)
    (nothing : spellingOf pieces = []) : pieces = [] := by
  cases pieces with
  | nil =>
      rfl
  | cons piece pieces =>
      exact absurd (List.append_eq_nil_iff.mp nothing).1 separated.1.spelling_ne_nil

/-- Pieces are separated if their lexemes are spaced, with other pieces behind them, as far as no
    word ends in a dot. -/
theorem Separated.spaced (separated : Separated statementStart (front ++ back))
    (undotted : ∀ piece ∈ front, piece.endsInDot = false)
    (after : Separated (opensBehind statementStart front) later)
    (gap : ∀ c ∈ (spellingOf later).head?, c = ' ') (ends : back = [] → later = []) :
    Separated statementStart (Piece.spaced front ++ later) := by
  induction front generalizing statementStart with
  | nil =>
      exact after
  | cons piece front ih =>
      obtain ⟨fits, separated'⟩ := separated
      rw [List.forall_mem_cons] at undotted
      have spaced := ih separated' undotted.2 after
      have split : Piece.spaced (piece :: front) ++ later =
          Piece.spaced [piece] ++ (Piece.spaced front ++ later) := by
        rw [← List.append_assoc, ← Piece.spaced_append, List.singleton_append]
      rw [split]
      apply fits.separated_spaced undotted.1 spaced (Piece.head_spaced gap)
      intro nothing
      obtain ⟨rfl, rfl⟩ := List.append_eq_nil_iff.mp (separated'.eq_nil_of_spellingOf nothing)
      rw [ends rfl]
      rfl

end Lexemes

/-! ### Contents of the printed text -/

section Contents

variable {piece lexeme : Piece}

theorem contents_strange (first : Char) (more : List Char) :
    (Piece.strange first more).contents.1 =
      (first :: more).map fun c => (TokenKind.mark c, c.toString) := by
  have run : ∀ place characters, (markTokens place characters).map Token.content =
      characters.map fun c => (TokenKind.mark c, c.toString) := by
    intro place characters
    induction characters generalizing place with
    | nil =>
        rfl
    | cons c rest ih =>
        rw [markTokens, List.map_cons, ih]
        rfl
  exact run .start (first :: more)

/-- A piece contributes what its lexemes do. -/
theorem Piece.flatMap_contents_lexemes (piece : Piece) :
    piece.lexemes.flatMap (·.contents.1) = piece.contents.1 := by
  cases piece with
  | strange first more =>
      rw [contents_strange, lexemes, List.flatMap_map]
      exact List.map_eq_flatMap.symm
  | blank c =>
      rfl
  | blockComment body closed =>
      rfl
  | starComment body closed =>
      rfl
  | _ =>
      exact List.append_nil _

theorem Piece.flatMap_contents_spaced (pieces : List Piece) :
    (spaced pieces).flatMap (·.contents.1) = pieces.flatMap (·.contents.1) := by
  have blankFirst : ∀ lexeme : Piece,
      [blank ' ', lexeme].flatMap (·.contents.1) = lexeme.contents.1 := by
    intro lexeme
    exact List.append_nil _
  rw [spaced, List.flatMap_assoc, List.flatMap_assoc]
  simp only [blankFirst, flatMap_contents_lexemes]

/-- A lexeme is one token, which has its spelling. -/
theorem Piece.exists_kind_of_mem_lexemes (member : lexeme ∈ piece.lexemes) :
    ∃ kind, lexeme.contents.1 = [(kind, String.ofList lexeme.spelling)] := by
  cases piece with
  | strange first more =>
      obtain ⟨c, _, rfl⟩ := List.mem_map.mp member
      exact ⟨.mark c, rfl⟩
  | blank c =>
      cases member
  | blockComment body closed =>
      cases member
  | starComment body closed =>
      cases member
  | _ =>
      cases List.mem_singleton.mp member
      exact ⟨_, rfl⟩

theorem Piece.map_snd_contents (pieces : List Piece) :
    (pieces.flatMap (·.contents.1)).map Prod.snd =
      (pieces.flatMap lexemes).map fun lexeme => String.ofList lexeme.spelling := by
  have each : ∀ lexeme ∈ pieces.flatMap lexemes,
      lexeme.contents.1.map Prod.snd = [String.ofList lexeme.spelling] := by
    intro lexeme member
    obtain ⟨piece, _, isLexeme⟩ := List.mem_flatMap.mp member
    obtain ⟨kind, single⟩ := exists_kind_of_mem_lexemes isLexeme
    rw [single]
    rfl
  have lexemes : pieces.flatMap (·.contents.1) =
      (pieces.flatMap lexemes).flatMap (·.contents.1) := by
    rw [List.flatMap_assoc]
    simp only [flatMap_contents_lexemes]
  rw [lexemes, List.map_flatMap, List.flatMap_congr each]
  exact List.map_eq_flatMap.symm

theorem Scanned.map_content_ofText (text : String) :
    (ofText text).tokens.map Token.content =
      (Piece.ofText text.toList).flatMap (·.contents.1) ++ [(.endOfText, "eof")] := by
  have tokens : ∀ scanned : Scanned, scanned.contents.1 = scanned.tokens.map Token.content :=
    fun _ => rfl
  rw [← tokens, contents_ofText]

/-- The tokens of a text are printed as its lexemes. -/
theorem Scanned.toList_printed (text : String) :
    (ofText text).printed.toList =
      [' '].intercalate (((Piece.ofText text.toList).flatMap Piece.lexemes).map
        Piece.spelling) := by
  have spellings : (ofText text).tokens.dropLast.map Token.spelling =
      ((Piece.ofText text.toList).flatMap Piece.lexemes).map
        fun lexeme => String.ofList lexeme.spelling := by
    have front : (ofText text).tokens.dropLast.map Token.content =
        (Piece.ofText text.toList).flatMap (·.contents.1) := by
      rw [List.map_dropLast, map_content_ofText, List.dropLast_concat]
    rw [← Piece.map_snd_contents, ← front, List.map_map]
    rfl
  rw [printed, String.toList_intercalate, spellings, List.map_map]
  simp [Function.comp_def]

/-- Spaced lexemes are spelled as they are printed, with a blank in front. -/
theorem spellingOf_spaced (pieces : List Piece) :
    spellingOf (Piece.spaced pieces) =
      if pieces.flatMap Piece.lexemes = [] then []
      else ' ' :: [' '].intercalate ((pieces.flatMap Piece.lexemes).map Piece.spelling) := by
  rw [Piece.spaced]
  induction pieces.flatMap Piece.lexemes with
  | nil =>
      rfl
  | cons lexeme lexemes ih =>
      rw [List.flatMap_cons, spellingOf_append, ih]
      cases lexemes with
      | nil =>
          simp [Piece.spelling]
      | cons next lexemes =>
          simp [Piece.spelling, List.intercalate_cons_cons]

/-- A blank in front of a text is a piece of its own. -/
theorem Piece.ofText_blank (text : List Char) :
    ofText (' ' :: text) = .blank ' ' :: ofText text := by
  have blank : isBlank ' ' = true := by decide
  have separated : Separated true (.blank ' ' :: ofText text) := ⟨blank, separated_ofText text⟩
  have spelled : spellingOf (.blank ' ' :: ofText text) = ' ' :: text := by
    rw [spellingOf_cons, spelling_ofText]
    rfl
  rw [← spelled, ofText_spellingOf separated]

/-- The tokens of what is printed are those of the spaced lexemes. -/
theorem Scanned.contents_printed (text : String) :
    (ofText (ofText text).printed).tokens.map Token.content =
      (Piece.ofText (spellingOf (Piece.spaced (Piece.ofText text.toList)))).flatMap
        (·.contents.1) ++ [(.endOfText, "eof")] := by
  have blankFirst : (Piece.blank ' ').contents.1 = [] := rfl
  rw [map_content_ofText, toList_printed, spellingOf_spaced]
  by_cases none : (Piece.ofText text.toList).flatMap Piece.lexemes = []
  · rw [if_pos none, none, List.map_nil, List.intercalate_nil]
  · rw [if_neg none, Piece.ofText_blank, List.flatMap_cons, blankFirst, List.nil_append]

end Contents

/-! ### Words that end in a dot -/

section Dots

variable {statementStart : Bool} {rest behind spelling : List Char} {piece : Piece}
  {front back pieces : List Piece} {c : Char}

theorem isDotted_toString (c : Char) : isDotted c.toString = false := by
  have single : c.toString.toList = [c] := String.toList_singleton c
  rw [isDotted, single]
  by_cases dot : c = '.'
  · subst dot
    decide +kernel
  · simp [dot]

theorem isDotted_of_head (notStart : isWordStart c = false) (notAmpersand : c ≠ '&') :
    isDotted (String.ofList (c :: spelling)) = false := by
  simp [isDotted, notStart, notAmpersand]

theorem isWordStart_of_isDigit (digit : c.isDigit = true) : isWordStart c = false := by
  cases starts : isWordStart c with
  | false =>
      rfl
  | true =>
      have word := opening_of_isWordStart starts true
      rw [opening_of_isDigit digit] at word
      cases word

/-- Only a word that ends in a dot is a token that begins like a word and does. -/
theorem Piece.Fits.isDotted_contents (fits : piece.Fits statementStart rest) :
    (∀ content ∈ piece.contents.1, isDotted content.2 = false) ↔ piece.endsInDot = false := by
  cases piece with
  | word spelling =>
      have begins : spelling.head?.any (fun c => isWordStart c || c == '&') = true := by
        obtain ⟨first, tail, rfl | rfl, starts, _⟩ := fits
        · simp [starts]
        · rfl
      have dotted : isDotted (String.ofList spelling) = (Piece.word spelling).endsInDot := by
        rw [isDotted, String.toList_ofList, begins, Bool.true_and]
        rfl
      rw [← dotted]
      exact List.forall_mem_singleton
  | number spelling =>
      obtain ⟨first, tail, rfl, digit, _⟩ := fits
      have notAmpersand : first ≠ '&' := by
        rintro rfl
        exact absurd digit (by decide)
      exact iff_of_true (List.forall_mem_singleton.mpr
        (isDotted_of_head (isWordStart_of_isDigit digit) notAmpersand)) rfl
  | quoted delimiter value closed =>
      have head : isWordStart delimiter = false ∧ delimiter ≠ '&' := by
        rcases fits.1 with rfl | rfl
        · exact ⟨by decide +kernel, by decide⟩
        · exact ⟨by decide +kernel, by decide⟩
      exact iff_of_true (List.forall_mem_singleton.mpr (isDotted_of_head head.1 head.2)) rfl
  | mark c =>
      exact iff_of_true (List.forall_mem_singleton.mpr (isDotted_toString c)) rfl
  | strange first more =>
      refine iff_of_true ?_ rfl
      rw [contents_strange, List.forall_mem_map]
      exact fun c _ => isDotted_toString c
  | _ =>
      exact iff_of_true (List.forall_mem_nil _) rfl

/-- No token of a text begins like a word and ends in a dot if no word of the text ends in one. -/
theorem Scanned.forall_isDotted_iff (text : String) :
    (∀ token ∈ (ofText text).tokens, isDotted token.spelling = false) ↔
      ∀ piece ∈ Piece.ofText text.toList, piece.endsInDot = false := by
  have separated := Piece.separated_ofText text.toList
  have contents : (∀ token ∈ (ofText text).tokens, isDotted token.spelling = false) ↔
      ∀ content ∈ (ofText text).tokens.map Token.content, isDotted content.2 = false := by
    rw [List.forall_mem_map]
    rfl
  have stop : isDotted "eof" = false := by decide +kernel
  rw [contents, map_content_ofText]
  constructor
  · intro none piece member
    obtain ⟨_, _, fits⟩ := separated.exists_fits member
    apply fits.isDotted_contents.mp
    intro content inPiece
    exact none content (List.mem_append_left _ (List.mem_flatMap.mpr ⟨piece, member, inPiece⟩))
  · intro none content member
    rcases List.mem_append.mp member with inText | isEnd
    · obtain ⟨piece, isPiece, inPiece⟩ := List.mem_flatMap.mp inText
      obtain ⟨_, _, fits⟩ := separated.exists_fits isPiece
      exact fits.isDotted_contents.mpr (none piece isPiece) content inPiece
    · cases List.mem_singleton.mp isEnd
      exact stop

/-- A dot at the end stands behind every other character. -/
theorem exists_tail_of_concat (front : List Char) {tail : List Char}
    (spelled : spelling ++ ['.'] = front ++ c :: tail) (notDot : c ≠ '.') :
    ∃ tail', tail = tail' ++ ['.'] ∧ spelling = front ++ c :: tail' := by
  rcases List.eq_nil_or_concat' tail with rfl | ⟨tail', last, rfl⟩
  · obtain ⟨_, same⟩ := List.append_inj' spelled rfl
    exact absurd (List.singleton_inj.mp same).symm notDot
  · rw [← List.cons_append, ← List.append_assoc] at spelled
    obtain ⟨same, isLast⟩ := List.append_inj' spelled rfl
    exact ⟨tail', by rw [isLast], same⟩

/-- In front of a dot and a blank, a word with a dot at its end is the word without it. -/
theorem IsWordBefore.before_dot (isWord : IsWordBefore rest (spelling ++ ['.']))
    (gap : ∀ c ∈ behind.head?, c = ' ') : IsWordBefore ('.' :: behind) spelling := by
  have stops : wordGoesOn ('.' :: behind) = false := by
    have dot : isWordTail '.' = false := by decide +kernel
    have blank : isWordTail ' ' = false := by decide +kernel
    cases behind with
    | nil =>
        simp [wordGoesOn, dot]
    | cons c behind =>
        cases gap c rfl
        simp [wordGoesOn, dot, blank]
  obtain ⟨first, tail, spelled, starts, takes⟩ := isWord
  have notDot : first ≠ '.' := by
    rintro rfl
    exact absurd starts (by decide +kernel)
  have split : ∃ tail', tail = tail' ++ ['.'] ∧
      (spelling = first :: tail' ∨ spelling = '&' :: first :: tail') := by
    rcases spelled with single | ampersand
    · obtain ⟨tail', isTail, same⟩ := exists_tail_of_concat [] single notDot
      exact ⟨tail', isTail, .inl same⟩
    · obtain ⟨tail', isTail, same⟩ := exists_tail_of_concat ['&'] ampersand notDot
      exact ⟨tail', isTail, .inr same⟩
  obtain ⟨tail', rfl, spelled'⟩ := split
  have takes' : TakesTail tail' ('.' :: behind) :=
    takesTail_of_dots (fun c member =>
      isWordTail_or_dot_of_takesTail takes (List.mem_append_left _ member)) (fun _ => rfl) stops
  exact ⟨first, tail', spelled', starts, takes'⟩

end Dots

/-! ### Scans of the printed text -/

section Rescans

variable {front back : List Piece} {spelling : List Char}

/-- If no word of a text ends in a dot, the spaced lexemes of the text are its pieces. -/
theorem Piece.ofText_spaced {pieces : List Piece} (separated : Separated true pieces)
    (undotted : ∀ piece ∈ pieces, piece.endsInDot = false) :
    ofText (spellingOf (spaced pieces)) = spaced pieces := by
  rw [← List.append_nil pieces] at separated
  have whole : Separated true (spaced pieces ++ []) :=
    separated.spaced undotted trivial (by simp) (fun _ => rfl)
  rw [List.append_nil] at whole
  exact ofText_spellingOf whole

/-- The first word of a text that ends in a dot is cut without it if lexemes are spaced. -/
theorem Piece.exists_ofText_spaced_of_dotted
    (separated : Separated true (front ++ .word (spelling ++ ['.']) :: back))
    (undotted : ∀ piece ∈ front, piece.endsInDot = false) :
    ∃ later, ofText (spellingOf (spaced (front ++ .word (spelling ++ ['.']) :: back))) =
      spaced front ++ .blank ' ' :: .word spelling :: later := by
  obtain ⟨later, separatedLater, spelled⟩ :=
    exists_separated false ('.' :: spellingOf (spaced back))
  have gap : ∀ c ∈ (spellingOf (spaced back)).head?, c = ' ' := by
    have whole : ∀ c ∈ (spellingOf (spaced back ++ [])).head?, c = ' ' := head_spaced (by simp)
    rwa [List.append_nil] at whole
  have isWord : IsWordBefore (spellingOf later) spelling := by
    rw [spelled]
    exact IsWordBefore.before_dot separated.of_append.1 gap
  have blank : isBlank ' ' = true := by decide
  have after : Separated (opensBehind true front) (.blank ' ' :: .word spelling :: later) :=
    ⟨blank, isWord, separatedLater⟩
  have separated' := separated.spaced undotted after (by rintro _ ⟨⟩; rfl)
    (fun none => absurd none (List.cons_ne_nil _ _))
  have same : spellingOf (spaced (front ++ .word (spelling ++ ['.']) :: back)) =
      spellingOf (spaced front ++ .blank ' ' :: .word spelling :: later) := by
    rw [List.append_cons, spaced_append, spaced_append]
    simp [spaced, lexemes, Piece.spelling, spelled]
  exact ⟨later, by rw [same, ofText_spellingOf separated']⟩

theorem Piece.exists_concat_of_endsInDot {piece : Piece} (dotted : piece.endsInDot = true) :
    ∃ spelling, piece = .word (spelling ++ ['.']) := by
  cases piece with
  | word spelling =>
      obtain ⟨front, same⟩ := List.getLast?_eq_some_iff.mp (beq_iff_eq.mp dotted)
      exact ⟨front, congrArg word same⟩
  | _ =>
      cases dotted

/-- A text and its printed tokens have the same tokens, apart from their places, if no token begins
    like a word and ends in a dot, and only then. -/
theorem Scanned.rescans_printed_iff (text : String) :
    (ofText (ofText text).printed).tokens.map Token.content =
        (ofText text).tokens.map Token.content ↔
      ∀ token ∈ (ofText text).tokens, isDotted token.spelling = false := by
  have separated := Piece.separated_ofText text.toList
  rw [forall_isDotted_iff, contents_printed, map_content_ofText, List.append_cancel_right_eq]
  constructor
  · intro same
    cases first : (Piece.ofText text.toList).find? Piece.endsInDot with
    | none =>
        simpa using first
    | some piece =>
        obtain ⟨dotted, front, back, split, undotted⟩ := List.find?_eq_some_iff_append.mp first
        obtain ⟨spelling, rfl⟩ := Piece.exists_concat_of_endsInDot dotted
        rw [split] at separated same
        obtain ⟨later, cut⟩ := Piece.exists_ofText_spaced_of_dotted separated
          (fun piece member => by simpa using undotted piece member)
        -- in front of that word the tokens agree, and there its spelling lacks the dot
        rw [cut, List.flatMap_append, Piece.flatMap_contents_spaced, List.flatMap_append,
          List.append_cancel_left_eq] at same
        have spelled : String.ofList spelling = String.ofList (spelling ++ ['.']) :=
          congrArg Prod.snd (List.cons.inj same).1
        rw [String.ofList_inj] at spelled
        simp at spelled
  · intro undotted
    rw [Piece.ofText_spaced separated undotted, Piece.flatMap_contents_spaced]

/-- A dot in front of another one belongs to a word, a dot in front of a blank does not. -/
example :
    let scanned := Scanned.ofText "set lib..;"
    scanned.printed = "set lib. . ;" ∧
      (Scanned.ofText scanned.printed).tokens.map Token.spelling =
        ["set", "lib", ".", ".", ";", "eof"] := by
  decide +kernel

end Rescans

end DatasetLineage
