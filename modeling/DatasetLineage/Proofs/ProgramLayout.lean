/-
Module: DatasetLineage.Proofs.ProgramLayout
Purpose: Programs laid out with blanks and comments. Lexemes are words, closed literals and a few
  marks. Any gaps may stand before, between and behind them, as long as there is one between two
  lexemes that would run together. Such a text is cut into these pieces again, and its tokens show
  the lexemes, without a diagnostic.
Main exports: Piece.IsGap, Piece.IsLexeme, runsTogether, LaidOut, layOut, LaidOut.separated, Shows,
  Scanned.exists_ofText
-/
import DatasetLineage.Program.Scanned
import DatasetLineage.Proofs.WordKinds
import Mathlib.Data.List.Forall2

namespace DatasetLineage

open Text

/-- Whether a piece is a blank or a closed comment between slashes. -/
def Piece.IsGap : Piece → Prop
  | blank c => isBlank c = true
  | blockComment body closed => closed = true ∧ ¬ ['*', '/'] <:+: body
  | _ => False

/-- Whether a piece is a word, a closed literal, or a mark that stands by itself. -/
def Piece.IsLexeme : Piece → Prop
  | word spelling => IsWord spelling
  | quoted delimiter _ closed => IsDelimiter delimiter ∧ closed = true
  | mark c => c = ';' ∨ c = ',' ∨ c = '='
  | _ => False

/-- Whether two lexemes become something else without a gap between them. -/
def runsTogether : Piece → Piece → Bool
  | .word _, .word _ => true
  | .quoted _ _ _, .quoted _ _ _ => true
  | _, _ => false

/-- `LaidOut before lexemes pieces` says that `pieces` are the lexemes with gaps, behind the lexeme
    `before` if there is one. -/
inductive LaidOut : Option Piece → List Piece → List Piece → Prop where
  | done {before : Option Piece} {gap : List Piece} (isGap : ∀ piece ∈ gap, piece.IsGap) :
      LaidOut before [] gap
  | next {before : Option Piece} {gap pieces lexemes : List Piece} {lexeme : Piece}
      (isGap : ∀ piece ∈ gap, piece.IsGap)
      (apart : ∀ other ∈ before, runsTogether other lexeme = true → gap ≠ [])
      (behind : LaidOut (some lexeme) lexemes pieces) :
      LaidOut before (lexeme :: lexemes) (gap ++ lexeme :: pieces)

/-- Lexemes with a space wherever two of them would run together, and no other gap. -/
def layOut (before : Option Piece) : List Piece → List Piece
  | [] => []
  | lexeme :: lexemes =>
    (if before.any (runsTogether · lexeme) then [.blank ' '] else [])
      ++ lexeme :: layOut (some lexeme) lexemes

/-- Every list of lexemes can be laid out. -/
theorem laidOut_layOut (before : Option Piece) (lexemes : List Piece) :
    LaidOut before lexemes (layOut before lexemes) := by
  induction lexemes generalizing before with
  | nil =>
      exact .done fun piece member => nomatch member
  | cons lexeme lexemes ih =>
      unfold layOut
      split
      · refine .next ?_ (fun _ _ _ => List.cons_ne_nil _ _) (ih (some lexeme))
        intro piece member
        rw [List.mem_singleton] at member
        subst member
        exact (by decide : isBlank ' ' = true)
      · rename_i apart
        refine .next (fun piece member => nomatch member) ?_ (ih (some lexeme))
        rintro other rfl together
        exact absurd together apart

/-! ### Lexemes that keep apart -/

section Separation

/-- Whether a text does not go on with a lexeme that it follows. -/
def Follows (rest : List Char) : Piece → Prop
  | .word _ => EndsWord rest
  | .quoted delimiter _ _ => delimiter ∉ rest.head?
  | _ => True

variable {before lexeme : Piece} {gap pieces lexemes : List Piece} {c : Char} {rest : List Char}

theorem isWordTail_of_isBlank (blank : isBlank c = true) : isWordTail c = false := by
  have notNumeric := CodePoints.forall_of_holds (p := fun n => !numerics.holds n) blank
    (by decide +kernel)
  have notNumeric' : isNumeric c = false := by
    simpa [isNumeric] using notNumeric
  have notUnderscore : c ≠ '_' := ne_of_isBlank blank rfl
  have notAmpersand : c ≠ '&' := ne_of_isBlank blank rfl
  simp [isWordTail, isAlphanumeric, isAlphabetic_of_isBlank blank, notNumeric', notUnderscore,
    notAmpersand]

/-- A text whose first character goes on with no word and is no delimiter follows any lexeme. -/
theorem follows_of_head (isLexeme : before.IsLexeme) (notTail : isWordTail c = false)
    (notDot : c ≠ '.') (notDelimiter : ¬ IsDelimiter c) : Follows (c :: rest) before := by
  cases before with
  | word spelling =>
      exact endsWord_of_head notTail notDot rest
  | quoted delimiter value closed =>
      intro isFirst
      rw [List.head?_cons, Option.mem_some_iff] at isFirst
      exact notDelimiter (isFirst ▸ isLexeme.1)
  | _ =>
      trivial

/-- A gap follows any lexeme. -/
theorem follows_of_isGap {piece : Piece} (isLexeme : before.IsLexeme) (isGap : piece.IsGap) :
    Follows (piece.spelling ++ rest) before := by
  cases piece with
  | blank c =>
      have blank : isBlank c = true := isGap
      apply follows_of_head isLexeme (isWordTail_of_isBlank blank) (ne_of_isBlank blank rfl)
      rintro (isApostrophe | isQuotation)
      · exact ne_of_isBlank blank rfl isApostrophe
      · exact ne_of_isBlank blank rfl isQuotation
  | blockComment body closed =>
      exact follows_of_head isLexeme (by decide) (by decide) (by unfold IsDelimiter; decide)
  | _ =>
      exact isGap.elim

/-- A lexeme follows another one with which it does not run together. -/
theorem follows_of_isLexeme (isLexeme : before.IsLexeme) (isLexeme' : lexeme.IsLexeme)
    (apart : runsTogether before lexeme = false) : Follows (lexeme.spelling ++ rest) before := by
  cases lexeme with
  | word spelling =>
      cases before with
      | word spelling' =>
          exact absurd apart (by simp [runsTogether])
      | quoted delimiter value closed =>
          obtain ⟨first, tail, shape, starts, _⟩ := isLexeme' [] fun _ none => nomatch none
          have different : ∀ d, isWordStart d = true ∨ d = '&' → d ≠ delimiter := by
            rintro d start rfl
            revert start
            rcases isLexeme.1 with rfl | rfl <;> decide
          rcases shape with rfl | rfl
          · simpa [Follows, Piece.spelling] using different first (.inl starts)
          · simpa [Follows, Piece.spelling] using different '&' (.inr rfl)
      | _ =>
          trivial
  | quoted delimiter value closed =>
      cases before with
      | word spelling =>
          intro d isFirst
          simp [Piece.spelling] at isFirst
          subst isFirst
          rcases isLexeme'.1 with rfl | rfl <;> decide
      | quoted delimiter' value' closed' =>
          exact absurd apart (by simp [runsTogether])
      | _ =>
          trivial
  | mark c =>
      have known : isWordTail c = false ∧ c ≠ '.' ∧ ¬ IsDelimiter c := by
        unfold IsDelimiter
        rcases isLexeme' with rfl | rfl | rfl <;> decide
      exact follows_of_head isLexeme known.1 known.2.1 known.2.2
  | _ =>
      exact isLexeme'.elim

/-- What is laid out behind a lexeme does not go on with it. -/
theorem LaidOut.follows (laidOut : LaidOut (some before) lexemes pieces)
    (isLexeme : before.IsLexeme) (areLexemes : ∀ lexeme ∈ lexemes, lexeme.IsLexeme) :
    Follows (spellingOf pieces) before := by
  cases laidOut with
  | @done _ gap isGap =>
      cases pieces with
      | nil =>
          cases before <;> simp [Follows, EndsWord]
      | cons piece gap =>
          rw [spellingOf_cons]
          exact follows_of_isGap isLexeme (isGap piece List.mem_cons_self)
  | @next _ gap pieces lexemes lexeme isGap apart behind =>
      cases gap with
      | nil =>
          have apart' : runsTogether before lexeme = false :=
            Bool.eq_false_iff.mpr fun together => apart before rfl together rfl
          rw [List.nil_append, spellingOf_cons]
          exact follows_of_isLexeme isLexeme (areLexemes lexeme List.mem_cons_self) apart'
      | cons piece gap =>
          rw [List.cons_append, spellingOf_cons]
          exact follows_of_isGap isLexeme (isGap piece List.mem_cons_self)

theorem fits_of_isGap {piece : Piece} (isGap : piece.IsGap) (rest : List Char)
    (statementStart : Bool) :
    piece.Fits statementStart rest ∧ piece.opensStatement statementStart = statementStart := by
  cases piece with
  | blank c =>
      exact ⟨isGap, rfl⟩
  | blockComment body closed =>
      exact ⟨⟨isGap.2, .inl isGap.1⟩, rfl⟩
  | _ =>
      exact isGap.elim

theorem fits_of_isLexeme {statementStart : Bool} (isLexeme : lexeme.IsLexeme)
    (follows : Follows rest lexeme) : lexeme.Fits statementStart rest := by
  cases lexeme with
  | word spelling =>
      exact isLexeme rest follows
  | quoted delimiter value closed =>
      obtain ⟨isDelimiter, isClosed⟩ := isLexeme
      subst isClosed
      exact ⟨isDelimiter, follows⟩
  | mark c =>
      rcases isLexeme with rfl | rfl | rfl <;>
        exact ⟨by decide, by simp, by simp, by simp⟩
  | _ =>
      exact isLexeme.elim

/-- A gap leaves open where the pieces behind it stand. -/
theorem separated_gap_append {statementStart : Bool} (isGap : ∀ piece ∈ gap, piece.IsGap)
    (separated : Separated statementStart pieces) : Separated statementStart (gap ++ pieces) := by
  induction gap with
  | nil =>
      exact separated
  | cons piece gap ih =>
      rw [List.forall_mem_cons] at isGap
      have known := fits_of_isGap isGap.1 (spellingOf (gap ++ pieces)) statementStart
      refine ⟨known.1, ?_⟩
      rw [known.2]
      exact ih isGap.2

/-- Lexemes that are laid out are separated. -/
theorem LaidOut.separated {previous : Option Piece} (laidOut : LaidOut previous lexemes pieces)
    (areLexemes : ∀ lexeme ∈ lexemes, lexeme.IsLexeme) (statementStart : Bool) :
    Separated statementStart pieces := by
  induction laidOut generalizing statementStart with
  | @done _ gap isGap =>
      have separated : Separated statementStart (gap ++ []) := separated_gap_append isGap trivial
      rwa [List.append_nil] at separated
  | @next _ gap pieces lexemes lexeme isGap _ behind ih =>
      rw [List.forall_mem_cons] at areLexemes
      apply separated_gap_append isGap
      refine ⟨?_, ih areLexemes.2 _⟩
      exact fits_of_isLexeme areLexemes.1 (behind.follows areLexemes.1 areLexemes.2)

end Separation

/-! ### Tokens of a layout -/

section Tokens

/-- Pieces with the places where they begin, from a place on. -/
def placedFrom (place : Position) : List Piece → List (Position × Piece)
  | [] => []
  | piece :: rest => (place, piece) :: placedFrom (place.after piece.spelling) rest

theorem Placed.pieces_foldl_add (placed : Placed) (pieces : List Piece) :
    (pieces.foldl Placed.add placed).pieces =
      (placedFrom placed.position pieces).reverse ++ placed.pieces := by
  induction pieces generalizing placed with
  | nil =>
      rfl
  | cons piece rest ih =>
      rw [List.foldl_cons, ih, Placed.add, placedFrom, List.reverse_cons, List.append_assoc,
        List.singleton_append]

theorem Placed.pieces_ofPieces (pieces : List Piece) :
    (Placed.ofPieces pieces).pieces.reverse = placedFrom .start pieces := by
  rw [Placed.ofPieces, Placed.pieces_foldl_add, List.append_nil, List.reverse_reverse]

/-- Whether a token is the one that a lexeme makes at some place. -/
def Shows (lexeme : Piece) (token : Token) : Prop := ∃ place, lexeme.tokens place = [token]

theorem shows_word_iff {spelling : List Char} {token : Token} :
    Shows (.word spelling) token ↔
      token.kind = wordKind spelling ∧ token.spelling = String.ofList spelling := by
  constructor
  · rintro ⟨place, same⟩
    cases same
    exact ⟨rfl, rfl⟩
  · rintro ⟨kind, spelled⟩
    obtain ⟨kind', spelling', place⟩ := token
    cases kind
    cases spelled
    exact ⟨place, rfl⟩

theorem kind_of_shows_mark {c : Char} {token : Token} (shows' : Shows (.mark c) token) :
    token.kind = .mark c := by
  obtain ⟨place, same⟩ := shows'
  cases same
  rfl

theorem kind_of_shows_quoted {delimiter : Char} {value : List Char} {closed : Bool} {token : Token}
    (shows' : Shows (.quoted delimiter value closed) token) :
    token.kind = .string (String.ofList value) := by
  obtain ⟨place, same⟩ := shows'
  cases same
  rfl

variable {previous : Option Piece} {lexemes pieces gap : List Piece} {lexeme : Piece}

theorem Piece.IsLexeme.exists_token (isLexeme : lexeme.IsLexeme) (place : Position) :
    (∃ token, lexeme.tokens place = [token]) ∧ lexeme.diagnostics place = [] := by
  cases lexeme with
  | word spelling =>
      exact ⟨⟨_, rfl⟩, rfl⟩
  | quoted delimiter value closed =>
      obtain ⟨_, isClosed⟩ := isLexeme
      cases isClosed
      exact ⟨⟨_, rfl⟩, rfl⟩
  | mark c =>
      exact ⟨⟨_, rfl⟩, rfl⟩
  | _ =>
      exact isLexeme.elim

theorem Piece.IsGap.no_token {piece : Piece} (isGap : piece.IsGap) (place : Position) :
    piece.tokens place = [] ∧ piece.diagnostics place = [] := by
  cases piece with
  | blank c =>
      exact ⟨rfl, rfl⟩
  | blockComment body closed =>
      obtain ⟨isClosed, _⟩ := isGap
      cases isClosed
      exact ⟨rfl, rfl⟩
  | _ =>
      exact isGap.elim

/-- The tokens and diagnostics of pieces that begin at a place. -/
def scannedFrom (place : Position) (pieces : List Piece) : List Token × List Diagnostic :=
  ((placedFrom place pieces).flatMap fun (place, piece) => piece.tokens place,
    (placedFrom place pieces).flatMap fun (place, piece) => piece.diagnostics place)

/-- A gap only moves the place of what stands behind it. -/
theorem exists_scannedFrom_gap_append (isGap : ∀ piece ∈ gap, piece.IsGap) (place : Position)
    (pieces : List Piece) :
    ∃ place', scannedFrom place (gap ++ pieces) = scannedFrom place' pieces := by
  induction gap generalizing place with
  | nil =>
      exact ⟨place, rfl⟩
  | cons piece gap ih =>
      rw [List.forall_mem_cons] at isGap
      obtain ⟨place', same⟩ := ih isGap.2 (place.after piece.spelling)
      refine ⟨place', ?_⟩
      rw [← same]
      simp [scannedFrom, placedFrom, isGap.1.no_token place]

/-- The tokens of lexemes that are laid out show them, and nothing is reported. -/
theorem LaidOut.exists_tokens (laidOut : LaidOut previous lexemes pieces)
    (areLexemes : ∀ lexeme ∈ lexemes, lexeme.IsLexeme) (place : Position) :
    ∃ tokens, scannedFrom place pieces = (tokens, []) ∧ List.Forall₂ Shows lexemes tokens := by
  induction laidOut generalizing place with
  | @done _ gap isGap =>
      obtain ⟨place', same⟩ := exists_scannedFrom_gap_append isGap place []
      rw [List.append_nil] at same
      exact ⟨[], same, .nil⟩
  | @next _ gap pieces lexemes lexeme isGap _ _ ih =>
      rw [List.forall_mem_cons] at areLexemes
      obtain ⟨place', same⟩ := exists_scannedFrom_gap_append isGap place (lexeme :: pieces)
      obtain ⟨⟨token, one⟩, none⟩ := areLexemes.1.exists_token place'
      obtain ⟨tokens, later, show'⟩ := ih areLexemes.2 (place'.after lexeme.spelling)
      rw [scannedFrom, Prod.mk.injEq] at later
      refine ⟨token :: tokens, ?_, .cons ⟨place', one⟩ show'⟩
      rw [same]
      simp [scannedFrom, placedFrom, one, none, later]

/-- A text of lexemes that are laid out is scanned into tokens that show them. -/
theorem Scanned.exists_ofText (laidOut : LaidOut none lexemes pieces)
    (areLexemes : ∀ lexeme ∈ lexemes, lexeme.IsLexeme) {text : String}
    (spelled : text.toList = spellingOf pieces) :
    ∃ tokens place, Scanned.ofText text = ⟨tokens ++ [Token.endAt place], []⟩ ∧
      List.Forall₂ Shows lexemes tokens := by
  obtain ⟨tokens, scanned, show'⟩ := laidOut.exists_tokens areLexemes .start
  rw [scannedFrom, Prod.mk.injEq] at scanned
  refine ⟨tokens, (Placed.ofPieces pieces).position, ?_, show'⟩
  rw [Scanned.ofText, spelled, Piece.ofText_spellingOf (laidOut.separated areLexemes true)]
  simp only [Placed.pieces_ofPieces]
  rw [scanned.1, scanned.2]

end Tokens

end DatasetLineage
