/-
Module: DatasetLineage.Proofs.TextBoundaries
Purpose: Where a text may be cut so that its parts are cut into pieces alone. All that a scan hands
  over to the text behind is the piece that has been begun, and whether a statement begins. If the
  text behind does not go on with what has been begun, its pieces stand behind those in front. A
  text whose last comment or literal is closed leaves nothing open but words, numbers and runs,
  with which neither a blank nor a slash nor a delimiter goes on, and literals, with which only
  their own delimiter does.
Main exports: Scanned.ofText_eq, Scan.statementStart_settle_read, Piece.ofTextBehind,
  Piece.ofTextBehind_spelling, Piece.ofText_append, Piece.IsClosed, EndsPieces,
  Pending.advance_eq_released, Piece.ofText_append_of_endsPieces, Piece.ofText_append_of_opens
-/
import DatasetLineage.Proofs.TokenSpans

namespace DatasetLineage

open Text

/-- Scanning reads tokens and diagnostics off the pieces of a text. -/
theorem Scanned.ofText_eq (text : String) :
    ofText text =
      ⟨(scannedFrom .start (Piece.ofText text.toList)).1 ++
          [Token.endAt (Position.start.after text.toList)],
        (scannedFrom .start (Piece.ofText text.toList)).2⟩ := by
  rw [ofText, Placed.position_ofPieces, Piece.spelling_ofText]
  simp only [Placed.pieces_ofPieces]
  rfl

/-! ### The start of a statement -/

namespace Scan

/-- Whether a scan knows from its pieces whether a statement begins. -/
def Tracks (scan : Scan) : Prop := scan.statementStart = opensBehind true scan.pieces.reverse

variable {scan : Scan}

theorem Tracks.add (tracks : scan.Tracks) (piece : Piece) : (scan.add piece).Tracks := by
  simp only [Tracks, Scan.add, opensBehind, List.reverse_cons, List.foldl_append, List.foldl_cons,
    List.foldl_nil]
  rw [tracks, opensBehind]

theorem Tracks.settle (tracks : scan.Tracks) : scan.settle.Tracks := by
  have run : ∀ (pieces : List Piece) (scan : Scan), scan.Tracks →
      (pieces.foldl Scan.add scan).Tracks := by
    intro pieces
    induction pieces with
    | nil =>
        exact fun _ tracks => tracks
    | cons piece rest ih =>
        exact fun scan tracks => ih (scan.add piece) (tracks.add piece)
  exact run _ _ tracks

theorem Tracks.step (tracks : scan.Tracks) (c : Char) : (scan.step c).Tracks := by
  unfold Scan.step
  cases scan.pending.advance c with
  | absorbed pending =>
      exact tracks
  | completed piece =>
      exact tracks.add piece
  | released =>
      have settled : scan.settle.Tracks := tracks.settle
      change (scan.settle.begin c).Tracks
      unfold Scan.begin
      cases opening scan.settle.statementStart c with
      | inl pending =>
          exact settled
      | inr piece =>
          exact settled.add piece

theorem Tracks.read (tracks : scan.Tracks) (text : List Char) : (scan.read text).Tracks := by
  induction text generalizing scan with
  | nil =>
      exact tracks
  | cons c rest ih =>
      exact ih (tracks.step c)

/-- Whether a statement begins behind a text is told by the pieces of the text. -/
theorem statementStart_settle_read (text : List Char) :
    (Scan.start.read text).settle.statementStart = opensBehind true (Piece.ofText text) := by
  have begun : Scan.start.Tracks := rfl
  exact (begun.read text).settle

end Scan

/-! ### Pieces of a longer text -/

namespace Piece

/-- The pieces of a text that stands behind other text, given whether a statement begins there. -/
def ofTextBehind (statementStart : Bool) (text : List Char) : List Piece :=
  ((Scan.mk [] statementStart .nothing).read text).settle.pieces.reverse

variable {statementStart : Bool} {front rest : List Char} {piece : Piece}

theorem ofTextBehind_true (text : List Char) : ofTextBehind true text = ofText text := rfl

theorem ofTextBehind_spellingOf {pieces : List Piece}
    (separated : Separated statementStart pieces) :
    ofTextBehind statementStart (spellingOf pieces) = pieces := by
  rw [ofTextBehind, Scan.pieces_settle_read_spellingOf [] separated]
  simp

/-- A piece that fits is the first one, and the others are those of the text behind it. -/
theorem ofTextBehind_spelling (fits : piece.Fits statementStart rest) :
    ofTextBehind statementStart (piece.spelling ++ rest) =
      piece :: ofTextBehind (piece.opensStatement statementStart) rest := by
  obtain ⟨pieces, separated, rfl⟩ := exists_separated (piece.opensStatement statementStart) rest
  rw [ofTextBehind_spellingOf separated, ← spellingOf_cons]
  exact ofTextBehind_spellingOf ⟨fits, separated⟩

/-- If a text does not go on with what the text in front of it has begun, the pieces of the two
    stand one behind the other. -/
theorem ofText_append
    (released : ∀ c ∈ rest.head?, (Scan.start.read front).pending.advance c = .released) :
    ofText (front ++ rest) =
      ofText front ++ ofTextBehind (opensBehind true (ofText front)) rest := by
  obtain ⟨pieces, separated, rfl⟩ := exists_separated (opensBehind true (ofText front)) rest
  have start : (Scan.start.read front).settle =
      ⟨(ofText front).reverse, opensBehind true (ofText front), .nothing⟩ := by
    rw [← Scan.statementStart_settle_read, ← Scan.pending_settle (Scan.start.read front), ofText,
      List.reverse_reverse]
  have whole : Scan.start.read (front ++ spellingOf pieces) =
      (Scan.start.read front).read (spellingOf pieces) := List.foldl_append
  rw [ofTextBehind_spellingOf separated, ofText, whole, Scan.settle_read_of_released released,
    start, Scan.pieces_settle_read_spellingOf _ separated]
  simp

/-- The pieces that have been begun at the end of a text are its last ones. -/
theorem settled_suffix (text : List Char) :
    (Scan.start.read text).pending.settled <:+ ofText text := by
  have run : ∀ (pieces : List Piece) (scan : Scan),
      (pieces.foldl Scan.add scan).pieces = pieces.reverse ++ scan.pieces := by
    intro pieces
    induction pieces with
    | nil =>
        exact fun _ => rfl
    | cons piece rest ih =>
        intro scan
        rw [List.foldl_cons, ih]
        simp [Scan.add]
  rw [ofText, Scan.settle, run]
  simp

/-- Whether a piece has its end. Only comments and literals can lack it. -/
def IsClosed : Piece → Prop
  | blockComment _ closed | starComment _ closed | quoted _ _ closed => closed = true
  | _ => True

instance : DecidablePred IsClosed
  | blockComment _ closed | starComment _ closed | quoted _ _ closed =>
    inferInstanceAs (Decidable (closed = true))
  | blank _ | word _ | number _ | mark _ | strange _ _ => .isTrue trivial

end Piece

/-- Whether no piece goes on with a character, a literal that it delimits and comments apart. -/
def EndsPieces (c : Char) : Prop :=
  isWordStart c = false ∧ isWordTail c = false ∧ isNumberTail c = false ∧ isStrange c = false ∧
    c ≠ '.' ∧ c ≠ '*'

theorem IsDelimiter.endsPieces {c : Char} (isDelimiter : IsDelimiter c) : EndsPieces c := by
  unfold EndsPieces
  rcases isDelimiter with rfl | rfl <;> decide

/-- Such a character is released by what has been begun, unless that is a comment or a literal that
    is not closed, or the character is a second delimiter. -/
theorem Pending.advance_eq_released {pending : Pending} {c : Char}
    (closed : ∀ piece ∈ pending.settled.getLast?, piece.IsClosed) (ends : EndsPieces c)
    (apart : ∀ value, .quoted c value true ∉ pending.settled.getLast?) :
    pending.advance c = .released := by
  obtain ⟨notStart, notTail, notNumber, notStrange, notDot, notStar⟩ := ends
  cases pending with
  | nothing =>
      rfl
  | slash =>
      rw [advance, if_neg notStar]
  | blockComment body star =>
      cases star with
      | false =>
          exact absurd (closed (.blockComment body.reverse false) rfl) Bool.false_ne_true
      | true =>
          exact absurd (closed (.blockComment ('*' :: body).reverse false) rfl)
            Bool.false_ne_true
  | starComment body =>
      exact absurd (closed (.starComment body.reverse false) rfl) Bool.false_ne_true
  | ampersand =>
      simp [advance, notStart]
  | word spelling =>
      simp [advance, notTail, notDot]
  | wordDot spelling =>
      simp [advance, notTail, notDot]
  | number spelling =>
      simp [advance, notNumber]
  | quoted delimiter value =>
      exact absurd (closed (.quoted delimiter value.reverse false) rfl) Bool.false_ne_true
  | quoteSeen delimiter value =>
      have other : c ≠ delimiter := by
        rintro rfl
        exact apart value.reverse rfl
      rw [advance, if_neg other]
  | strange first more =>
      simp [advance, notStrange]

/-- Behind what has been begun no statement begins, unless it is a comment that is not closed. -/
theorem Pending.opensStatement_getLast {pending : Pending} {piece : Piece}
    (last : piece ∈ pending.settled.getLast?) (closed : piece.IsClosed) (before : Bool) :
    piece.opensStatement before = false := by
  cases pending with
  | nothing =>
      simp [settled] at last
  | blockComment body star =>
      cases star <;> (simp [settled] at last; subst last; exact absurd closed Bool.false_ne_true)
  | starComment body =>
      simp [settled] at last
      subst last
      exact absurd closed Bool.false_ne_true
  | _ =>
      simp [settled] at last
      subst last
      simp [Piece.opensStatement]

theorem Pending.eq_nothing_of_settled {pending : Pending} (none : pending.settled = []) :
    pending = .nothing := by
  cases pending with
  | nothing =>
      rfl
  | blockComment body star =>
      cases star <;> simp [settled] at none
  | _ =>
      simp [settled] at none

/-- Every piece of a sequence that is separated fits somewhere. -/
theorem Separated.exists_fits {statementStart : Bool} {pieces : List Piece} {piece : Piece}
    (separated : Separated statementStart pieces) (member : piece ∈ pieces) :
    ∃ before rest, piece.Fits before rest := by
  obtain ⟨front, back, rfl⟩ := List.append_of_mem member
  exact ⟨_, _, separated.of_append.1⟩

/-- The last of the pieces that have been begun is the last piece of the text. -/
theorem Piece.getLast?_of_settled {front : List Char} {piece : Piece}
    (last : piece ∈ (Scan.start.read front).pending.settled.getLast?) :
    piece ∈ (ofText front).getLast? := by
  obtain ⟨others, same⟩ := settled_suffix front
  rw [← same, Option.mem_def, List.getLast?_append, Option.mem_def.mp last]
  rfl

/-- A text whose last piece is a closed literal ends with its delimiter. -/
theorem Piece.getLast?_of_quoted {front value : List Char} {delimiter : Char}
    (last : .quoted delimiter value true ∈ (Piece.ofText front).getLast?) :
    delimiter ∈ front.getLast? := by
  obtain ⟨others, same⟩ := List.getLast?_eq_some_iff.mp last
  have spelled := Piece.spelling_ofText front
  rw [same, spellingOf_append] at spelled
  have ends : spellingOf [.quoted delimiter value true] =
      delimiter :: doubled delimiter value ++ [delimiter] := by
    simp [spellingOf, Piece.spelling]
  rw [← spelled, ends, ← List.append_assoc]
  exact List.getLast?_concat

/-- Behind a text whose last piece is closed, a text is cut alone if no piece goes on with its first
    character. -/
theorem Piece.ofText_append_of_endsPieces {front rest : List Char}
    (closed : ∀ piece ∈ (ofText front).getLast?, piece.IsClosed)
    (ends : ∀ c ∈ rest.head?, EndsPieces c ∧ (IsDelimiter c → c ∉ front.getLast?)) :
    ofText (front ++ rest) =
      ofText front ++ ofTextBehind (opensBehind true (ofText front)) rest := by
  apply ofText_append
  intro c isNext
  obtain ⟨endsPieces, apart⟩ := ends c isNext
  apply Pending.advance_eq_released _ endsPieces
  · intro value last
    have isLast := getLast?_of_settled last
    obtain ⟨_, _, fits⟩ := (separated_ofText front).exists_fits (List.mem_of_getLast? isLast)
    exact apart fits.1 (getLast?_of_quoted isLast)
  · exact fun piece last => closed piece (getLast?_of_settled last)

/-- Behind a text whose pieces are closed, a text that begins with a blank or a slash is cut
    alone. -/
theorem Piece.ofText_append_of_isClosed {front rest : List Char}
    (closed : ∀ piece ∈ ofText front, piece.IsClosed)
    (gap : ∀ c ∈ rest.head?, c = ' ' ∨ c = '/') :
    ofText (front ++ rest) =
      ofText front ++ ofTextBehind (opensBehind true (ofText front)) rest := by
  apply ofText_append_of_endsPieces
  · exact fun piece last => closed piece (List.mem_of_getLast? last)
  · intro c isNext
    have known : EndsPieces c ∧ ¬ IsDelimiter c := by
      unfold EndsPieces IsDelimiter
      rcases gap c isNext with rfl | rfl <;> decide
    exact ⟨known.1, fun isDelimiter => absurd isDelimiter known.2⟩

/-- Where a statement begins behind a closed piece, nothing has been begun. -/
theorem Piece.pending_eq_nothing {front : List Char}
    (closed : ∀ piece ∈ (ofText front).getLast?, piece.IsClosed)
    (opens : opensBehind true (ofText front) = true) :
    (Scan.start.read front).pending = .nothing := by
  obtain ⟨others, same⟩ := settled_suffix front
  apply Pending.eq_nothing_of_settled
  rcases List.eq_nil_or_concat' (Scan.start.read front).pending.settled with
    none | ⟨init, last, begun⟩
  · exact none
  · rw [← same, begun, ← List.append_assoc] at closed opens
    have isLast : last ∈ (Scan.start.read front).pending.settled.getLast? := by simp [begun]
    have opensNot := Pending.opensStatement_getLast isLast (closed last (by simp))
    rw [opensBehind, List.foldl_append, List.foldl_cons, List.foldl_nil, opensNot] at opens
    exact absurd opens Bool.false_ne_true

/-- Where a statement begins behind a closed piece, every text is cut alone. -/
theorem Piece.ofText_append_of_opens {front : List Char} (rest : List Char)
    (closed : ∀ piece ∈ (ofText front).getLast?, piece.IsClosed)
    (opens : opensBehind true (ofText front) = true) :
    ofText (front ++ rest) = ofText front ++ ofText rest := by
  have idle := pending_eq_nothing closed opens
  rw [← ofTextBehind_true rest, ← opens]
  apply ofText_append
  intro c _
  rw [idle, Pending.advance]

end DatasetLineage
