/-
Module: DatasetLineage.Program.Piece.Spelling
Purpose: No character is lost in cutting a text into pieces. What a scan has read is spelled by
  its complete pieces and by the piece that has been begun, so at the end the pieces spell the
  text.
Main exports: Pending.spelling, Scan.spelling, Scan.spelling_step, Piece.spelling_ofText
-/
import DatasetLineage.Program.Piece.Scan

namespace DatasetLineage

/-- The characters of a sequence of pieces. -/
def spellingOf (pieces : List Piece) : List Char := pieces.flatMap Piece.spelling

/-- The characters of a piece that has been begun. -/
def Pending.spelling : Pending → List Char
  | nothing => []
  | slash => ['/']
  | blockComment body star => '/' :: '*' :: body.reverse ++ if star then ['*'] else []
  | starComment body => '*' :: body.reverse
  | ampersand => ['&']
  | word spelling => spelling.reverse
  | wordDot spelling => spelling.reverse ++ ['.']
  | number spelling => spelling.reverse
  | quoted delimiter value => delimiter :: doubled delimiter value.reverse
  | quoteSeen delimiter value => delimiter :: doubled delimiter value.reverse ++ [delimiter]
  | strange first more => first :: more.reverse

/-- The characters that a scan has read. -/
def Scan.spelling (scan : Scan) : List Char :=
  spellingOf scan.pieces.reverse ++ scan.pending.spelling

@[simp] theorem Pending.spelling_nothing : Pending.nothing.spelling = [] := rfl

@[simp] theorem spellingOf_nil : spellingOf [] = [] := rfl

@[simp] theorem spellingOf_cons (piece : Piece) (pieces : List Piece) :
    spellingOf (piece :: pieces) = piece.spelling ++ spellingOf pieces := rfl

@[simp] theorem spellingOf_append (a b : List Piece) :
    spellingOf (a ++ b) = spellingOf a ++ spellingOf b := by
  simp [spellingOf]

/-- Settling keeps the characters of the piece that has been begun. -/
theorem Pending.spellingOf_settled (pending : Pending) :
    spellingOf pending.settled = pending.spelling := by
  cases pending with
  | blockComment body star =>
    cases star <;> simp [settled, Pending.spelling, Piece.spelling]
  | _ => simp [settled, Pending.spelling, Piece.spelling]

/-- A character that is absorbed becomes the last one of the piece that has been begun. -/
theorem Pending.spelling_absorbed {pending next : Pending} {c : Char}
    (h : pending.advance c = .absorbed next) : next.spelling = pending.spelling ++ [c] := by
  unfold advance at h
  split at h <;> (try split at h) <;> (try split at h) <;> simp_all <;> subst h <;>
    simp_all [Pending.spelling, doubled]

/-- A character that completes a piece becomes its last one. -/
theorem Pending.spelling_completed {pending : Pending} {piece : Piece} {c : Char}
    (h : pending.advance c = .completed piece) : piece.spelling = pending.spelling ++ [c] := by
  unfold advance at h
  split at h <;> (try split at h) <;> (try split at h) <;> simp_all <;> subst h <;>
    simp_all [Pending.spelling, Piece.spelling]

/-- A character that begins a piece is all that is read of it. -/
theorem spelling_opening_inl {statementStart : Bool} {c : Char} {pending : Pending}
    (h : opening statementStart c = .inl pending) : pending.spelling = [c] := by
  unfold opening at h
  repeat' split at h
  all_goals simp_all <;> subst h <;> simp [Pending.spelling, doubled]

/-- A piece of one character is that character. -/
theorem spelling_opening_inr {statementStart : Bool} {c : Char} {piece : Piece}
    (h : opening statementStart c = .inr piece) : piece.spelling = [c] := by
  unfold opening at h
  repeat' split at h
  all_goals simp_all <;> subst h <;> simp [Piece.spelling]

namespace Scan

/-- Adding pieces spells them behind the complete ones. -/
theorem spellingOf_foldl_add (pieces : List Piece) (scan : Scan) :
    spellingOf (pieces.foldl add scan).pieces.reverse =
      spellingOf scan.pieces.reverse ++ spellingOf pieces := by
  induction pieces generalizing scan with
  | nil => simp
  | cons piece rest ih =>
    rw [List.foldl_cons, ih]
    simp [add]

/-- Settling completes what has been begun. -/
theorem pending_settle (scan : Scan) : scan.settle.pending = .nothing := by
  unfold settle
  generalize scan.pending.settled = pieces
  induction pieces generalizing scan with
  | nil => rfl
  | cons piece rest ih =>
    exact ih ⟨piece :: scan.pieces, piece.opensStatement scan.statementStart, .nothing⟩

/-- Settling keeps every character. -/
theorem spelling_settle (scan : Scan) : scan.settle.spelling = scan.spelling := by
  have complete := spellingOf_foldl_add scan.pending.settled { scan with pending := .nothing }
  rw [Pending.spellingOf_settled] at complete
  rw [spelling, pending_settle, settle, complete]
  simp [spelling]

/-- A character that begins a piece is added at the end. -/
theorem spelling_begin {scan : Scan} (idle : scan.pending = .nothing) (c : Char) :
    (scan.begin c).spelling = scan.spelling ++ [c] := by
  unfold begin
  split
  · rename_i pending opened
    simp [spelling, idle, spelling_opening_inl opened]
  · rename_i piece opened
    simp [spelling, idle, add, spelling_opening_inr opened]

/-- Each character is added at the end of what has been read. -/
theorem spelling_step (scan : Scan) (c : Char) : (scan.step c).spelling = scan.spelling ++ [c] := by
  unfold step
  split
  · rename_i next absorbed
    simp [spelling, Pending.spelling_absorbed absorbed]
  · rename_i piece completed
    simp [spelling, add, Pending.spelling_completed completed]
  · rw [spelling_begin (pending_settle scan), spelling_settle]

/-- What a scan has read is what it had read and the text that it was given. -/
theorem spelling_read (scan : Scan) (text : List Char) :
    (scan.read text).spelling = scan.spelling ++ text := by
  induction text generalizing scan with
  | nil => simp [read]
  | cons c rest ih =>
    change ((scan.step c).read rest).spelling = _
    rw [ih, spelling_step, List.append_assoc, List.singleton_append]

end Scan

/-- The pieces of a text spell the text. -/
theorem Piece.spelling_ofText (text : List Char) : spellingOf (Piece.ofText text) = text := by
  have whole : (Scan.start.read text).settle.spelling = text := by
    rw [Scan.spelling_settle, Scan.spelling_read]
    rfl
  rw [Scan.spelling, Scan.pending_settle] at whole
  simpa [Piece.ofText] using whole

end DatasetLineage
