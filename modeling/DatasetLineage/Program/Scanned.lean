/-
Module: DatasetLineage.Program.Scanned
Purpose: The tokens of a program text and what is wrong with its characters. Both are read off the
  pieces, each piece with the place where it begins.
Main exports: Piece.tokens, Piece.diagnostics, Scanned, Scanned.ofText
-/
import DatasetLineage.Program.Diagnostic
import DatasetLineage.Program.Piece.Scan

namespace DatasetLineage

/-- One mark for each character of a run. -/
def markTokens (place : Position) : List Char → List Token
  | [] => []
  | c :: rest => ⟨.mark c, c.toString, place⟩ :: markTokens (place.next c) rest

/-- The tokens of a piece that begins at `place`. -/
def Piece.tokens (place : Position) (piece : Piece) : List Token :=
  match piece with
  | blank _ | blockComment _ _ | starComment _ _ => []
  | quoted _ value _ =>
    [⟨.string (String.ofList value), String.ofList piece.spelling, place⟩]
  | word spelling => [⟨wordKind spelling, String.ofList spelling, place⟩]
  | number spelling => [⟨.identifier (String.ofList spelling), String.ofList spelling, place⟩]
  | mark c => markTokens place [c]
  | strange first more => markTokens place (first :: more)

/-- What is wrong with a piece that begins at `place`. -/
def Piece.diagnostics (place : Position) : Piece → List Diagnostic
  | blockComment _ false => [⟨place, .unterminatedComment⟩]
  | quoted delimiter _ false => [⟨place, .unterminatedString delimiter⟩]
  | strange first more => [⟨place, .unexpectedCharacters (String.ofList (first :: more))⟩]
  | _ => []

/-- Pieces that stand behind one another, each with the place where it begins, latest first, and
    the place behind them all. -/
structure Placed where
  pieces : List (Position × Piece)
  position : Position

/-- One more piece behind those already placed. -/
def Placed.add (placed : Placed) (piece : Piece) : Placed :=
  ⟨(placed.position, piece) :: placed.pieces, placed.position.after piece.spelling⟩

/-- Pieces set one behind the other from the start of a text. -/
def Placed.ofPieces (pieces : List Piece) : Placed :=
  pieces.foldl Placed.add ⟨[], .start⟩

/-- The result of scanning: tokens, closed by one for the end of the text, and diagnostics. -/
structure Scanned where
  tokens : List Token
  diagnostics : List Diagnostic
deriving DecidableEq, Repr

/-- The tokens and diagnostics of a program text. -/
def Scanned.ofText (text : String) : Scanned :=
  let placed := Placed.ofPieces (Piece.ofText text.toList)
  let pieces := placed.pieces.reverse
  ⟨pieces.flatMap (fun (place, piece) => piece.tokens place) ++ [Token.endAt placed.position],
    pieces.flatMap fun (place, piece) => piece.diagnostics place⟩

end DatasetLineage
