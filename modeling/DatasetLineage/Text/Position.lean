/-
Module: DatasetLineage.Text.Position
Purpose: Places in a text. Lines and columns are counted from one, in characters, and only a line
  feed starts a new line. The place after a text is the place before it moved over each character.
Main exports: Position, Position.next, Position.after, Position.notAfter
-/

namespace DatasetLineage

/-- A place in a text: line and column, both counted from one. -/
structure Position where
  line : Nat
  column : Nat
deriving DecidableEq, Repr, Inhabited

namespace Position

/-- The place of the first character of a text. -/
def start : Position := ⟨1, 1⟩

/-- The place just behind one character. A line feed opens the next line; every other character,
    a carriage return too, takes one column. -/
def next (place : Position) (c : Char) : Position :=
  if c = '\n' then ⟨place.line + 1, 1⟩ else ⟨place.line, place.column + 1⟩

/-- The place just behind a stretch of text that begins at `place`. -/
def after (place : Position) (text : List Char) : Position :=
  text.foldl next place

/-- Reading order: by line, then by column. -/
def notAfter (a b : Position) : Bool :=
  a.line < b.line || (a.line == b.line && a.column ≤ b.column)

@[simp] theorem after_nil (place : Position) : place.after [] = place := rfl

@[simp] theorem after_cons (place : Position) (c : Char) (text : List Char) :
    place.after (c :: text) = (place.next c).after text := rfl

/-- Moving over two stretches in turn is moving over their concatenation. -/
@[simp] theorem after_append (place : Position) (a b : List Char) :
    place.after (a ++ b) = (place.after a).after b := by
  simp [after, List.foldl_append]

/-- A place is moved along its line by as many columns as there are characters. -/
theorem after_replicate (place : Position) {c : Char} (noFeed : c ≠ '\n') (count : Nat) :
    place.after (List.replicate count c) = ⟨place.line, place.column + count⟩ := by
  induction count generalizing place with
  | zero =>
      rfl
  | succ count ih =>
      rw [List.replicate_succ, after_cons, ih, next, if_neg noFeed, Nat.add_assoc, Nat.add_comm 1]

end Position

end DatasetLineage
