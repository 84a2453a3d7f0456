/-
Module: DatasetLineage.Text.Counters
Purpose: Places as they are counted in 32 bits. Behind the largest line or column that it can hold,
  a counter goes on from zero. The counters hold the place of every stretch of text up to multiples
  of 2 ^ 32, and so hold the place itself as long as lines and columns are below that.
Main exports: Counters, Counters.next, Counters.after, Position.counters, Position.counted,
  Position.counters_after, Position.counted_eq_self
-/
import DatasetLineage.Text.Position

namespace DatasetLineage

/-- A place in a text as it is counted: line and column, of 32 bits each. -/
structure Counters where
  line : UInt32
  column : UInt32
deriving DecidableEq, Repr

namespace Counters

/-- The counters at the first character of a text. -/
def start : Counters := ⟨1, 1⟩

/-- The counters behind one character. -/
def next (counters : Counters) (c : Char) : Counters :=
  if c = '\n' then ⟨counters.line + 1, 1⟩ else ⟨counters.line, counters.column + 1⟩

/-- The counters behind a stretch of text. -/
def after (counters : Counters) (text : List Char) : Counters :=
  text.foldl next counters

/-- The place that the counters tell. -/
def place (counters : Counters) : Position := ⟨counters.line.toNat, counters.column.toNat⟩

end Counters

namespace Position

/-- What the counters hold at a place. -/
def counters (place : Position) : Counters := ⟨.ofNat place.line, .ofNat place.column⟩

/-- A place as its counters tell it. -/
def counted (place : Position) : Position := place.counters.place

@[simp] theorem counters_start : start.counters = Counters.start := rfl

@[simp] theorem counters_next (place : Position) (c : Char) :
    (place.next c).counters = place.counters.next c := by
  unfold next Counters.next
  split <;> simp [counters]

/-- Counting goes along with moving over a text. -/
theorem counters_after (place : Position) (text : List Char) :
    (place.after text).counters = place.counters.after text := by
  induction text generalizing place with
  | nil =>
      rfl
  | cons c rest ih =>
      rw [after_cons, ih, counters_next]
      rfl

theorem counted_eq (place : Position) :
    place.counted = ⟨place.line % UInt32.size, place.column % UInt32.size⟩ := rfl

/-- A place whose line and column can be held is told as it is. -/
theorem counted_eq_self {place : Position} (line : place.line < UInt32.size)
    (column : place.column < UInt32.size) : place.counted = place := by
  rw [counted_eq, Nat.mod_eq_of_lt line, Nat.mod_eq_of_lt column]

end Position

end DatasetLineage
