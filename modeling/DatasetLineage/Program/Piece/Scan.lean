/-
Module: DatasetLineage.Program.Piece.Scan
Purpose: Cutting a program text into pieces, one character at a time. Between characters the scan
  holds the piece that has been begun. The next character is absorbed by that piece, completes it,
  or releases it and begins a piece of its own; so no character is looked at before its turn.
Main exports: Pending, Pending.advance, Pending.settled, opening, Scan.step, Piece.ofText
-/
import DatasetLineage.Program.Piece
import DatasetLineage.Text.Blank

namespace DatasetLineage

open Text

/-- The punctuation of a program. -/
def marks : List Char :=
  [';', ',', '(', ')', '=', '.', '*', '/', '+', '-', '<', '>', '%', '$', ':', '!', '|', '^', '~',
   '#', '@', '?', '[', ']', '\x7b', '\x7d', '\x60', '&']

/-- Whether a word may begin with the character. -/
def isWordStart (c : Char) : Bool := isAlphabetic c || c == '_'

/-- Whether a word may go on with the character, dots apart. -/
def isWordTail (c : Char) : Bool := isAlphanumeric c || c == '_' || c == '&'

/-- Whether a number may go on with the character. -/
def isNumberTail (c : Char) : Bool := isAlphanumeric c || c == '_' || c == '.'

/-- Whether a run of strange characters goes on with the character. A numeral outside ASCII or a
    NUL can begin such a run and does not continue one. -/
def isStrange (c : Char) : Bool :=
  !(c == '\x00' || isBlank c || isAlphanumeric c || c == '_' || c == apostrophe
    || c == quotationMark || marks.contains c)

/-- A piece that has been begun, with what was read of it latest first.
    - `slash` and `ampersand` are a lone `/` or `&`, which may open a comment or a word.
    - `blockComment` tells whether a `*` was read last; that `*` is not yet part of the body.
    - `wordDot` is a word behind which a dot was read; the dot belongs to it if more follows.
    - `quoteSeen` is a literal at whose end its delimiter was read; a second one continues it. -/
inductive Pending where
  | nothing
  | slash
  | blockComment (body : List Char) (star : Bool)
  | starComment (body : List Char)
  | ampersand
  | word (spelling : List Char)
  | wordDot (spelling : List Char)
  | number (spelling : List Char)
  | quoted (delimiter : Char) (value : List Char)
  | quoteSeen (delimiter : Char) (value : List Char)
  | strange (first : Char) (more : List Char)
deriving DecidableEq, Repr

/-- What one character does to the piece that has been begun. -/
inductive Advance where
  | absorbed (pending : Pending)
  | completed (piece : Piece)
  | released
deriving DecidableEq, Repr

/-- The next character as seen by the piece that has been begun. -/
def Pending.advance : Pending → Char → Advance
  | nothing, _ => .released
  | slash, c => if c = '*' then .absorbed (blockComment [] false) else .released
  | blockComment body false, c =>
    if c = '*' then .absorbed (blockComment body true)
    else .absorbed (blockComment (c :: body) false)
  | blockComment body true, c =>
    if c = '/' then .completed (.blockComment body.reverse true)
    else if c = '*' then .absorbed (blockComment ('*' :: body) true)
    else .absorbed (blockComment (c :: '*' :: body) false)
  | starComment body, c =>
    if c = ';' then .completed (.starComment body.reverse true)
    else .absorbed (starComment (c :: body))
  | ampersand, c => if isWordStart c then .absorbed (word [c, '&']) else .released
  | word spelling, c =>
    if isWordTail c then .absorbed (word (c :: spelling))
    else if c = '.' then .absorbed (wordDot spelling)
    else .released
  | wordDot spelling, c =>
    if isWordTail c then .absorbed (word (c :: '.' :: spelling))
    else if c = '.' then .absorbed (wordDot ('.' :: spelling))
    else .released
  | number spelling, c =>
    if isNumberTail c then .absorbed (number (c :: spelling)) else .released
  | quoted delimiter value, c =>
    if c = delimiter then .absorbed (quoteSeen delimiter value)
    else .absorbed (quoted delimiter (c :: value))
  | quoteSeen delimiter value, c =>
    if c = delimiter then .absorbed (quoted delimiter (c :: value)) else .released
  | strange first more, c =>
    if isStrange c then .absorbed (strange first (c :: more)) else .released

/-- The pieces that a begun piece amounts to if nothing more is added to it. -/
def Pending.settled : Pending → List Piece
  | nothing => []
  | slash => [.mark '/']
  | blockComment body false => [.blockComment body.reverse false]
  | blockComment body true => [.blockComment ('*' :: body).reverse false]
  | starComment body => [.starComment body.reverse false]
  | ampersand => [.mark '&']
  | word spelling => [.word spelling.reverse]
  | wordDot spelling => [.word spelling.reverse, .mark '.']
  | number spelling => [.number spelling.reverse]
  | quoted delimiter value => [.quoted delimiter value.reverse false]
  | quoteSeen delimiter value => [.quoted delimiter value.reverse true]
  | strange first more => [.strange first more.reverse]

/-- What a character begins. A `*` begins a comment where a statement begins. -/
def opening (statementStart : Bool) (c : Char) : Pending ⊕ Piece :=
  if isBlank c then .inr (.blank c)
  else if c = '/' then .inl .slash
  else if c = '*' ∧ statementStart then .inl (.starComment [])
  else if c = apostrophe ∨ c = quotationMark then .inl (.quoted c [])
  else if isWordStart c then .inl (.word [c])
  else if c = '&' then .inl .ampersand
  else if c.isDigit then .inl (.number [c])
  else if marks.contains c then .inr (.mark c)
  else .inl (.strange c [])

/-- A scan between two characters: the pieces that are complete, latest first, whether a statement
    begins behind them, and the piece that has been begun. -/
structure Scan where
  pieces : List Piece
  statementStart : Bool
  pending : Pending
deriving DecidableEq, Repr

namespace Scan

/-- A scan that has read nothing. -/
def start : Scan := ⟨[], true, .nothing⟩

/-- The scan with one more complete piece, and nothing begun behind it. -/
def add (scan : Scan) (piece : Piece) : Scan :=
  ⟨piece :: scan.pieces, piece.opensStatement scan.statementStart, .nothing⟩

/-- The scan with the piece that has been begun left as it is. -/
def settle (scan : Scan) : Scan :=
  scan.pending.settled.foldl add { scan with pending := .nothing }

/-- The scan after a character that begins a piece. -/
def begin (scan : Scan) (c : Char) : Scan :=
  match opening scan.statementStart c with
  | .inl pending => { scan with pending }
  | .inr piece => scan.add piece

/-- The scan after one more character. -/
def step (scan : Scan) (c : Char) : Scan :=
  match scan.pending.advance c with
  | .absorbed pending => { scan with pending }
  | .completed piece => scan.add piece
  | .released => scan.settle.begin c

/-- The scan after a stretch of text. -/
def read (scan : Scan) (text : List Char) : Scan := text.foldl step scan

end Scan

/-- The pieces of a program text, in order. -/
def Piece.ofText (text : List Char) : List Piece :=
  (Scan.start.read text).settle.pieces.reverse

end DatasetLineage
