/-
Module: DatasetLineage.Program.Piece
Purpose: The pieces that a program text is made of: blanks, comments, and what becomes tokens. A
  piece keeps enough to be spelled out again, and the pieces of a text spell the text. A quoted
  piece holds its value, so its spelling doubles each delimiter inside.
Main exports: Piece, Piece.spelling, Piece.opensStatement, wordKind
-/
import DatasetLineage.Program.Token
import DatasetLineage.Text.Numeric

namespace DatasetLineage

open Text

/-- The delimiter of one kind of string literal, an apostrophe. -/
def apostrophe : Char := '\x27'

/-- The delimiter of the other kind of string literal, a quotation mark. -/
def quotationMark : Char := '\x22'

/-- A contiguous piece of a program text.
    - `blank` is one blank character.
    - `blockComment` runs from `/*` to the next `*/`, or to the end of the text if it is not closed.
    - `starComment` is a comment statement, from a `*` that begins a statement to the next `;`.
    - `quoted` is a string literal, which may lack its closing delimiter at the end of the text.
    - `word` and `number` become identifiers, or a word a keyword.
    - `mark` is one character of known punctuation.
    - `strange` is a run of characters that have no place in a program. -/
inductive Piece where
  | blank (character : Char)
  | blockComment (body : List Char) (closed : Bool)
  | starComment (body : List Char) (closed : Bool)
  | quoted (delimiter : Char) (value : List Char) (closed : Bool)
  | word (spelling : List Char)
  | number (spelling : List Char)
  | mark (character : Char)
  | strange (first : Char) (more : List Char)
deriving DecidableEq, Repr

/-- A value with each delimiter in it written twice. -/
def doubled (delimiter : Char) (value : List Char) : List Char :=
  value.flatMap fun c => if c = delimiter then [c, c] else [c]

/-- The characters of a piece. -/
def Piece.spelling : Piece → List Char
  | blank c => [c]
  | blockComment body closed => '/' :: '*' :: body ++ if closed then ['*', '/'] else []
  | starComment body closed => '*' :: body ++ if closed then [';'] else []
  | quoted delimiter value closed =>
    delimiter :: doubled delimiter value ++ if closed then [delimiter] else []
  | word spelling => spelling
  | number spelling => spelling
  | mark c => [c]
  | strange first more => first :: more

/-- Whether a statement begins behind the piece, given whether one begins before it. Blanks and
    comments leave that as it is; behind a token, one begins only if the token is a semicolon. -/
def Piece.opensStatement (before : Bool) : Piece → Bool
  | blank _ | blockComment _ _ | starComment _ _ => before
  | mark c => c == ';'
  | _ => false

/-- Whether a word consists of letters, numerals and underscores only, which a keyword does. -/
def isPlainWord (spelling : List Char) : Bool :=
  spelling.all fun c => isAlphanumeric c || c == '_'

/-- The kind of the token that a word makes: a keyword if the whole word spells one. -/
def wordKind (spelling : List Char) : TokenKind :=
  match Keyword.ofText? (String.ofList spelling) with
  | some keyword =>
    if isPlainWord spelling then .keyword keyword else .identifier (String.ofList spelling)
  | none => .identifier (String.ofList spelling)

end DatasetLineage
