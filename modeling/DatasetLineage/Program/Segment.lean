/-
Module: DatasetLineage.Program.Segment
Purpose: The statements of a program as stretches of tokens. Tokens up to the first one that
  stands for the end of the text are cut at semicolons; stretches without a token are dropped. A
  segment keeps the token that stops it, because a message may point there.
Main exports: Segment, endToken, Segment.ofTokens
-/
import DatasetLineage.Program.Token

namespace DatasetLineage

/-- The tokens of one statement and the token that stops it, a semicolon or the end of the text. -/
structure Segment where
  body : List Token
  stop : Token
deriving DecidableEq, Repr

/-- The token for the end of a token sequence: its first end token, or one made up at the place of
    its last token if it has none. -/
def endToken (tokens : List Token) : Token :=
  match tokens.find? Token.isEnd with
  | some token => token
  | none => Token.endAt ((tokens.getLast?.map Token.position).getD .start)

/-- Tokens that are being cut: the segments that are complete and the tokens behind them, both
    latest first. -/
structure Cut where
  segments : List Segment
  body : List Token

/-- One more token for the cut. -/
def Cut.add (cut : Cut) (token : Token) : Cut :=
  if token.isMark ';' then ⟨⟨cut.body.reverse, token⟩ :: cut.segments, []⟩
  else ⟨cut.segments, token :: cut.body⟩

/-- The segments of a token sequence that have a token, in order. -/
def Segment.ofTokens (tokens : List Token) : List Segment :=
  let cut := (tokens.takeWhile fun token => !token.isEnd).foldl Cut.add ⟨[], []⟩
  let last : Segment := ⟨cut.body.reverse, endToken tokens⟩
  (last :: cut.segments).reverse.filter fun segment => !segment.body.isEmpty

end DatasetLineage
