/-
Module: DatasetLineage.Program.Token
Purpose: Tokens of a SAS program. A token has a kind, the characters that it is made of, and the
  place where they begin. A mention is what a statement keeps of a token.
Main exports: TokenKind, Token, Mention, Token.mention
-/
import DatasetLineage.Program.Keyword
import DatasetLineage.Text.Position

namespace DatasetLineage

/-- What a token is. Numbers count as identifiers, because only their extent matters; a string
    carries its value, without delimiters and with doubled ones undone. -/
inductive TokenKind where
  | keyword (keyword : Keyword)
  | identifier (name : String)
  | string (value : String)
  | mark (character : Char)
  | endOfText
deriving DecidableEq, Repr, Inhabited

/-- The word by which a message names the kind of a token. -/
def TokenKind.label : TokenKind → String
  | .keyword _ => "KEYWORD"
  | .identifier _ => "IDENT"
  | .string _ => "STRING"
  | .mark _ => "PUNCT"
  | .endOfText => "EOF"

/-- A token: its kind, its spelling and where it begins. -/
structure Token where
  kind : TokenKind
  spelling : String
  position : Position
deriving DecidableEq, Repr, Inhabited

/-- A name, a path or a keyword as it stands at one place of a program. -/
structure Mention where
  text : String
  position : Position
deriving DecidableEq, Repr, Inhabited

namespace Token

/-- The token behind the last character of a text. -/
def endAt (position : Position) : Token := ⟨.endOfText, "eof", position⟩

/-- Whether the token is the mark `c`. -/
def isMark (token : Token) (c : Char) : Bool := token.kind == .mark c

/-- Whether the token stands for the end of the text. -/
def isEnd (token : Token) : Bool := token.kind == .endOfText

/-- The keyword that the token is, if it is one. -/
def keyword? (token : Token) : Option Keyword :=
  match token.kind with
  | .keyword keyword => some keyword
  | _ => none

/-- The name in the token, if it can name a dataset. -/
def name? (token : Token) : Option String :=
  match token.kind with
  | .identifier name => some name
  | _ => none

/-- What a statement keeps of the token: its place, and its value if it is a string or else its
    spelling. -/
def mention (token : Token) : Mention :=
  match token.kind with
  | .string value => ⟨value, token.position⟩
  | _ => ⟨token.spelling, token.position⟩

end Token

end DatasetLineage
