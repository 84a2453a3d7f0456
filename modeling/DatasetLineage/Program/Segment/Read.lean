/-
Module: DatasetLineage.Program.Segment.Read
Purpose: The statements that read, told from all their tokens: SET, MERGE, UPDATE and MODIFY with
  their datasets, INFILE with its path. The operands of the former are taken from left to right, and
  each token gets a role: it is a source, or passed over, or stray. Passed over are commas, slashes,
  groups in parentheses, and statement options with the one token that may be their value.
Main exports: Role, ReadPlace.take, readRoles, readSourceStatement, readExternalStatement
-/
import DatasetLineage.Program.Statement.Option

namespace DatasetLineage

/-- What a token is to a read statement. -/
inductive Role where
  | source
  | passed
  | stray
deriving DecidableEq, Repr

/-- Where in the operands of a read statement the next token stands.
    - `item`: at the start of an operand.
    - `group`: in the group that `opening` opens, inside `inner` further groups; there are never more
      of them than tokens in front (`ReadPlace.openGroups_behind_le`).
    - `optionSeen`: behind the name of an option.
    - `optionValue`: behind an option and its equals sign; the next token, any one, is its value. -/
inductive ReadPlace where
  | item
  | group (opening : Token) (inner : Nat)
  | optionSeen
  | optionValue
deriving DecidableEq, Repr

/-- A token at the start of an operand: its role and the place behind it. -/
def takeItem (token : Token) : Role × ReadPlace :=
  match token.kind with
  | .mark '(' => (.passed, .group token 0)
  | .mark ',' | .mark '/' => (.passed, .item)
  | .identifier name => if isReadOption name then (.passed, .optionSeen) else (.source, .item)
  | _ => (.stray, .item)

/-- A token at a place: its role and the place behind it. -/
def ReadPlace.take (place : ReadPlace) (token : Token) : Role × ReadPlace :=
  match place with
  | item => takeItem token
  | group opening inner =>
    if token.isMark '(' then (.passed, group opening (inner + 1))
    else if token.isMark ')' then
      match inner with
      | 0 => (.passed, item)
      | outer + 1 => (.passed, group opening outer)
    else (.passed, group opening inner)
  | optionSeen => if token.isMark '=' then (.passed, optionValue) else takeItem token
  | optionValue => (.passed, item)

/-- The operands read so far with their roles, latest first, and the place behind them. -/
structure ReadRoles where
  roles : List (Token × Role)
  place : ReadPlace

/-- One more operand token. -/
def ReadRoles.add (read : ReadRoles) (token : Token) : ReadRoles :=
  let (role, place) := read.place.take token
  ⟨(token, role) :: read.roles, place⟩

/-- The operands of a read statement with their roles, and the place at its end. -/
def readRoles (operands : List Token) : List (Token × Role) × ReadPlace :=
  let read := operands.foldl ReadRoles.add ⟨[], .item⟩
  (read.roles.reverse, read.place)

/-- The tokens that have a role. -/
def tokensWithRole (role : Role) (roles : List (Token × Role)) : List Token :=
  roles.filterMap fun (token, r) => if r = role then some token else none

/-- A SET, MERGE, UPDATE or MODIFY statement, and what is wrong with it. A group that is not closed
    is reported at its parenthesis, the first stray token at its place, and the lack of any source
    at the keyword, in this order. -/
def readSourceStatement (keyword : Token) (operands : List Token) : Statement × List Diagnostic :=
  let (roles, place) := readRoles operands
  let unclosed := match place with
    | .group opening _ => [opening.fault .unclosedParenthesis]
    | _ => []
  let stray := match tokensWithRole .stray roles with
    | token :: _ => [token.fault (.unexpectedTokens keyword.spelling)]
    | [] => []
  match tokensWithRole .source roles with
  | [] => (.other, unclosed ++ stray ++ [keyword.fault (.missingSources keyword.spelling)])
  | names => (.readSource keyword.mention (names.map Token.mention), unclosed ++ stray)

/-- An INFILE statement, and what is wrong with it. The path has to follow the keyword directly;
    whatever stands there instead, be it the token that stops the statement, is reported. -/
def readExternalStatement (keyword : Token) (operands : List Token) (stop : Token) :
    Statement × List Diagnostic :=
  let first := operands.head?.getD stop
  match first.kind with
  | .string _ => (.readExternal keyword.mention first.mention, [])
  | kind => (.other, [first.fault (.missingPath kind)])

end DatasetLineage
